import MultiPartEvent.Indexer.HexText
import MultiPartEvent.Indexer.Requests

/-!
# Asking a node for a raw transaction

`rawTransactionInBlock` asks a node for a block and looks for the digits of the raw transaction in
the hex of the block's extrinsics.  Digits are half bytes: those of a transaction can occur in an
extrinsic across its bytes, where the transaction is not.  The answer is the first extrinsic that
holds the bytes exactly when no extrinsic before it has their digits at an odd place
(`rawTransactionInBlock_eq_iff`).
-/

namespace MultiPartEvent

/-- The JSON-RPC answer of a node to `chain_getBlock`. -/
structure NodeAnswer where
  /-- The message of `error`, if there is one. -/
  error : Option JsString
  /-- The extrinsics of the block in `result`, if the node knows it. -/
  extrinsics : Option (List JsString)

/-- Ask a node whether the raw transaction bytes occur verbatim inside one of the block's
extrinsics, and in which.  `fetch` is what comes of the request for a block. -/
def rawTransactionInBlock (fetch : JsString → Fetched NodeAnswer) (blockHash rawHex : JsString) :
    Except RequestError (Option ℕ) :=
  -- the request is put together inside the `try`, with the block hash it checks
  let fetched : Fetched NodeAnswer := match normalizeHex blockHash (js "block hash") with
    | .error err => .error err.message
    | .ok hash => fetch (js "0x" ++ hash)
  match fetched with
  | .error reason => .error (.publicData .network (js "node request failed: " ++ reason))
  | .ok response =>
    if response.ok = false then
      .error (.publicData .http (js "node answered HTTP " ++ decimal response.status))
    else do
      let body ← response.body.read (js "error")
      match body.error, body.extrinsics with
      | some message, _ => .error (.publicData .graphql message)
      | none, none => .error (.publicData .notFound (js "node does not know the block"))
      | none, some extrinsics =>
        match normalizeHex rawHex (js "raw transaction") with
        | .error err => .error (.uncaught err.message)
        | .ok needle =>
          .ok (extrinsics.findIdx? fun extrinsic : JsString => needle <:+: extrinsic.map asciiLower)

/-- The text is the hex of the bytes in any letter case, after `0x`. -/
def IsPrefixedHexOf (text : JsString) (bytes : Bytes) : Prop :=
  text.map asciiLower = js "0x" ++ bytesToHex bytes

/-- The least index of bytes that hold the raw bytes. -/
def firstHolding (raw : Bytes) (blocks : List Bytes) : Option ℕ :=
  blocks.findIdx? fun bytes => raw <:+: bytes

/-- Digits occur in a text with the prefix where they occur behind it. -/
lemma infix_prefixed_iff {raw bytes : Bytes} (hraw : raw ≠ []) :
    bytesToHex raw <:+: js "0x" ++ bytesToHex bytes ↔ bytesToHex raw <:+: bytesToHex bytes := by
  obtain ⟨r, rest, rfl⟩ := List.exists_cons_of_ne_nil hraw
  rw [bytesToHex_cons]
  constructor
  · intro h
    rw [show js "0x" ++ bytesToHex bytes =
      charUnit '0' :: charUnit 'x' :: bytesToHex bytes from rfl,
      List.infix_cons_iff, List.infix_cons_iff, List.cons_prefix_cons, List.cons_prefix_cons,
      List.cons_prefix_cons] at h
    -- the letter of the prefix is neither the first digit nor the second
    rcases h with hzero | hx | hbehind
    · exact absurd hzero.2.1 (hexUnit_ne_x _ (by omega))
    · exact absurd hx.1 (hexUnit_ne_x _ (by omega))
    · exact hbehind
  · intro h
    exact h.trans (List.suffix_append _ _).isInfix

/-- Two searches with one condition stronger than the other agree exactly when nothing before the
first that meets the stronger one meets the weaker. -/
lemma findIdx?_eq_iff {α : Type} {weak strong : α → Bool}
    (himp : ∀ a, strong a = true → weak a = true) (list : List α) :
    list.findIdx? weak = list.findIdx? strong ↔
      ∀ a ∈ list.takeWhile (fun a => !strong a), weak a = false := by
  induction list with
  | nil => simp
  | cons a list ih =>
    rw [List.findIdx?_cons, List.findIdx?_cons]
    cases hstrong : strong a with
    | true => simp [himp a hstrong, hstrong]
    | false =>
      cases hweak : weak a with
      | true => simp [hstrong, hweak]
      | false =>
        simp only [Bool.false_eq_true, if_false, List.takeWhile_cons, hstrong, Bool.not_false,
          if_true, List.forall_mem_cons, hweak, true_and]
        rw [← ih, Option.map_inj_right fun m n => Nat.succ.inj]

/-- A search through the texts is the search through their bytes. -/
lemma findIdx?_extrinsics {raw : Bytes} (hraw : raw ≠ []) {extrinsics : List JsString}
    {blocks : List Bytes} (hblocks : List.Forall₂ IsPrefixedHexOf extrinsics blocks) :
    (extrinsics.findIdx? fun extrinsic => bytesToHex raw <:+: extrinsic.map asciiLower) =
      blocks.findIdx? fun bytes => raw <:+: bytes ∨ OccursAtOddDigit raw bytes := by
  induction hblocks with
  | nil => rfl
  | cons hhead _ ih =>
    rw [List.findIdx?_cons, List.findIdx?_cons, ih]
    unfold IsPrefixedHexOf at hhead
    simp only [hhead, infix_prefixed_iff hraw, bytesToHex_infix_iff hraw]

/-- A node that knows the block is searched for the digits of the raw transaction. -/
lemma rawTransactionInBlock_of_answer {fetch : JsString → Fetched NodeAnswer}
    {blockHash rawHex hash : JsString} {extrinsics : List JsString} {raw : Bytes}
    (hhash : normalizeHex blockHash (js "block hash") = .ok hash)
    (hanswer : fetch (js "0x" ++ hash) = .ok ⟨200, .json ⟨none, some extrinsics⟩⟩)
    (hrawHex : IsHexOf rawHex raw) (hraw : raw ≠ []) :
    rawTransactionInBlock fetch blockHash rawHex =
      .ok (extrinsics.findIdx? fun extrinsic => bytesToHex raw <:+: extrinsic.map asciiLower) := by
  simp [rawTransactionInBlock, hhash, hanswer, normalizeHex_of_isHexOf hrawHex hraw, Response.ok,
    ResponseBody.read]

/-- **When the node check finds bytes.**  It returns the first extrinsic that holds the raw bytes,
or nothing if none does, exactly when no extrinsic before that one has their digits at an odd
place. -/
theorem rawTransactionInBlock_eq_iff {fetch : JsString → Fetched NodeAnswer}
    {blockHash rawHex hash : JsString} {extrinsics : List JsString} {blocks : List Bytes}
    {raw : Bytes} (hhash : normalizeHex blockHash (js "block hash") = .ok hash)
    (hanswer : fetch (js "0x" ++ hash) = .ok ⟨200, .json ⟨none, some extrinsics⟩⟩)
    (hblocks : List.Forall₂ IsPrefixedHexOf extrinsics blocks)
    (hrawHex : IsHexOf rawHex raw) (hraw : raw ≠ []) :
    rawTransactionInBlock fetch blockHash rawHex = .ok (firstHolding raw blocks) ↔
      ∀ bytes ∈ blocks.takeWhile (fun bytes => !decide (raw <:+: bytes)),
        ¬OccursAtOddDigit raw bytes := by
  rw [rawTransactionInBlock_of_answer hhash hanswer hrawHex hraw, findIdx?_extrinsics hraw hblocks,
    Except.ok.injEq, firstHolding, findIdx?_eq_iff]
  · apply forall₂_congr
    intro bytes hbytes
    have hnot : ¬raw <:+: bytes := by
      simpa using List.mem_takeWhile_imp hbytes
    simp [hnot]
  · intro bytes hholds
    simp_all

/-- The byte `12` is found in the second extrinsic of a block, as its digits do not lie across the
bytes of the first. -/
theorem rawTransactionInBlock_eq_iff_found :
    let fetch : JsString → Fetched NodeAnswer := fun _ =>
      .ok ⟨200, .json ⟨none, some [js "0x0001", js "0xAA12bb"]⟩⟩
    firstHolding [18] [[0, 1], [170, 18, 187]] = some 1 ∧
      rawTransactionInBlock fetch (js "ab") (js "0x12") = .ok (some 1) := by
  intro fetch
  have hhash : normalizeHex (js "ab") (js "block hash") = .ok (js "ab") := by rfl
  have hblocks : List.Forall₂ IsPrefixedHexOf [js "0x0001", js "0xAA12bb"]
      [[0, 1], [170, 18, 187]] := .cons (by rfl) (.cons (by rfl) .nil)
  have hfound : firstHolding [18] [[0, 1], [170, 18, 187]] = some 1 := by decide
  have hnot : ∀ bytes ∈ [[0, 1], [170, 18, 187]].takeWhile
      (fun bytes => !decide ([18] <:+: bytes)), ¬OccursAtOddDigit [18] bytes := by decide +kernel
  have hraw : rawTransactionInBlock fetch (js "ab") (js "0x12") =
      .ok (firstHolding [18] [[0, 1], [170, 18, 187]]) :=
    (rawTransactionInBlock_eq_iff hhash rfl hblocks (Or.inr (by rfl)) (by decide)).mpr hnot
  exact ⟨hfound, hraw.trans (congrArg Except.ok hfound)⟩

/-- The digits of the byte `12` lie across the bytes of `0x0120`: the check finds a transaction that
is not there. -/
theorem rawTransactionInBlock_across_bytes :
    let fetch : JsString → Fetched NodeAnswer := fun _ =>
      .ok ⟨200, .json ⟨none, some [js "0x0120"]⟩⟩
    rawTransactionInBlock fetch (js "ab") (js "12") = .ok (some 0) ∧
      IsPrefixedHexOf (js "0x0120") [1, 32] ∧ firstHolding [18] [[1, 32]] = none := by
  intro fetch
  exact ⟨by rfl, by rfl, by decide⟩

end MultiPartEvent
