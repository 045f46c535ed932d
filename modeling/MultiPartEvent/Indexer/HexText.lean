import MultiPartEvent.Indexer.Paging
import MultiPartEvent.Reader.Bytes

/-!
# Hex in any letter case

The indexer and the node serve bytes as hex in either letter case, with or without `0x`.  A text is
the hex of some bytes when lower-casing it gives `bytesToHex` of them; strict decoding
(`hexToBytes`) and `normalizeHex` read exactly such texts.

The digits of a byte string occur in those of another where its bytes do, or across the bytes, at an
odd digit (`bytesToHex_infix_iff`).
-/

namespace MultiPartEvent

/-! ### One digit -/

/-- Lower-casing keeps the value of a digit. -/
lemma hexDigit?_asciiLower (u : CodeUnit) : hexDigit? (asciiLower u) = hexDigit? u := by
  unfold asciiLower
  split_ifs with hupper
  · have hval : (Fin.ofNat 65536 (u.val + 32) : CodeUnit).val = u.val + 32 :=
      Nat.mod_eq_of_lt (by omega)
    unfold hexDigit?
    rw [hval]
    split_ifs <;> simp_all <;> omega
  · rfl

/-- The code units of the digits. -/
lemma val_hexUnit : ∀ n < 16, (hexUnit n).val = if n < 10 then n + 48 else n + 87 := by decide

/-- Digits are in lower case. -/
lemma asciiLower_hexUnit : ∀ n < 16, asciiLower (hexUnit n) = hexUnit n := by decide

/-- A digit in lower case is the one written for its value. -/
lemma asciiLower_eq_hexUnit {u : CodeUnit} {n : ℕ} (h : hexDigit? u = some n) :
    n < 16 ∧ asciiLower u = hexUnit n := by
  unfold hexDigit? at h
  have hn : n < 16 := by
    split_ifs at h <;> rw [Option.some.injEq] at h <;> omega
  refine ⟨hn, Fin.ext ?_⟩
  rw [val_hexUnit n hn]
  unfold asciiLower
  split_ifs at h with hdigit hlower hupper
  · rw [Option.some.injEq] at h
    rw [if_neg (by omega), if_pos (by omega)]
    omega
  · rw [Option.some.injEq] at h
    rw [if_neg (by omega), if_neg (by omega)]
    omega
  · rw [Option.some.injEq] at h
    have hval : (Fin.ofNat 65536 (u.val + 32) : CodeUnit).val = u.val + 32 :=
      Nat.mod_eq_of_lt (by omega)
    rw [if_pos (by omega), if_neg (by omega), hval]
    omega

/-! ### The texts strict decoding accepts -/

/-- The hex of bytes is in lower case. -/
@[simp] lemma map_asciiLower_bytesToHex (bytes : Bytes) :
    (bytesToHex bytes).map asciiLower = bytesToHex bytes := by
  induction bytes with
  | nil => rfl
  | cons b bytes ih =>
    rw [bytesToHex_cons, List.map_cons, List.map_cons, ih, asciiLower_hexUnit _ (by omega),
      asciiLower_hexUnit _ (by omega)]

/-- Lower-casing a text keeps the bytes of its digit pairs. -/
lemma hexPairs_map_asciiLower (text : JsString) :
    hexPairs (text.map asciiLower) = hexPairs text := by
  induction text using hexPairs.induct with
  | case1 high low rest ih =>
    rw [List.map_cons, List.map_cons, hexPairs, hexPairs, hexDigit?_asciiLower,
      hexDigit?_asciiLower, ih]
  | case2 text hshort =>
    cases text with
    | nil => rfl
    | cons u rest =>
      cases rest with
      | nil => rfl
      | cons v rest => exact absurd rfl (hshort u v rest)

/-- Strict decoding does not look at the letter case. -/
lemma hexToBytes_map_asciiLower (text : JsString) :
    hexToBytes (text.map asciiLower) = hexToBytes text := by
  have hdigits : (text.map asciiLower).any (fun u => (hexDigit? u).isNone) =
      text.any (fun u => (hexDigit? u).isNone) := by
    rw [List.any_map]
    congr 1
    funext u
    rw [Function.comp_apply, hexDigit?_asciiLower]
  unfold hexToBytes
  rw [List.length_map, hdigits, hexPairs_map_asciiLower]

/-- A text of digit pairs is the hex of its bytes, up to the letter case. -/
lemma bytesToHex_hexPairs {text : JsString} (heven : text.length % 2 = 0)
    (hdigits : ∀ u ∈ text, (hexDigit? u).isSome = true) :
    bytesToHex (hexPairs text) = text.map asciiLower := by
  induction text using hexPairs.induct with
  | case1 high low rest ih =>
    obtain ⟨m, hm⟩ := Option.isSome_iff_exists.mp (hdigits high (by simp))
    obtain ⟨n, hn⟩ := Option.isSome_iff_exists.mp (hdigits low (by simp))
    obtain ⟨hm16, hhigh⟩ := asciiLower_eq_hexUnit hm
    obtain ⟨hn16, hlow⟩ := asciiLower_eq_hexUnit hn
    have hval : (Fin.ofNat 256 (m * 16 + n) : Byte).val = m * 16 + n := Nat.mod_eq_of_lt (by omega)
    rw [hexPairs, bytesToHex_cons, hm, hn, Option.getD_some, Option.getD_some, hval,
      List.map_cons, List.map_cons, hhigh, hlow, ih]
    · rw [show (m * 16 + n) / 16 = m by omega, show (m * 16 + n) % 16 = n by omega]
    · rw [List.length_cons, List.length_cons] at heven
      omega
    · intro u hu
      exact hdigits u (by simp [hu])
  | case2 text hshort =>
    cases text with
    | nil => rfl
    | cons u rest =>
      cases rest with
      | nil => exact absurd heven (by simp)
      | cons v rest => exact absurd rfl (hshort u v rest)

/-- **Strict decoding reads exactly the hex of the bytes, in any letter case.** -/
theorem hexToBytes_eq_ok_iff {text : JsString} {bytes : Bytes} :
    hexToBytes text = .ok bytes ↔ text.map asciiLower = bytesToHex bytes := by
  constructor
  · intro h
    unfold hexToBytes at h
    split_ifs at h with hodd hother
    cases h
    apply (bytesToHex_hexPairs (by omega) _).symm
    intro u hu
    rw [Bool.not_eq_true, List.any_eq_false] at hother
    have hdigit := hother u hu
    rwa [Bool.not_eq_true, Option.isNone_eq_false_iff] at hdigit
  · intro h
    rw [← hexToBytes_map_asciiLower, h, hexToBytes_bytesToHex]

/-! ### Texts with and without a prefix -/

/-- The text is hex of the bytes in any letter case, with `0x` before it or not. -/
def IsHexOf (text : JsString) (bytes : Bytes) : Prop :=
  text.map asciiLower = bytesToHex bytes ∨ text.map asciiLower = js "0x" ++ bytesToHex bytes

/-- A digit is not the letter of the prefix. -/
lemma hexUnit_ne_x : ∀ n < 16, hexUnit n ≠ charUnit 'x' := by decide

/-- The digits are in the list of digits. -/
lemma hexUnit_mem_hexDigits : ∀ n < 16, hexDigits.contains (hexUnit n) = true := by decide

/-- Only `0` is `0` in lower case. -/
lemma eq_zero_of_asciiLower {u : CodeUnit} (h : asciiLower u = charUnit '0') :
    u = charUnit '0' := by
  unfold asciiLower at h
  split_ifs at h with hupper
  · have hval := congrArg Fin.val h
    rw [show (Fin.ofNat 65536 (u.val + 32) : CodeUnit).val = u.val + 32 from
      Nat.mod_eq_of_lt (by omega), show (charUnit '0').val = 48 by decide] at hval
    omega
  · exact h

/-- What is left without the prefix is the hex of the bytes. -/
lemma map_asciiLower_dropHexPrefix {text : JsString} {bytes : Bytes} (h : IsHexOf text bytes) :
    (dropHexPrefix text).map asciiLower = bytesToHex bytes := by
  rcases h with hplain | hprefixed
  · unfold dropHexPrefix
    split
    next zero x rest =>
      rw [if_neg]
      · exact hplain
      · intro hprefix
        cases bytes with
        | nil => cases hplain
        | cons b bytes =>
          rw [bytesToHex_cons, List.map_cons, List.map_cons, List.cons.injEq,
            List.cons.injEq] at hplain
          exact hexUnit_ne_x _ (by omega) (hplain.2.1.symm.trans hprefix.2)
    next => exact hplain
  · obtain ⟨zero, x, rest, rfl⟩ : ∃ zero x rest, text = zero :: x :: rest := by
      rcases text with _ | ⟨zero, _ | ⟨x, rest⟩⟩
      · cases hprefixed
      · simp [js] at hprefixed
      · exact ⟨zero, x, rest, rfl⟩
    have hunits : asciiLower zero = charUnit '0' ∧ asciiLower x = charUnit 'x' ∧
        rest.map asciiLower = bytesToHex bytes := by
      simpa [js] using hprefixed
    rw [dropHexPrefix, if_pos ⟨eq_zero_of_asciiLower hunits.1, hunits.2.1⟩]
    exact hunits.2.2

/-- The hex of bytes has digits only. -/
lemma all_hexDigits_bytesToHex (bytes : Bytes) :
    (bytesToHex bytes).all (fun u => hexDigits.contains u) = true := by
  induction bytes with
  | nil => rfl
  | cons b bytes ih =>
    rw [bytesToHex_cons, List.all_cons, List.all_cons, hexUnit_mem_hexDigits _ (by omega),
      hexUnit_mem_hexDigits _ (by omega), ih]
    rfl

/-- Non-empty hex is normalized to the digits of its bytes. -/
lemma normalizeHex_of_isHexOf {text name : JsString} {bytes : Bytes} (h : IsHexOf text bytes)
    (hbytes : bytes ≠ []) : normalizeHex text name = .ok (bytesToHex bytes) := by
  have hpositive := List.length_pos_iff.mpr hbytes
  simp only [normalizeHex, map_asciiLower_dropHexPrefix h, length_bytesToHex]
  rw [if_pos ⟨all_hexDigits_bytesToHex bytes, by omega, by omega⟩]

/-! ### Where digits occur -/

/-- The digits of the bytes occur in those of the others at an odd digit, across the bytes. -/
def OccursAtOddDigit (raw bytes : Bytes) : Prop :=
  ∃ k, k < bytes.length ∧ bytesToHex raw <+: (bytesToHex bytes).drop (2 * k + 1)

instance decidableOccursAtOddDigit (raw bytes : Bytes) : Decidable (OccursAtOddDigit raw bytes) :=
  inferInstanceAs (Decidable (∃ k, k < bytes.length ∧ _))

/-- The hex of a part is the part of the hex. -/
lemma bytesToHex_drop (k : ℕ) (bytes : Bytes) :
    bytesToHex (bytes.drop k) = (bytesToHex bytes).drop (2 * k) := by
  induction k generalizing bytes with
  | zero => simp
  | succ k ih =>
    cases bytes with
    | nil => simp
    | cons b bytes =>
      rw [List.drop_succ_cons, ih, bytesToHex_cons, show 2 * (k + 1) = 2 * k + 1 + 1 by omega,
        List.drop_succ_cons, List.drop_succ_cons]

/-- Bytes begin with others exactly when their digits do. -/
lemma bytesToHex_prefix_iff {raw bytes : Bytes} :
    bytesToHex raw <+: bytesToHex bytes ↔ raw <+: bytes := by
  induction raw generalizing bytes with
  | nil => simp
  | cons r raw ih =>
    cases bytes with
    | nil => simp
    | cons b bytes =>
      rw [bytesToHex_cons, bytesToHex_cons, List.cons_prefix_cons, List.cons_prefix_cons,
        List.cons_prefix_cons, ih, hexUnit_inj _ (by omega) _ (by omega),
        hexUnit_inj _ (by omega) _ (by omega), Fin.ext_iff]
      constructor
      · intro h
        obtain ⟨hhigh, hlow, hrest⟩ := h
        exact ⟨by omega, hrest⟩
      · intro h
        obtain ⟨hbyte, hrest⟩ := h
        exact ⟨by omega, by omega, hrest⟩

/-- What occurs in a list begins it at some place. -/
lemma infix_iff_prefix_drop {α : Type} {part whole : List α} :
    part <:+: whole ↔ ∃ n, part <+: whole.drop n := by
  constructor
  · intro h
    obtain ⟨before, after, rfl⟩ := h
    refine ⟨before.length, after, ?_⟩
    rw [List.append_assoc, List.drop_left]
  · intro h
    obtain ⟨n, hprefix⟩ := h
    exact hprefix.isInfix.trans (List.drop_suffix n whole).isInfix

/-- **Where digits occur.**  The digits of some bytes occur in those of others exactly when the
bytes do, or their digits occur across the bytes. -/
theorem bytesToHex_infix_iff {raw bytes : Bytes} (hraw : raw ≠ []) :
    bytesToHex raw <:+: bytesToHex bytes ↔ raw <:+: bytes ∨ OccursAtOddDigit raw bytes := by
  rw [infix_iff_prefix_drop, infix_iff_prefix_drop]
  constructor
  · intro h
    obtain ⟨n, hprefix⟩ := h
    rcases Nat.even_or_odd' n with ⟨k, rfl | rfl⟩
    · left
      rw [← bytesToHex_drop, bytesToHex_prefix_iff] at hprefix
      exact ⟨k, hprefix⟩
    · right
      refine ⟨k, ?_, hprefix⟩
      have hlength := hprefix.length_le
      rw [List.length_drop, length_bytesToHex, length_bytesToHex] at hlength
      have := List.length_pos_iff.mpr hraw
      omega
  · intro h
    rcases h with ⟨k, hprefix⟩ | ⟨k, _, hprefix⟩
    · refine ⟨2 * k, ?_⟩
      rwa [← bytesToHex_drop, bytesToHex_prefix_iff]
    · exact ⟨2 * k + 1, hprefix⟩

end MultiPartEvent
