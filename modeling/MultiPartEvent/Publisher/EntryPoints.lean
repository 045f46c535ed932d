import MultiPartEvent.Js.Malformed
import MultiPartEvent.Publisher.Guard
import MultiPartEvent.Reader.Level2

/-!
# Which calls are calls of the emitting circuit

The publisher's guard and the placement check compare a call's entry point with the emitting
circuit as texts, and an entry point the ledger reports as bytes is decoded first.  The decoder
replaces what is not UTF-8 and drops a leading byte order mark, so calls of other circuits can be
taken for calls of the emitting one.  Both checks are exact for just the entry points that are read
apart from the circuit (`emitting_circuit_iff`).  The ledger reports as bytes what is not UTF-8, and
all such entry points are read apart from just the circuits without U+FFFD in their names.
-/

namespace MultiPartEvent

/-- The guard's refusal of a call of another circuit. -/
def entryPointError (stage : JsString) (index : ℕ) : JsError :=
  .packageCheckError stage (js "call " ++ decimal (index + 1) ++ js " uses another entry point")

/-- The guard takes the call for a call of the circuit: wherever it is checked for its own contract,
it is not refused as a call of another circuit. -/
def GuardTakes (call : ContractCall) (entryPoint : JsString) : Prop :=
  ∀ (expected : ExpectedPackage) (stage : JsString) (frozen : Option (List Transcript)) (index : ℕ),
    expected.contract = call.address → expected.entryPoint = entryPoint →
      assertAction expected stage frozen (.call call, index) ≠ .error (entryPointError stage index)

/-- The placement check takes calls with the reported entry point for calls of the circuit. -/
structure PlacementTakes (reported : EntryPoint) (circuit : JsString) : Prop where
  /-- Wherever such a call is not guaranteed-only, it is reported as a call of the circuit. -/
  issues : ∀ (tx : Transaction) (target : PlacementTarget) (segment : ℕ) (parts : List Bytes)
    (intent : Intent) (placed : PlacedCall) (issue : JsString) (issues : List JsString),
    target.entryPoint = circuit → tx.intents.get? segment = some intent →
      placed ∈ callsTo target.contract segment intent → placed.call.entryPoint = reported →
        callIssue circuit placed.summary = some issue →
          checkPlacement tx target segment parts = .ok issues → issue ∈ issues
  /-- Among guaranteed-only calls of the circuit, what such calls log under N are expected parts. -/
  expected : ∀ (tx : Transaction) (target : PlacementTarget) (name : Bytes) (segment : ℕ)
    (parts : List Bytes) (intent : Intent), target.entryPoint = circuit →
      eventName target.name = .ok name → tx.intents.get? segment = some intent →
        intent.Readable target.contract →
          (∀ call ∈ intent.callsOf target.contract,
            (call.entryPoint = reported ∨ call.entryPoint = .text circuit) ∧
              call.guaranteedTranscript ≠ none ∧ call.fallibleTranscript = none) →
            (checkPlacement tx target segment parts = .ok [] ↔
              parts = namedPayloads name (intent.emitted target.contract))

/-- The placement check takes calls with the reported entry point for calls of another circuit:
such calls need not be guaranteed-only, must not log N, and give no expected part. -/
def PlacementPasses (reported : EntryPoint) (circuit : JsString) : Prop :=
  ∀ (tx : Transaction) (target : PlacementTarget) (name : Bytes) (segment : ℕ)
    (parts : List Bytes) (intent : Intent), target.entryPoint = circuit →
      eventName target.name = .ok name → tx.intents.get? segment = some intent →
        intent.Readable target.contract →
          (∀ call ∈ intent.callsOf target.contract, call.entryPoint = reported) →
            (checkPlacement tx target segment parts = .ok [] ↔
              (∀ value ∈ intent.emitted target.contract, value.take 32 ≠ name) ∧ parts = [])

/-! ### The guard -/

/-- An error of the rules after the one about the entry point. -/
def LaterError (stage label : JsString) (err : JsError) : Prop :=
  (∃ detail, err = .packageCheckError stage (label ++ detail) ∧
    detail[1]? ≠ some (charUnit 'u')) ∨ ∃ message, err = .rangeError message

section Guard

variable {expected : ExpectedPackage} {stage label : JsString}
  {frozen : Option (List Transcript)} {guaranteed : Transcript} {index : ℕ} {err : JsError}

/-- Reading the emitted value throws later errors. -/
lemma laterError_of_emittedValue (h : emittedValue stage label guaranteed = .error err) :
    LaterError stage label err := by
  unfold emittedValue at h
  split at h
  · cases h
    exact Or.inl ⟨_, rfl, by simp [js, charUnit]⟩
  · split_ifs at h with hcode
    · cases h
      exact Or.inl ⟨_, rfl, by decide⟩
    · split at h
      · cases h
        exact Or.inl ⟨_, rfl, by simp [js, charUnit]⟩
      · cases h
  · cases h
    exact Or.inl ⟨_, rfl, by simp [js, charUnit]⟩

/-- Comparing the value with the part throws later errors. -/
lemma laterError_of_isPartValue {name value : Bytes} {part : Option Bytes}
    (h : isPartValue name part value = .error err) : LaterError stage label err := by
  cases part with
  | none => cases h
  | some part =>
    unfold isPartValue at h
    simp only at h
    split_ifs at h with hwidth
    rcases bind_eq_error_iff.mp h with hvalue | ⟨_, _, hpure⟩
    · unfold eventValue at hvalue
      split_ifs at hvalue
      · cases hvalue
        exact Or.inr ⟨_, rfl⟩
      · cases hvalue
        exact Or.inr ⟨_, rfl⟩
    · exact absurd hpure pure_ne_error

/-- The check of the transcript throws later errors. -/
lemma laterError_of_assertTranscript
    (h : assertTranscript expected stage frozen guaranteed index = .error err) :
    LaterError stage (js "call " ++ decimal (index + 1)) err := by
  unfold assertTranscript at h
  rcases bind_eq_error_iff.mp h with hvalue | ⟨value, _, h⟩
  · exact laterError_of_emittedValue hvalue
  rcases bind_eq_error_iff.mp h with hpart | ⟨emits, _, h⟩
  · exact laterError_of_isPartValue hpart
  rcases bind_eq_error_iff.mp h with hemits | ⟨_, _, h⟩
  · rw [throwIf_eq_error_iff] at hemits
    obtain ⟨_, rfl⟩ := hemits
    rw [List.append_assoc]
    exact Or.inl ⟨_, rfl, by simp [js, charUnit]⟩
  · rw [throwIf_eq_error_iff] at h
    obtain ⟨_, rfl⟩ := h
    exact Or.inl ⟨_, rfl, by decide⟩

/-- The refusal of another circuit is not a later error. -/
lemma not_laterError_entryPointError :
    ¬LaterError stage (js "call " ++ decimal (index + 1)) (entryPointError stage index) := by
  intro h
  rcases h with ⟨detail, herr, hdetail⟩ | ⟨message, herr⟩
  · have hsame : js " uses another entry point" = detail := by
      simpa [entryPointError] using herr
    rw [← hsame] at hdetail
    exact hdetail (by decide)
  · cases herr

/-- **The entry-point rule of the guard.**  A call of the contract is refused as a call of another
circuit exactly when its entry point, as text, is not the circuit. -/
lemma assertAction_eq_entryPointError_iff {call : ContractCall}
    (hcontract : expected.contract = call.address) :
    assertAction expected stage frozen (.call call, index) = .error (entryPointError stage index) ↔
      entryPointText call.entryPoint ≠ expected.entryPoint := by
  have hfirst : ¬call.address ≠ expected.contract := not_not.mpr hcontract.symm
  constructor
  · intro h hsame
    have hrule : ¬entryPointText call.entryPoint ≠ expected.entryPoint := not_not.mpr hsame
    apply @not_laterError_entryPointError stage index
    simp only [assertAction, throwIf, if_neg hfirst, if_neg hrule, ok_bind] at h
    rcases bind_eq_error_iff.mp h with hfallible | ⟨_, _, hrest⟩
    · split_ifs at hfallible
      rw [← Except.error.inj hfallible]
      exact Or.inl ⟨_, rfl, by decide⟩
    · cases hguaranteed : call.guaranteedTranscript with
      | none =>
        rw [hguaranteed] at hrest
        rw [← Except.error.inj hrest]
        exact Or.inl ⟨_, rfl, by decide⟩
      | some guaranteed =>
        rw [hguaranteed] at hrest
        exact laterError_of_assertTranscript hrest
  · intro hother
    simp only [assertAction, throwIf, if_neg hfirst, if_pos hother, ok_bind]
    rfl

end Guard

/-- The guard goes by the entry point as text. -/
lemma guardTakes_iff {call : ContractCall} {entryPoint : JsString} :
    GuardTakes call entryPoint ↔ entryPointText call.entryPoint = entryPoint := by
  constructor
  · intro h
    by_contra hother
    have hexpected := h ⟨[], call.address, entryPoint, [], .int 1, []⟩ [] none 0 rfl rfl
    exact hexpected ((assertAction_eq_entryPointError_iff rfl).mpr hother)
  · intro hsame expected stage frozen index hcontract hentry hrefused
    exact (assertAction_eq_entryPointError_iff hcontract).mp hrefused (hsame.trans hentry.symm)

/-! ### The placement check -/

section Placement

variable {tx : Transaction} {target : PlacementTarget} {name : Bytes} {segment : ℕ}
  {intent : Intent} {parts : List Bytes}

/-- The placement check of a package whose segment has an intent. -/
lemma checkPlacement_at (hname : eventName target.name = .ok name)
    (hintent : tx.intents.get? segment = some intent) :
    checkPlacement tx target segment parts =
      .ok (intentPlacement target name segment intent parts) := by
  rw [checkPlacement_eq, hname]
  simp only [Except.map, placementIssues, hintent]

/-- A clean check of a readable intent, in terms of its calls and what they log. -/
lemma checkPlacement_eq_nil_iff (hname : eventName target.name = .ok name)
    (hintent : tx.intents.get? segment = some intent)
    (hreadable : intent.Readable target.contract) :
    checkPlacement tx target segment parts = .ok [] ↔
      (∀ call ∈ intent.callsOf target.contract,
        entryPointText call.entryPoint = target.entryPoint →
          call.guaranteedTranscript ≠ none ∧ call.fallibleTranscript = none) ∧
      (∀ call ∈ intent.callsOf target.contract, ∀ kind, ∀ value ∈ call.values kind,
        value.take 32 = name → entryPointText call.entryPoint = target.entryPoint) ∧
      parts = namedPayloads name (intent.emitted target.contract) := by
  rw [checkPlacement_at hname hintent, Except.ok.injEq, intentPlacement_eq_nil_iff,
    intentIssues_eq_nil_iff, emitting_iff hreadable, map_value_intentParts hreadable,
    and_iff_right hreadable]
  refine and_congr_left fun _ => ?_
  exact forall_callsTo (p := fun call => entryPointText call.entryPoint = target.entryPoint →
    call.guaranteedTranscript ≠ none ∧ call.fallibleTranscript = none)

/-- A value an intent emits is a value of one of its calls. -/
lemma mem_emitted {value : Bytes} {contract : JsString} :
    value ∈ intent.emitted contract ↔
      ∃ call ∈ intent.callsOf contract, ∃ kind, value ∈ call.values kind := by
  simp only [Intent.emitted, List.mem_append, List.mem_flatMap]
  constructor
  · intro h
    rcases h with ⟨call, hcall, hvalue⟩ | ⟨call, hcall, hvalue⟩
    exacts [⟨call, hcall, _, hvalue⟩, ⟨call, hcall, _, hvalue⟩]
  · intro h
    obtain ⟨call, hcall, kind, hvalue⟩ := h
    cases kind with
    | guaranteed => exact Or.inl ⟨call, hcall, hvalue⟩
    | fallible => exact Or.inr ⟨call, hcall, hvalue⟩

/-- A call of the circuit that is not guaranteed-only is reported. -/
lemma mem_checkPlacement {placed : PlacedCall} {issue : JsString} {issues : List JsString}
    (hintent : tx.intents.get? segment = some intent)
    (hplaced : placed ∈ callsTo target.contract segment intent)
    (hentry : entryPointText placed.call.entryPoint = target.entryPoint)
    (hissue : callIssue target.entryPoint placed.summary = some issue)
    (h : checkPlacement tx target segment parts = .ok issues) : issue ∈ issues := by
  obtain ⟨name, hname⟩ : ∃ name, eventName target.name = .ok name := by
    cases hname : eventName target.name with
    | ok name => exact ⟨name, rfl⟩
    | error err =>
      rw [checkPlacement_eq, hname] at h
      cases h
  rw [checkPlacement_at hname hintent, Except.ok.injEq] at h
  have hemitting : placed.summary ∈
      ((callsTo target.contract segment intent).map PlacedCall.summary).filter
        (fun call => call.entryPoint == target.entryPoint) := by
    refine List.mem_filter.mpr ⟨List.mem_map_of_mem hplaced, ?_⟩
    rw [beq_iff_eq, ← hentry]
    rfl
  rw [← h, intentPlacement]
  refine List.mem_append_left _ (List.mem_append_left _ (List.mem_append_right _ ?_))
  exact List.mem_filterMap.mpr ⟨_, hemitting, hissue⟩

end Placement

/-- An intent of one call of the contract `aa`, without transcripts. -/
def bareIntent (reported : EntryPoint) : Intent :=
  ⟨[.call ⟨js "aa", reported, none, none⟩], none, none, none, fun _ => []⟩

/-- A transaction with a bare intent at segment 1. -/
def bareTransaction (reported : EntryPoint) : Transaction where
  intents := InsertionMap.empty.set 1 (bareIntent reported)
  fallibleOffer := .empty
  ownHash := none
  identifiers := []
  serialize := []

section Bare

variable {reported : EntryPoint} {circuit : JsString}

/-- The intent of a bare transaction. -/
lemma get?_bareTransaction (reported : EntryPoint) :
    (bareTransaction reported).intents.get? 1 = some (bareIntent reported) := by
  rw [bareTransaction, InsertionMap.get?_set, if_pos rfl]

/-- The only call of a bare intent. -/
lemma callsOf_bareIntent (reported : EntryPoint) :
    (bareIntent reported).callsOf (js "aa") = [⟨js "aa", reported, none, none⟩] := by
  simp [Intent.callsOf, bareIntent, ContractAction.call?]

/-- A bare intent logs nothing. -/
lemma emitted_bareIntent (reported : EntryPoint) :
    (bareIntent reported).emitted (js "aa") = [] := by
  rw [Intent.emitted, callsOf_bareIntent]
  rfl

/-- A bare intent has no transcript to be read. -/
lemma readable_bareIntent (reported : EntryPoint) :
    (bareIntent reported).Readable (js "aa") := by
  intro call hcall kind transcript htranscript
  rw [callsOf_bareIntent, List.mem_singleton] at hcall
  subst hcall
  cases kind <;> cases htranscript

/-- The placement check of a bare transaction is clean exactly when its call is one of another
circuit. -/
lemma checkPlacement_bare :
    checkPlacement (bareTransaction reported) ⟨js "aa", circuit, .bytes (List.replicate 32 0)⟩ 1
      [] = .ok [] ↔ entryPointText reported ≠ circuit := by
  have hname : eventName (.bytes (List.replicate 32 0)) = .ok (List.replicate 32 0) := rfl
  rw [checkPlacement_eq_nil_iff hname (get?_bareTransaction reported)
    (readable_bareIntent reported), callsOf_bareIntent, emitted_bareIntent]
  simp only [List.forall_mem_singleton, ne_eq, not_true_eq_false, false_and, imp_false]
  refine and_iff_left ⟨?_, rfl⟩
  intro kind value hvalue
  cases kind <;> cases hvalue

/-- The placement check goes by the entry point as text. -/
lemma placementTakes_iff : PlacementTakes reported circuit ↔ entryPointText reported = circuit := by
  constructor
  · intro h
    by_contra hother
    have hplaced : (⟨1, 0, ⟨js "aa", reported, none, none⟩⟩ : PlacedCall) ∈
        callsTo (js "aa") 1 (bareIntent reported) := by
      simp [callsTo, bareIntent, ContractAction.call?]
    have hmem := h.issues _ _ 1 [] _ _ _ [] rfl (get?_bareTransaction reported) hplaced rfl rfl
      (checkPlacement_bare.mpr hother)
    cases hmem
  · intro hsame
    constructor
    · intro tx target segment parts intent placed issue issues htarget hintent hplaced hreported
        hissue hissues
      subst htarget
      rw [← hreported] at hsame
      exact mem_checkPlacement hintent hplaced hsame hissue hissues
    · intro tx target name segment parts intent htarget hname hintent hreadable hcalls
      subst htarget
      have hcircuit : ∀ call ∈ intent.callsOf target.contract,
          entryPointText call.entryPoint = target.entryPoint := by
        intro call hcall
        rcases (hcalls call hcall).1 with hreported | htext
        · rw [hreported, hsame]
        · rw [htext]
          rfl
      rw [checkPlacement_eq_nil_iff hname hintent hreadable]
      refine ⟨fun h => h.2.2, fun hparts => ⟨?_, ?_, hparts⟩⟩
      · exact fun call hcall _ => (hcalls call hcall).2
      · exact fun call hcall _ _ _ _ => hcircuit call hcall

/-- A call is passed over when its entry point, as text, is not the circuit. -/
lemma placementPasses_iff :
    PlacementPasses reported circuit ↔ entryPointText reported ≠ circuit := by
  constructor
  · intro h
    apply checkPlacement_bare.mp
    refine (h _ _ (List.replicate 32 0) 1 [] (bareIntent reported) rfl rfl
      (get?_bareTransaction reported) (readable_bareIntent reported) ?_).mpr ⟨?_, rfl⟩
    · intro call hcall
      rw [callsOf_bareIntent, List.mem_singleton] at hcall
      rw [hcall]
    · rw [emitted_bareIntent]
      nofun
  · intro hother tx target name segment parts intent htarget hname hintent hreadable hcalls
    subst htarget
    have hcircuit : ∀ call ∈ intent.callsOf target.contract,
        entryPointText call.entryPoint ≠ target.entryPoint := by
      intro call hcall
      rw [hcalls call hcall]
      exact hother
    rw [checkPlacement_eq_nil_iff hname hintent hreadable]
    constructor
    · intro h
      obtain ⟨-, hlogged, hparts⟩ := h
      have hnone : ∀ value ∈ intent.emitted target.contract, value.take 32 ≠ name := by
        intro value hvalue hvalueName
        obtain ⟨call, hcall, kind, hcallValue⟩ := mem_emitted.mp hvalue
        exact hcircuit call hcall (hlogged call hcall kind value hcallValue hvalueName)
      exact ⟨hnone, hparts.trans (namedPayloads_eq_nil hnone)⟩
    · intro h
      obtain ⟨hnone, rfl⟩ := h
      refine ⟨fun call hcall hentry => absurd hentry (hcircuit call hcall), ?_,
        (namedPayloads_eq_nil hnone).symm⟩
      intro call hcall kind value hvalue hvalueName
      exact absurd hvalueName (hnone value (mem_emitted.mpr ⟨call, hcall, kind, hvalue⟩))

end Bare

/-! ### Only the emitting circuit -/

/-- **When only the emitting circuit counts as the emitting circuit.**  For a call whose entry point
is reported as bytes, the guard and the placement check take it for a call of the circuit if and
only if the bytes encode the circuit's name, and for one of another circuit otherwise, exactly when
the bytes are read apart from the name.  Of such calls no two with different bytes are taken for the
same circuit.  The entry points that are not UTF-8 are all read apart from just the names without
U+FFFD. -/
theorem emitting_circuit_iff (address : JsString) (guaranteed fallible : Option Transcript)
    {circuit : JsString} (hcircuit : Paired circuit) :
    (∀ bytes, (GuardTakes ⟨address, .bytes bytes, guaranteed, fallible⟩ circuit ↔
          bytes = textEncode circuit) ∧
        (PlacementTakes (.bytes bytes) circuit ↔ bytes = textEncode circuit) ∧
        (PlacementPasses (.bytes bytes) circuit ↔ bytes ≠ textEncode circuit) ↔
      ReadApart bytes circuit) ∧
    (∀ bytes bytes', ReadApart bytes circuit → ReadApart bytes' circuit →
      GuardTakes ⟨address, .bytes bytes, guaranteed, fallible⟩ circuit ∨
        PlacementTakes (.bytes bytes) circuit →
      GuardTakes ⟨address, .bytes bytes', guaranteed, fallible⟩ circuit ∨
        PlacementTakes (.bytes bytes') circuit → bytes = bytes') ∧
    ((∀ bytes, ¬IsUtf8 bytes → ReadApart bytes circuit) ↔
      replacementUnit ∉ circuit) := by
  have hguard : ∀ bytes, GuardTakes ⟨address, .bytes bytes, guaranteed, fallible⟩ circuit ↔
      textDecode bytes = circuit := fun _ => guardTakes_iff
  have hplacement : ∀ bytes, PlacementTakes (.bytes bytes) circuit ↔ textDecode bytes = circuit :=
    fun _ => placementTakes_iff
  have hpasses : ∀ bytes, PlacementPasses (.bytes bytes) circuit ↔ textDecode bytes ≠ circuit :=
    fun _ => placementPasses_iff
  refine ⟨?_, ?_, forall_readApart_iff hcircuit⟩
  · intro bytes
    rw [hguard, hplacement, hpasses, ne_eq, ne_eq, not_iff_not, and_self_iff, and_self_iff]
    exact textDecode_eq_iff_iff bytes hcircuit
  · intro bytes bytes' hapart hapart' htaken htaken'
    rw [hguard, hplacement, or_self_iff] at htaken htaken'
    rw [((textDecode_eq_iff_iff bytes hcircuit).mpr hapart).mp htaken]
    exact (((textDecode_eq_iff_iff bytes' hcircuit).mpr hapart').mp htaken').symm

/-- The bytes 65 FF are no UTF-8 and no call of `emitPart`, as which they are not taken. -/
theorem emitting_circuit_iff_malformed :
    ¬GuardTakes ⟨js "aa", .bytes [0x65, 0xFF], none, none⟩ (js "emitPart") ∧
      PlacementPasses (.bytes [0x65, 0xFF]) (js "emitPart") := by
  have hpaired : Paired (js "emitPart") := paired_literal (by decide)
  have hexact := emitting_circuit_iff (js "aa") none none hpaired
  have hapart : ReadApart [0x65, 0xFF] (js "emitPart") :=
    hexact.2.2.mpr (by decide) _ (textDecodeFatal_eq_none_iff.mp (by decide))
  obtain ⟨hguard, -, hpasses⟩ := (hexact.1 [0x65, 0xFF]).mpr hapart
  exact ⟨fun h => absurd (hguard.mp h) (by decide), hpasses.mpr (by decide)⟩

/-- The calls with the entry points 65 FF and 65 FE, which are no UTF-8, are both taken for calls of
the circuit whose name is `e` and U+FFFD, which neither encodes. -/
theorem emitting_circuit_confused :
    let circuit : JsString := [0x65, 0xFFFD]
    let first : ContractCall := ⟨js "aa", .bytes [0x65, 0xFF], none, none⟩
    let second : ContractCall := ⟨js "aa", .bytes [0x65, 0xFE], none, none⟩
    ¬IsUtf8 [0x65, 0xFF] ∧ ¬IsUtf8 [0x65, 0xFE] ∧
      GuardTakes first circuit ∧ PlacementTakes first.entryPoint circuit ∧
      GuardTakes second circuit ∧ PlacementTakes second.entryPoint circuit ∧
      first.entryPoint ≠ second.entryPoint ∧ textEncode circuit = [0x65, 0xEF, 0xBF, 0xBD] := by
  simp only [guardTakes_iff, placementTakes_iff, ← textDecodeFatal_eq_none_iff]
  exact ⟨by decide, by decide, by decide, by decide, by decide, by decide, by decide, by decide⟩

end MultiPartEvent
