import MultiPartEvent.Publisher.Parts
import MultiPartEvent.Reader.Level2

/-!
# The publisher's check of a package's intent

The guard looks only at a package's own intent, found by its segment, and throws on the first
violated rule.  `HoldsPackage` is what it accepts, in terms of the intent: one guaranteed-only
call of the circuit per part, each logging exactly the event of its part.
`assertPackageIntent_eq_ok_iff` is the connection; the order of the checks matters only for the
text of the error.
-/

namespace MultiPartEvent

/-- Everything a package's intent must contain, in order. -/
structure ExpectedPackage where
  network : JsString
  /-- Contract address. -/
  contract : JsString
  /-- The emitting circuit. -/
  entryPoint : JsString
  /-- The event name N. -/
  name : Bytes
  /-- Physical segment of the package's intent. -/
  segment : JsNumber
  /-- The parts in order. -/
  parts : List Bytes
  deriving DecidableEq

/-! ### The checks -/

/-- The one `Misc` value a guaranteed transcript logs. -/
def emittedValue (stage label : JsString) (guaranteed : Transcript) : Except JsError Bytes :=
  let fail := fun detail => JsError.packageCheckError stage (label ++ detail)
  match loggedEvents guaranteed.program with
  | .error err => .error (fail (js " transcript: " ++ err.message))
  | .ok [event] =>
    if event.typeCode ≠ miscEventTypeCode then .error (fail (js " logs a non-Misc event"))
    else
      match decodeMiscValue event.data with
      | .error err => .error (fail (js " transcript: " ++ err.message))
      | .ok value => .ok value
  | .ok events =>
    .error (fail (js " logs " ++ decimal events.length ++ js " events, expected 1"))

/-- Whether a value is the one of the expected part. -/
def isPartValue (name : Bytes) (part : Option Bytes) (value : Bytes) : Except JsError Bool :=
  match part with
  | none => .ok false
  | some part =>
    if part.length ≠ partLength then .ok false
    else do return bytesEqual value (← eventValue name part)

/-- The check of a guaranteed transcript against the expected part and the frozen one. -/
def assertTranscript (expected : ExpectedPackage) (stage : JsString)
    (frozen : Option (List Transcript)) (guaranteed : Transcript) (index : ℕ) :
    Except JsError Unit := do
  let label := js "call " ++ decimal (index + 1)
  let value ← emittedValue stage label guaranteed
  let emits ← isPartValue expected.name expected.parts[index]? value
  throwIf (emits = false) (.packageCheckError stage
    (label ++ js " emits bytes other than part " ++ decimal (index + 1)))
  throwIf (frozen.any (fun references => references[index]? ≠ some guaranteed))
    (.packageCheckError stage (label ++ js " guaranteed transcript changed since assembly"))

/-- The check of one action of the intent. -/
def assertAction (expected : ExpectedPackage) (stage : JsString)
    (frozen : Option (List Transcript)) (item : ContractAction × ℕ) : Except JsError Unit :=
  let label := js "call " ++ decimal (item.2 + 1)
  let fail := fun detail => JsError.packageCheckError stage (label ++ detail)
  match item.1 with
  | .other _ => .error (fail (js " is not a contract call"))
  | .call call => do
    throwIf (call.address ≠ expected.contract) (fail (js " targets another contract"))
    throwIf (entryPointText call.entryPoint ≠ expected.entryPoint)
      (fail (js " uses another entry point"))
    throwIf (call.fallibleTranscript ≠ none) (fail (js " has a fallible transcript"))
    match call.guaranteedTranscript with
    | none => .error (fail (js " has no guaranteed transcript"))
    | some guaranteed => assertTranscript expected stage frozen guaranteed item.2

/-- The segment of an expected package as a key of the intents. -/
def packageSegment (expected : ExpectedPackage) (stage : JsString) : Except JsError ℕ :=
  match expected.segment.inRange 1 65535 with
  | none => .error (.packageCheckError stage
      (js "package segment " ++ expected.segment.text ++ js " is not in 1..65535"))
  | some segment => .ok segment

/-- The intent at a package's segment. -/
def packageIntent (tx : Transaction) (stage : JsString) (segment : ℕ) : Except JsError Intent :=
  match tx.intents.get? segment with
  | none => .error (.packageCheckError stage
      (js "no intent at package segment " ++ decimal segment))
  | some intent => .ok intent

/-- Check one package's intent at one construction stage. -/
def assertPackageIntent (tx : Transaction) (expected : ExpectedPackage) (stage : JsString)
    (frozen : Option (List Transcript)) : Except JsError Unit := do
  let fail := fun detail => JsError.packageCheckError stage detail
  let count := expected.parts.length
  throwIf (count < 1) (fail (js "a package needs at least one part"))
  throwIf (expected.name.length ≠ nameLength) (fail (js "the event name is not 32 bytes"))
  let segment ← packageSegment expected stage
  let intent ← packageIntent tx stage segment
  throwIf (intent.actions.length ≠ count)
    (fail (js "the package intent has " ++ decimal intent.actions.length ++
      js " actions, expected " ++ decimal count))
  let _ ← intent.actions.zipIdx.mapM (assertAction expected stage frozen)
  throwIf (intent.guaranteedUnshieldedOffer ≠ none ∨ intent.fallibleUnshieldedOffer ≠ none)
    (fail (js "the package intent carries an unshielded offer"))
  throwIf (intent.dustActions ≠ none) (fail (js "the package intent carries DUST actions"))
  throwIf (tx.fallibleOffer.get? segment ≠ none)
    (fail (js "the package segment carries a fallible Zswap offer"))

/-- One package of the loop that refuses shared segments: the segments seen so far. -/
def addSegment (stage : JsString) (segments : List JsNumber) (pkg : ExpectedPackage) :
    Except JsError (List JsNumber) := do
  throwIf (pkg.segment ∈ segments) (.packageCheckError stage
    (js "packages share segment " ++ pkg.segment.text ++ js ": one intent per package"))
  return pkg.segment :: segments

/-- The stage an error of one package names. -/
def packageStage (stage : JsString) (count index : ℕ) : JsString :=
  if count = 1 then stage else stage ++ js " (package " ++ decimal (index + 1) ++ js ")"

/-- Check every package of a transaction at one stage. -/
def assertTransactionPackages (tx : Transaction) (expected : List ExpectedPackage)
    (stage : JsString) (frozen : Option (List (List Transcript))) : Except JsError Unit := do
  throwIf (expected.length = 0) (.packageCheckError stage (js "no package expected"))
  let _ ← expected.foldlM (addSegment stage) []
  let _ ← expected.zipIdx.mapM fun item =>
    assertPackageIntent tx item.1 (packageStage stage expected.length item.2)
      (frozen.bind fun references => references[item.2]?)

/-! ### What the checks accept -/

/-- A guaranteed transcript logs exactly one event, the `Misc` event of a value. -/
def Transcript.Emits (transcript : Transcript) (value : Bytes) : Prop :=
  ∃ data, loggedEvents transcript.program = .ok [⟨10, data⟩] ∧ decodeMiscValue data = .ok value

/-- An action is a guaranteed-only call of the expected circuit that logs exactly the event of
a part. -/
structure EmitsPart (expected : ExpectedPackage) (action : ContractAction) (part : Bytes)
    (call : ContractCall) (transcript : Transcript) : Prop where
  isCall : action = .call call
  contract : call.address = expected.contract
  entryPoint : entryPointText call.entryPoint = expected.entryPoint
  fallible : call.fallibleTranscript = none
  guaranteed : call.guaranteedTranscript = some transcript
  width : part.length = 256
  emits : transcript.Emits (expected.name ++ part)

/-- The intent holds the calls of a package, in part order, and nothing else. -/
structure Intent.Holds (intent : Intent) (expected : ExpectedPackage) : Prop where
  parts : expected.parts ≠ []
  name : expected.name.length = 32
  actions : List.Forall₂ (fun action part => ∃ call transcript,
    EmitsPart expected action part call transcript) intent.actions expected.parts
  offers : intent.guaranteedUnshieldedOffer = none ∧ intent.fallibleUnshieldedOffer = none
  dust : intent.dustActions = none

/-- The guaranteed transcript of an action, when it is a call that has one. -/
def ContractAction.guaranteed? (action : ContractAction) : Option Transcript :=
  action.call?.bind ContractCall.guaranteedTranscript

/-- The guaranteed transcripts of an intent's calls. -/
def Intent.transcripts (intent : Intent) : List Transcript :=
  intent.actions.filterMap ContractAction.guaranteed?

/-- The transaction holds the package at its segment, with the frozen transcripts if any are
given. -/
structure HoldsPackage (tx : Transaction) (expected : ExpectedPackage)
    (frozen : Option (List Transcript)) (segment : ℕ) (intent : Intent) : Prop where
  placed : expected.segment = .int segment ∧ 1 ≤ segment ∧ segment ≤ 65535
  found : tx.intents.get? segment = some intent
  holds : intent.Holds expected
  unchanged : ∀ references, frozen = some references → intent.transcripts <+: references
  offer : tx.fallibleOffer.get? segment = none

section Accept

variable {expected : ExpectedPackage} {stage : JsString} {frozen : Option (List Transcript)}

/-- The value of an emission is the one it logs. -/
lemma emittedValue_eq_ok_iff {label : JsString} {guaranteed : Transcript} {value : Bytes} :
    emittedValue stage label guaranteed = .ok value ↔ guaranteed.Emits value := by
  unfold emittedValue Transcript.Emits
  cases loggedEvents guaranteed.program with
  | error err => simp
  | ok events =>
    match events with
    | [] => simp
    | _ :: _ :: _ => simp
    | [event] =>
      obtain ⟨typeCode, data⟩ := event
      simp only [Except.ok.injEq, List.cons.injEq, LoggedEvent.mk.injEq, and_true]
      by_cases hmisc : typeCode = 10
      · have hcode : ¬typeCode ≠ miscEventTypeCode := by simpa [miscEventTypeCode] using hmisc
        rw [if_neg hcode]
        cases hdecode : decodeMiscValue data <;> simp [hmisc, hdecode]
      · have hcode : typeCode ≠ miscEventTypeCode := hmisc
        rw [if_pos hcode]
        simp [hmisc]

/-- A value is accepted for a part exactly when it is the name followed by the part. -/
lemma isPartValue_eq_ok_true_iff {name value : Bytes} {part : Option Bytes}
    (hname : name.length = 32) : isPartValue name part value = .ok true ↔
      ∃ p, part = some p ∧ p.length = 256 ∧ value = name ++ p := by
  cases part with
  | none => simp [isPartValue]
  | some p =>
    by_cases hwidth : p.length = 256
    · have hlength : ¬p.length ≠ partLength := by simpa using hwidth
      simp only [isPartValue, if_neg hlength, eventValue_ok hname hwidth, ok_bind, pure_eq_ok_iff,
        bytesEqual_iff]
      simp [hwidth]
    · simp [isPartValue, hwidth]

/-- The check of a transcript accepts exactly the emission of the part, unchanged. -/
lemma assertTranscript_eq_ok_iff (hname : expected.name.length = 32) {guaranteed : Transcript}
    {index : ℕ} : assertTranscript expected stage frozen guaranteed index = .ok () ↔
      (∃ part, expected.parts[index]? = some part ∧ part.length = 256 ∧
        guaranteed.Emits (expected.name ++ part)) ∧
      ∀ references, frozen = some references → references[index]? = some guaranteed := by
  have hfrozen : ¬(frozen.any (fun references => references[index]? ≠ some guaranteed) = true) ↔
      ∀ references, frozen = some references → references[index]? = some guaranteed := by
    cases frozen <;> simp
  simp only [assertTranscript, bind_eq_ok_iff, throwIf_eq_ok_iff, emittedValue_eq_ok_iff, hfrozen,
    Bool.not_eq_false]
  constructor
  · intro h
    obtain ⟨value, hvalue, emits, hemits, -, htrue, hunchanged⟩ := h
    rw [htrue, isPartValue_eq_ok_true_iff hname] at hemits
    obtain ⟨part, hpart, hwidth, rfl⟩ := hemits
    exact ⟨⟨part, hpart, hwidth, hvalue⟩, hunchanged⟩
  · intro h
    obtain ⟨⟨part, hpart, hwidth, hvalue⟩, hunchanged⟩ := h
    have hemits : isPartValue expected.name expected.parts[index]? (expected.name ++ part) =
        .ok true := (isPartValue_eq_ok_true_iff hname).mpr ⟨part, hpart, hwidth, rfl⟩
    exact ⟨_, hvalue, true, hemits, (), rfl, hunchanged⟩

/-- The check of an action accepts exactly the guaranteed-only emission of its part. -/
lemma assertAction_eq_ok_iff (hname : expected.name.length = 32) {action : ContractAction}
    {index : ℕ} : assertAction expected stage frozen (action, index) = .ok () ↔
      ∃ part call transcript, expected.parts[index]? = some part ∧
        EmitsPart expected action part call transcript ∧
        ∀ references, frozen = some references → references[index]? = some transcript := by
  cases action with
  | other content =>
    simp only [assertAction, reduceCtorEq, false_iff]
    intro h
    obtain ⟨_, call, _, -, hemits, -⟩ := h
    cases hemits.isCall
  | call call =>
    simp only [assertAction, bind_eq_ok_iff, throwIf_eq_ok_iff, ne_eq, not_not]
    constructor
    · intro h
      obtain ⟨-, hcontract, -, hentry, -, hfallible, h⟩ := h
      cases hguaranteed : call.guaranteedTranscript with
      | none => simp [hguaranteed] at h
      | some transcript =>
        rw [hguaranteed] at h
        obtain ⟨⟨part, hpart, hwidth, hemits⟩, hunchanged⟩ :=
          (assertTranscript_eq_ok_iff hname).mp h
        exact ⟨part, call, transcript, hpart,
          ⟨rfl, hcontract, hentry, hfallible, hguaranteed, hwidth, hemits⟩, hunchanged⟩
    · intro h
      obtain ⟨part, call', transcript, hpart, hemits, hunchanged⟩ := h
      have hcall : call = call' := ContractAction.call.inj hemits.isCall
      subst hcall
      refine ⟨(), hemits.contract, (), hemits.entryPoint, (), hemits.fallible, ?_⟩
      rw [hemits.guaranteed]
      exact (assertTranscript_eq_ok_iff hname).mpr
        ⟨⟨part, hpart, hemits.width, hemits.emits⟩, hunchanged⟩

/-- The transcript of an emission is the guaranteed transcript of its action. -/
lemma EmitsPart.guaranteed?_eq {action : ContractAction} {part : Bytes} {call : ContractCall}
    {transcript : Transcript} (h : EmitsPart expected action part call transcript) :
    action.guaranteed? = some transcript := by
  rw [h.isCall]
  exact h.guaranteed

/-- When every element has an image, the images are at the places of the elements. -/
lemma getElem?_filterMap_of_isSome {α β : Type*} {f : α → Option β} {l : List α}
    (h : ∀ a ∈ l, ∃ b, f a = some b) (i : ℕ) : (l.filterMap f)[i]? = l[i]?.bind f := by
  induction l generalizing i with
  | nil => simp
  | cons a l ih =>
    obtain ⟨⟨b, hb⟩, hrest⟩ := List.forall_mem_cons.mp h
    rw [List.filterMap_cons_some hb]
    cases i with
    | zero => simp [hb]
    | succ i => simpa using ih hrest i

/-- The loop over the actions accepts exactly when every action emits the part at its place and
the frozen transcripts, if any are given, start with the transcripts of the intent. -/
lemma assertActions_eq_ok_iff (hname : expected.name.length = 32) {intent : Intent}
    (hcount : intent.actions.length = expected.parts.length) :
    (∃ results, intent.actions.zipIdx.mapM (assertAction expected stage frozen) = .ok results) ↔
      List.Forall₂ (fun action part => ∃ call transcript,
        EmitsPart expected action part call transcript) intent.actions expected.parts ∧
        ∀ references, frozen = some references → intent.transcripts <+: references := by
  have hloop : (∃ results, intent.actions.zipIdx.mapM (assertAction expected stage frozen) =
      .ok results) ↔ ∀ (index : ℕ) action, intent.actions[index]? = some action →
        ∃ part call transcript, expected.parts[index]? = some part ∧
          EmitsPart expected action part call transcript ∧
          ∀ references, frozen = some references → references[index]? = some transcript := by
    rw [exists_mapM_eq_ok_iff]
    constructor
    · intro h index action haction
      exact (assertAction_eq_ok_iff hname).mp
        (h (action, index) (List.mk_mem_zipIdx_iff_getElem?.mpr haction))
    · intro h item hitem
      exact (assertAction_eq_ok_iff hname).mpr
        (h item.2 item.1 (List.mk_mem_zipIdx_iff_getElem?.mp hitem))
  rw [hloop, List.forall₂_iff_get]
  constructor
  · intro h
    refine ⟨⟨hcount, fun i hi hi' => ?_⟩, fun references hreferences => ?_⟩
    · obtain ⟨part, call, transcript, hpart, hemits, -⟩ := h i _ (List.getElem?_eq_getElem hi)
      rw [List.getElem?_eq_getElem hi', Option.some.injEq] at hpart
      exact ⟨call, transcript, by simpa [hpart] using hemits⟩
    · have hsome : ∀ action ∈ intent.actions, ∃ t, action.guaranteed? = some t := by
        intro action haction
        obtain ⟨i, hi⟩ := List.getElem?_of_mem haction
        obtain ⟨_, _, transcript, -, hemits, -⟩ := h i action hi
        exact ⟨transcript, hemits.guaranteed?_eq⟩
      rw [List.prefix_iff_getElem?]
      intro i hi
      have hget := getElem?_filterMap_of_isSome hsome i
      rw [← List.getElem?_eq_getElem hi, Intent.transcripts, hget]
      cases haction : intent.actions[i]? with
      | none =>
        rw [haction, Option.bind_none] at hget
        exact absurd hi (List.getElem?_eq_none_iff.mp hget).not_gt
      | some action =>
        obtain ⟨_, _, transcript, -, hemits, hunchanged⟩ := h i action haction
        rw [hunchanged references hreferences, Option.bind_some, hemits.guaranteed?_eq]
  · intro h index action haction
    obtain ⟨⟨-, hemits⟩, hunchanged⟩ := h
    obtain ⟨hi, rfl⟩ := List.getElem?_eq_some_iff.mp haction
    have hi' : index < expected.parts.length := hcount ▸ hi
    obtain ⟨call, transcript, hpart⟩ := hemits index hi hi'
    refine ⟨_, call, transcript, List.getElem?_eq_getElem hi', hpart, ?_⟩
    intro references hreferences
    have hsome : ∀ action ∈ intent.actions, ∃ t, action.guaranteed? = some t := by
      intro action haction
      obtain ⟨i, hi, rfl⟩ := List.getElem_of_mem haction
      obtain ⟨_, transcript, hother⟩ := hemits i hi (hcount ▸ hi)
      exact ⟨transcript, hother.guaranteed?_eq⟩
    have hget : intent.transcripts[index]? = some transcript := by
      rw [Intent.transcripts, getElem?_filterMap_of_isSome hsome, haction]
      exact hpart.guaranteed?_eq
    obtain ⟨hlt, hvalue⟩ := List.getElem?_eq_some_iff.mp hget
    rw [List.prefix_iff_getElem?.mp (hunchanged references hreferences) index hlt, hvalue]

/-- The segment of an expected package is accepted exactly in 1..65535. -/
lemma packageSegment_eq_ok_iff {segment : ℕ} : packageSegment expected stage = .ok segment ↔
    expected.segment = .int segment ∧ 1 ≤ segment ∧ segment ≤ 65535 := by
  rw [← JsNumber.inRange_eq_some, packageSegment]
  cases expected.segment.inRange 1 65535 <;> simp

/-- The intent of a package is the one at its segment. -/
lemma packageIntent_eq_ok_iff {tx : Transaction} {segment : ℕ} {intent : Intent} :
    packageIntent tx stage segment = .ok intent ↔ tx.intents.get? segment = some intent := by
  rw [packageIntent]
  cases tx.intents.get? segment <;> simp

/-- The loop over the segments accepts exactly distinct segments, none seen before. -/
lemma addSegments_eq_ok_iff {expected : List ExpectedPackage} {seen : List JsNumber} :
    (∃ segments, expected.foldlM (addSegment stage) seen = .ok segments) ↔
      (expected.map ExpectedPackage.segment).Nodup ∧ ∀ pkg ∈ expected, pkg.segment ∉ seen := by
  induction expected generalizing seen with
  | nil => simp
  | cons pkg expected ih =>
    have hstep : (∃ segments, (pkg :: expected).foldlM (addSegment stage) seen = .ok segments) ↔
        pkg.segment ∉ seen ∧
          ∃ segments, expected.foldlM (addSegment stage) (pkg.segment :: seen) = .ok segments := by
      simp only [List.foldlM_cons, addSegment, bind_eq_ok_iff, throwIf_eq_ok_iff, exists_const,
        pure_eq_ok_iff]
      constructor
      · intro h
        obtain ⟨segments, next, ⟨hfresh, rfl⟩, hrest⟩ := h
        exact ⟨hfresh, segments, hrest⟩
      · intro h
        obtain ⟨hfresh, segments, hrest⟩ := h
        exact ⟨segments, _, ⟨hfresh, rfl⟩, hrest⟩
    rw [hstep, ih, List.map_cons, List.nodup_cons, List.forall_mem_cons]
    simp only [List.mem_cons, not_or, List.mem_map, not_exists, not_and]
    constructor
    · intro h
      obtain ⟨hfresh, hnodup, hrest⟩ := h
      exact ⟨⟨fun other hother => (hrest other hother).1, hnodup⟩, hfresh,
        fun other hother => (hrest other hother).2⟩
    · intro h
      obtain ⟨⟨hdistinct, hnodup⟩, hfresh, hrest⟩ := h
      exact ⟨hfresh, hnodup, fun other hother => ⟨hdistinct other hother, hrest other hother⟩⟩

/-- **The guard accepts exactly the transactions that hold the package.** -/
theorem assertPackageIntent_eq_ok_iff {tx : Transaction} :
    assertPackageIntent tx expected stage frozen = .ok () ↔
      ∃ segment intent, HoldsPackage tx expected frozen segment intent := by
  simp only [assertPackageIntent, bind_eq_ok_iff, throwIf_eq_ok_iff, exists_const,
    ne_eq, not_not, not_or, not_lt, Nat.one_le_iff_ne_zero, List.length_eq_zero_iff]
  constructor
  · intro h
    obtain ⟨hparts, hname, segment, hsegment, intent, hintent, hcount, results, hactions, hoffers,
      hdust, hoffer⟩ := h
    obtain ⟨hemits, hunchanged⟩ := (assertActions_eq_ok_iff hname hcount).mp ⟨results, hactions⟩
    exact ⟨segment, intent, packageSegment_eq_ok_iff.mp hsegment,
      packageIntent_eq_ok_iff.mp hintent, ⟨hparts, hname, hemits, hoffers, hdust⟩, hunchanged,
        hoffer⟩
  · intro h
    obtain ⟨segment, intent, hplaced, hfound, hholds, hunchanged, hoffer⟩ := h
    have hcount : intent.actions.length = expected.parts.length := hholds.actions.length_eq
    obtain ⟨results, hactions⟩ :=
      (assertActions_eq_ok_iff hholds.name hcount).mpr ⟨hholds.actions, hunchanged⟩
    exact ⟨hholds.parts, hholds.name, segment, packageSegment_eq_ok_iff.mpr hplaced, intent,
      packageIntent_eq_ok_iff.mpr hfound, hcount, results, hactions, hholds.offers, hholds.dust,
      hoffer⟩

/-- **The guard accepts exactly the transactions that hold every package**, at pairwise distinct
segments. -/
theorem assertTransactionPackages_eq_ok_iff {tx : Transaction} {expected : List ExpectedPackage}
    {frozen : Option (List (List Transcript))} :
    assertTransactionPackages tx expected stage frozen = .ok () ↔
      expected ≠ [] ∧ (expected.map ExpectedPackage.segment).Nodup ∧
        ∀ (index : ℕ) pkg, expected[index]? = some pkg → ∃ segment intent,
          HoldsPackage tx pkg (frozen.bind fun references => references[index]?) segment
            intent := by
  have hloop : (∃ results, (expected.zipIdx.mapM fun item =>
      assertPackageIntent tx item.1 (packageStage stage expected.length item.2)
        (frozen.bind fun references => references[item.2]?)) = .ok results) ↔
      ∀ (index : ℕ) pkg, expected[index]? = some pkg → ∃ segment intent,
        HoldsPackage tx pkg (frozen.bind fun references => references[index]?) segment intent := by
    rw [exists_mapM_eq_ok_iff]
    constructor
    · intro h index pkg hpkg
      exact assertPackageIntent_eq_ok_iff.mp
        (h (pkg, index) (List.mk_mem_zipIdx_iff_getElem?.mpr hpkg))
    · intro h item hitem
      exact assertPackageIntent_eq_ok_iff.mpr
        (h item.2 item.1 (List.mk_mem_zipIdx_iff_getElem?.mp hitem))
  simp only [assertTransactionPackages, bind_eq_ok_iff, throwIf_eq_ok_iff, exists_const,
    List.length_eq_zero_iff, pure_eq_ok_iff]
  constructor
  · intro h
    obtain ⟨hne, segments, hsegments, results, hresults, -⟩ := h
    exact ⟨hne, (addSegments_eq_ok_iff.mp ⟨segments, hsegments⟩).1, hloop.mp ⟨results, hresults⟩⟩
  · intro h
    obtain ⟨hne, hnodup, hall⟩ := h
    have hfresh : ∃ segments, expected.foldlM (addSegment stage) [] = .ok segments :=
      addSegments_eq_ok_iff.mpr ⟨hnodup, by simp⟩
    obtain ⟨segments, hsegments⟩ := hfresh
    obtain ⟨results, hresults⟩ := hloop.mpr hall
    exact ⟨hne, segments, hsegments, results, hresults, trivial⟩

end Accept

end MultiPartEvent
