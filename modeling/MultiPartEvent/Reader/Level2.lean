import MultiPartEvent.Reader.Extraction

/-!
# What Level 2 verifies

The purpose of the placement check, in terms of the transaction alone: `Intent.Verifiable` says
that an intent of a contract holds a package of N emitted by guaranteed-only calls of one
circuit, and `Included` that the transaction is on chain under the hash it is reported with.
`verifyTransactionPackages_exact` connects them to the code: the verified packages are those of
the verifiable intents of an included transaction.
-/

namespace MultiPartEvent

/-! ### The values an intent logs -/

/-- The `Misc` values a transcript logs, in order, or `none` for an unreadable transcript. -/
def Transcript.miscValues? (transcript : Transcript) : Option (List Bytes) :=
  match loggedEvents transcript.program with
  | .error _ => none
  | .ok events =>
    ((events.filter (fun event => event.typeCode = 10)).mapM
      (fun event => decodeMiscValue event.data)).toOption

/-- One transcript of a call. -/
def ContractCall.transcript (call : ContractCall) : TranscriptKind → Option Transcript
  | .guaranteed => call.guaranteedTranscript
  | .fallible => call.fallibleTranscript

/-- The `Misc` values one transcript of a call logs. -/
def ContractCall.values (call : ContractCall) (kind : TranscriptKind) : List Bytes :=
  ((call.transcript kind).bind Transcript.miscValues?).getD []

/-- The calls of an intent to a contract, in sealed order. -/
def Intent.callsOf (intent : Intent) (contract : JsString) : List ContractCall :=
  (intent.actions.filterMap ContractAction.call?).filter (fun call => call.address = contract)

/-- The `Misc` values an intent's calls of a contract log, in emission order: the guaranteed
transcripts in sealed order, then the fallible ones. -/
def Intent.emitted (intent : Intent) (contract : JsString) : List Bytes :=
  (intent.callsOf contract).flatMap (fun call => call.values .guaranteed) ++
    (intent.callsOf contract).flatMap (fun call => call.values .fallible)

/-- Every transcript of the contract's calls in the intent can be read. -/
def Intent.Readable (intent : Intent) (contract : JsString) : Prop :=
  ∀ call ∈ intent.callsOf contract, ∀ kind transcript, call.transcript kind = some transcript →
    ∃ values, transcript.miscValues? = some values

/-- The intent holds a package of N of the contract, emitted by guaranteed-only calls of the
circuit and by nothing else. -/
structure Intent.Verifiable (intent : Intent) (target : PlacementTarget) (name : Bytes) : Prop where
  /-- The contract's calls log at least one value named N. -/
  logged : ∃ value ∈ intent.emitted target.contract, value.take 32 = name
  readable : intent.Readable target.contract
  /-- Every call of the circuit has a guaranteed transcript and no fallible one. -/
  guaranteedOnly : ∀ call ∈ intent.callsOf target.contract,
    entryPointText call.entryPoint = target.entryPoint →
      call.guaranteedTranscript ≠ none ∧ call.fallibleTranscript = none
  /-- Every value named N is logged by a call of the circuit. -/
  emitting : ∀ call ∈ intent.callsOf target.contract, ∀ kind, ∀ value ∈ call.values kind,
    value.take 32 = name → entryPointText call.entryPoint = target.entryPoint

/-- The transaction is included under the hash it is reported with. -/
structure Included (tx : Transaction) (options : VerifyTransactionOptions) : Prop where
  status : options.status = js "SUCCESS" ∨ options.status = js "PARTIAL_SUCCESS"
  /-- There is a hash that is not empty: the transaction's own, else the reported one. -/
  hash : ∃ h, (tx.ownHash.or options.transactionHash) = some h ∧ h ≠ []
  /-- The transaction's own hash is the reported one, when both are there. -/
  agrees : ∀ own reported, tx.ownHash = some own → options.transactionHash = some reported →
    own = reported

/-! ### The code's scan of a transcript -/

/-- The scan of logged events returns all `Misc` values exactly when they all decode. -/
lemma miscValues_eq_iff {events : List LoggedEvent} {values : List Bytes} :
    miscValues events = (values, none) ↔
      (events.filter (fun event => event.typeCode = 10)).mapM
        (fun event => decodeMiscValue event.data) = .ok values := by
  induction events generalizing values with
  | nil =>
    rw [miscValues, List.filter_nil, List.mapM_nil, pure_eq_ok_iff]
    simp
  | cons event events ih =>
    unfold miscValues
    by_cases hmisc : event.typeCode = 10
    · have hcode : ¬event.typeCode ≠ miscEventTypeCode := by simpa [miscEventTypeCode] using hmisc
      rw [if_neg hcode, List.filter_cons_of_pos (by simpa using hmisc), List.mapM_cons,
        bind_eq_ok_iff]
      cases hdecode : decodeMiscValue event.data with
      | error err => simp
      | ok value =>
        simp only [Prod.mk.injEq, Except.ok.injEq, exists_eq_left', bind_eq_ok_iff, pure_eq_ok_iff]
        constructor
        · intro h
          obtain ⟨hvalues, hnone⟩ := h
          have hrest : miscValues events = ((miscValues events).1, none) := by rw [← hnone]
          exact ⟨_, ih.mp hrest, hvalues⟩
        · intro h
          obtain ⟨rest, hrest, hvalues⟩ := h
          rw [ih.mpr hrest]
          exact ⟨hvalues, rfl⟩
    · have hcode : event.typeCode ≠ miscEventTypeCode := hmisc
      rw [if_pos hcode, List.filter_cons_of_neg (by simpa using hmisc), ih]

/-- A transcript is readable when its program is scanned and its `Misc` values all decode. -/
lemma miscValues?_eq_some_iff {transcript : Transcript} {values : List Bytes} :
    transcript.miscValues? = some values ↔
      ∃ events, loggedEvents transcript.program = .ok events ∧
        (events.filter (fun event => event.typeCode = 10)).mapM
          (fun event => decodeMiscValue event.data) = .ok values := by
  rw [Transcript.miscValues?]
  cases loggedEvents transcript.program with
  | error err => simp
  | ok events =>
    change Except.toOption _ = some values ↔ _
    cases hvalues : (events.filter (fun event => event.typeCode = 10)).mapM
      (fun event => decodeMiscValue event.data) <;> simp [Except.toOption, hvalues]

/-- The scan of a readable transcript returns its values, and no problem. -/
lemma transcriptValues_eq_iff {transcript : Transcript} {values : List Bytes} :
    transcriptValues (some transcript) = (values, none) ↔ transcript.miscValues? = some values := by
  rw [transcriptValues, miscValues?_eq_some_iff]
  cases loggedEvents transcript.program with
  | error err => simp
  | ok events =>
    simp only [Except.ok.injEq, exists_eq_left']
    exact miscValues_eq_iff

/-- The scan of a transcript reports nothing exactly when there is none or it can be read. -/
lemma transcriptValues_snd_eq_none_iff {transcript : Option Transcript} :
    (transcriptValues transcript).2 = none ↔
      ∀ t, transcript = some t → ∃ values, t.miscValues? = some values := by
  cases transcript with
  | none => simp [transcriptValues]
  | some t =>
    simp only [Option.some.injEq, forall_eq', ← transcriptValues_eq_iff]
    constructor
    · intro h
      exact ⟨(transcriptValues (some t)).1, by rw [← h]⟩
    · intro h
      obtain ⟨values, hvalues⟩ := h
      rw [hvalues]

/-- The scan of a transcript without problems returns its values. -/
lemma transcriptValues_fst {transcript : Option Transcript}
    (h : (transcriptValues transcript).2 = none) :
    (transcriptValues transcript).1 = (transcript.bind Transcript.miscValues?).getD [] := by
  cases transcript with
  | none => rfl
  | some t =>
    have hread : t.miscValues? = some (transcriptValues (some t)).1 :=
      transcriptValues_eq_iff.mp (by rw [← h])
    rw [Option.bind_some, hread, Option.getD_some]

/-! ### The code's walk over an intent -/

section Intent

variable {intent : Intent} {contract : JsString} {segment : ℕ}

/-- The calls the code walks over are the intent's calls to the contract. -/
lemma map_call_callsTo (contract : JsString) (segment : ℕ) (intent : Intent) :
    (callsTo contract segment intent).map PlacedCall.call = intent.callsOf contract := by
  have hindices : intent.actions.zipIdx.map Prod.fst = intent.actions := List.zipIdx_map_fst _ _
  have hcalls : (callsTo contract segment intent).map PlacedCall.call =
      (intent.actions.zipIdx.map Prod.fst).filterMap fun action =>
        action.call?.bind fun call => if call.address = contract then some call else none := by
    rw [callsTo, List.map_filterMap, List.filterMap_map]
    refine List.filterMap_congr fun item _ => ?_
    rw [Function.comp_apply]
    cases item.1.call? with
    | none => rfl
    | some call =>
      rw [Option.bind_some, Option.bind_some]
      by_cases hcall : call.address = contract <;> simp [hcall]
  rw [hcalls, hindices, Intent.callsOf, List.filter_filterMap]
  refine List.filterMap_congr fun action _ => ?_
  cases action.call? with
  | none => rfl
  | some call =>
    rw [Option.bind_some, Option.filter_some]
    by_cases hcall : call.address = contract <;> simp [hcall]

/-- A property of the placed calls is one of the intent's calls. -/
lemma forall_callsTo {p : ContractCall → Prop} :
    (∀ call ∈ callsTo contract segment intent, p call.call) ↔
      ∀ call ∈ intent.callsOf contract, p call := by
  rw [← map_call_callsTo contract segment intent, List.forall_mem_map]

/-- The code reports nothing for an intent exactly when it is readable. -/
lemma intentIssues_eq_nil_iff :
    intentIssues contract segment intent = [] ↔ intent.Readable contract := by
  have hissues : ∀ (call : PlacedCall) (kind : TranscriptKind), call.issues kind = [] ↔
      ∀ t, call.call.transcript kind = some t → ∃ values, t.miscValues? = some values := by
    intro call kind
    have hsame : call.transcript kind = call.call.transcript kind := by cases kind <;> rfl
    rw [← hsame, ← transcriptValues_snd_eq_none_iff, PlacedCall.issues, List.map_eq_nil_iff,
      Option.toList_eq_nil_iff]
  rw [intentIssues, List.flatMap_eq_nil_iff]
  simp only [List.append_eq_nil_iff, hissues]
  rw [forall_callsTo (p := fun call =>
    (∀ t, call.transcript .guaranteed = some t → ∃ values, t.miscValues? = some values) ∧
      ∀ t, call.transcript .fallible = some t → ∃ values, t.miscValues? = some values)]
  refine forall₂_congr fun call _ => ?_
  constructor
  · intro h kind
    cases kind
    exacts [h.1, h.2]
  · intro h
    exact ⟨h .guaranteed, h .fallible⟩

/-- The parts of a call of a readable intent carry the values of its transcripts. -/
lemma map_value_parts (h : intent.Readable contract) {call : PlacedCall}
    (hcall : call ∈ callsTo contract segment intent) (kind : TranscriptKind) :
    (call.parts kind).map LoggedPart.value = call.call.values kind := by
  have hsame : call.transcript kind = call.call.transcript kind := by cases kind <;> rfl
  have hmem : call.call ∈ intent.callsOf contract := by
    rw [← map_call_callsTo contract segment intent]
    exact List.mem_map_of_mem hcall
  have hread : (transcriptValues (call.call.transcript kind)).2 = none :=
    transcriptValues_snd_eq_none_iff.mpr fun t ht => h _ hmem kind t ht
  rw [PlacedCall.parts, List.map_map, hsame, ContractCall.values, ← transcriptValues_fst hread]
  exact List.map_id _

/-- The parts of a readable intent carry the values it emits. -/
lemma map_value_intentParts (h : intent.Readable contract) :
    (intentParts contract segment intent).map LoggedPart.value = intent.emitted contract := by
  have hkind : ∀ kind, ((callsTo contract segment intent).flatMap
      (fun call => call.parts kind)).map LoggedPart.value =
      (intent.callsOf contract).flatMap (fun call => call.values kind) := by
    intro kind
    rw [List.map_flatMap, ← map_call_callsTo contract segment intent, List.flatMap_map]
    exact List.flatMap_congr fun call hcall => map_value_parts h hcall kind
  rw [intentParts, List.map_append, hkind, hkind, Intent.emitted]

end Intent

/-! ### A clean placement -/

/-- The comparison of the parts reports nothing exactly for equal lists. -/
lemma partIssues_eq_nil_iff {entryPoint : JsString} {expected parts : List Bytes} :
    partIssues entryPoint expected parts = [] ↔ expected = parts := by
  unfold partIssues
  split_ifs with hlength
  · refine iff_of_false (by simp) fun h => ?_
    exact hlength (congrArg List.length h)
  · rw [not_not] at hlength
    rw [List.filterMap_eq_nil_iff]
    constructor
    · intro h
      refine List.ext_getElem hlength fun i hi hi' => ?_
      have hitem := h (expected[i], i) (List.mk_mem_zipIdx_iff_getElem?.mpr (by simp [hi]))
      by_contra hne
      have hequal : bytesEqual expected[i] parts[i] = false := by
        rw [Bool.eq_false_iff, ne_eq, bytesEqual_iff]
        exact hne
      simp [hi', hequal] at hitem
    · intro h
      subst h
      intro item hitem
      have hget := List.mk_mem_zipIdx_iff_getElem?.mp hitem
      have hequal : bytesEqual item.1 item.1 = true := bytesEqual_iff.mpr rfl
      simp [hget, hequal]

/-- A call raises nothing exactly when it is guaranteed-only. -/
lemma callIssue_eq_none_iff {entryPoint : JsString} {call : PlacedCall} :
    callIssue entryPoint call.summary = none ↔
      call.call.guaranteedTranscript ≠ none ∧ call.call.fallibleTranscript = none := by
  unfold callIssue PlacedCall.summary
  cases call.call.guaranteedTranscript <;> cases call.call.fallibleTranscript <;> simp

section Placement

variable {target : PlacementTarget} {name : Bytes} {segment : ℕ} {intent : Intent}
  {parts : List Bytes}

/-- The parts named N of an intent whose circuit is guaranteed-only and alone in logging N are
those the placement check compares. -/
lemma expected_eq_namedPayloads
    (hguaranteed : ∀ call ∈ callsTo target.contract segment intent,
      call.entryPoint = target.entryPoint →
        call.call.guaranteedTranscript ≠ none ∧ call.call.fallibleTranscript = none)
    (hemitting : ∀ part ∈ intentParts target.contract segment intent,
      part.value.take 32 = name → part.entryPoint = target.entryPoint) :
    (((intentParts target.contract segment intent).filter
        (fun part => bytesEqual (part.value.take nameLength) name)).filter
          (fun part => part.entryPoint == target.entryPoint && part.transcript == .guaranteed)).map
            (fun part => part.value.drop nameLength) =
      namedPayloads name ((intentParts target.contract segment intent).map LoggedPart.value) := by
  have hall : ∀ part ∈ (intentParts target.contract segment intent).filter
      (fun part => bytesEqual (part.value.take nameLength) name),
      (part.entryPoint == target.entryPoint && part.transcript == .guaranteed) = true := by
    intro part hpart
    obtain ⟨hpart, hname⟩ := List.mem_filter.mp hpart
    have hentry := hemitting part hpart (bytesEqual_iff.mp hname)
    obtain ⟨call, hcall, kind, hkind⟩ := mem_intentParts.mp hpart
    obtain ⟨-, -, hcallEntry, hkindEq⟩ := mem_parts hkind
    have hfallible := (hguaranteed call hcall (hcallEntry ▸ hentry)).2
    have hguaranteedKind : part.transcript = .guaranteed := by
      cases kind with
      | guaranteed => exact hkindEq
      | fallible =>
        simp [PlacedCall.parts, PlacedCall.transcript, hfallible, transcriptValues] at hkind
    simp [hentry, hguaranteedKind]
  have hvalues : ((intentParts target.contract segment intent).filter
      (fun part => bytesEqual (part.value.take nameLength) name)).map LoggedPart.value =
      named name ((intentParts target.contract segment intent).map LoggedPart.value) := by
    rw [named, List.filter_map]
    congr 1
    refine List.filter_congr fun part _ => ?_
    rw [Bool.eq_iff_iff, bytesEqual_iff]
    simp
  rw [List.filter_eq_self.mpr hall, namedPayloads, ← hvalues, List.map_map]
  rfl

/-- A placement is clean exactly when the intent is readable, its calls of the circuit are
guaranteed-only, no other circuit logs N, and the parts are the payloads named N in emission
order. -/
theorem intentPlacement_eq_nil_iff :
    intentPlacement target name segment intent parts = [] ↔
      intentIssues target.contract segment intent = [] ∧
        (∀ call ∈ callsTo target.contract segment intent, call.entryPoint = target.entryPoint →
          call.call.guaranteedTranscript ≠ none ∧ call.call.fallibleTranscript = none) ∧
        (∀ part ∈ intentParts target.contract segment intent,
          part.value.take 32 = name → part.entryPoint = target.entryPoint) ∧
        parts = namedPayloads name
          ((intentParts target.contract segment intent).map LoggedPart.value) := by
  have hcalls : (((callsTo target.contract segment intent).map PlacedCall.summary).filter
      (fun call => call.entryPoint == target.entryPoint)).filterMap
        (callIssue target.entryPoint) = [] ↔
      ∀ call ∈ callsTo target.contract segment intent, call.entryPoint = target.entryPoint →
        call.call.guaranteedTranscript ≠ none ∧ call.call.fallibleTranscript = none := by
    rw [List.filterMap_eq_nil_iff]
    simp only [List.mem_filter, List.mem_map, beq_iff_eq]
    constructor
    · intro h call hcall hentry
      exact callIssue_eq_none_iff.mp (h call.summary ⟨⟨call, hcall, rfl⟩, hentry⟩)
    · intro h summary hsummary
      obtain ⟨⟨call, hcall, rfl⟩, hentry⟩ := hsummary
      exact callIssue_eq_none_iff.mpr (h call hcall hentry)
  have hforeign : ((intentParts target.contract segment intent).filter
      (fun part => bytesEqual (part.value.take nameLength) name)).filter
        (fun part => part.entryPoint ≠ target.entryPoint) = [] ↔
      ∀ part ∈ intentParts target.contract segment intent,
        part.value.take 32 = name → part.entryPoint = target.entryPoint := by
    rw [List.filter_eq_nil_iff]
    simp only [List.mem_filter, bytesEqual_iff, and_imp, decide_eq_true_eq, not_not]
    exact Iff.rfl
  rw [intentPlacement]
  simp only [List.append_eq_nil_iff, List.map_eq_nil_iff, hcalls, hforeign, partIssues_eq_nil_iff,
    and_assoc]
  refine and_congr_right fun _ => and_congr_right fun hguaranteed => ?_
  refine and_congr_right fun hemitting => ?_
  rw [expected_eq_namedPayloads hguaranteed hemitting, eq_comm]

/-- The parts named N of an intent come from its calls' values named N. -/
lemma emitting_iff (h : intent.Readable target.contract) :
    (∀ part ∈ intentParts target.contract segment intent,
        part.value.take 32 = name → part.entryPoint = target.entryPoint) ↔
      ∀ call ∈ intent.callsOf target.contract, ∀ kind, ∀ value ∈ call.values kind,
        value.take 32 = name → entryPointText call.entryPoint = target.entryPoint := by
  have hcallsTo : (∀ call ∈ callsTo target.contract segment intent, ∀ kind,
      ∀ value ∈ call.call.values kind, value.take 32 = name → call.entryPoint = target.entryPoint) ↔
      ∀ call ∈ intent.callsOf target.contract, ∀ kind, ∀ value ∈ call.values kind,
        value.take 32 = name → entryPointText call.entryPoint = target.entryPoint :=
    forall_callsTo (p := fun call => ∀ kind, ∀ value ∈ call.values kind,
      value.take 32 = name → entryPointText call.entryPoint = target.entryPoint)
  rw [← hcallsTo]
  constructor
  · intro hparts call hcall kind value hvalue hname
    rw [← map_value_parts h hcall kind] at hvalue
    obtain ⟨part, hpart, rfl⟩ := List.mem_map.mp hvalue
    have hentry := hparts part (mem_intentParts.mpr ⟨call, hcall, kind, hpart⟩) hname
    rwa [(mem_parts hpart).2.2.1] at hentry
  · intro hcalls part hpart hname
    obtain ⟨call, hcall, kind, hkind⟩ := mem_intentParts.mp hpart
    have hvalue : part.value ∈ call.call.values kind := by
      rw [← map_value_parts h hcall kind]
      exact List.mem_map_of_mem hkind
    rw [(mem_parts hkind).2.2.1]
    exact hcalls call hcall kind part.value hvalue hname

/-- The package the reader finds at a segment is placed cleanly exactly when the intent there is
verifiable. -/
theorem intentPlacement_extracted_iff
    (hlogged : named name ((intentParts target.contract segment intent).map LoggedPart.value) ≠
      []) :
    intentPlacement target name segment intent
        (namedPayloads name ((intentParts target.contract segment intent).map LoggedPart.value)) =
          [] ↔
      intent.Verifiable target name := by
  rw [intentPlacement_eq_nil_iff, intentIssues_eq_nil_iff]
  constructor
  · intro h
    obtain ⟨hreadable, hguaranteed, hemitting, -⟩ := h
    rw [map_value_intentParts hreadable] at hlogged
    obtain ⟨value, hvalue⟩ := List.exists_mem_of_ne_nil _ hlogged
    obtain ⟨hvalue, hname⟩ := List.mem_filter.mp hvalue
    exact
      { logged := ⟨value, hvalue, by simpa using hname⟩
        readable := hreadable
        guaranteedOnly := (forall_callsTo (p := fun call =>
          entryPointText call.entryPoint = target.entryPoint →
            call.guaranteedTranscript ≠ none ∧ call.fallibleTranscript = none)).mp hguaranteed
        emitting := (emitting_iff hreadable).mp hemitting }
  · intro h
    refine ⟨h.readable, ?_, (emitting_iff h.readable).mpr h.emitting, rfl⟩
    exact (forall_callsTo (p := fun call => entryPointText call.entryPoint = target.entryPoint →
      call.guaranteedTranscript ≠ none ∧ call.fallibleTranscript = none)).mpr h.guaranteedOnly

end Placement

/-! ### Emissions -/

/-- The transcript of a call that logs one `Misc` value and nothing else. -/
def emissionTranscript (value : Bytes) : Transcript where
  program := [.push false (.array [.cell [.atom (.bytes 1)] [[1]], .cell [.atom (.bytes 1)] [[10]],
    .cell [.atom (.bytes 288)] [value]]), .named (js "log")]
  gas := []
  effects := []

/-- An intent of guaranteed-only calls of one circuit, one for each value. -/
def emissionIntent (contract entryPoint : JsString) (values : List Bytes) : Intent where
  actions := values.map fun value =>
    .call ⟨contract, .text entryPoint, some (emissionTranscript value), none⟩
  guaranteedUnshieldedOffer := none
  fallibleUnshieldedOffer := none
  dustActions := none
  intentHash := fun _ => []

/-- An emission logs one event, of type `Misc`. -/
lemma loggedEvents_emissionTranscript (value : Bytes) :
    loggedEvents (emissionTranscript value).program =
      .ok [⟨10, .cell [.atom (.bytes 288)] [value]⟩] := by
  have hpush : (Op.push false (.array [.cell [.atom (.bytes 1)] [[1]],
      .cell [.atom (.bytes 1)] [[10]], .cell [.atom (.bytes 288)] [value]]) = .named (js "log")) ↔
      False := by simp
  simp only [loggedEvents, emissionTranscript, loggedEventsAfter, hpush, if_false, if_true]
  rfl

/-- A value of an emission is read back at its full width. -/
lemma decodeMiscValue_emission {value : Bytes} (h : value.length ≤ 288) :
    decodeMiscValue (.cell [.atom (.bytes 288)] [value]) = .ok (zeroExtend 288 value) := by
  have hatom : cellAtom (.cell [.atom (.bytes 288)] [value]) (some 288) = .ok value := by
    simp [cellAtom, h]
  rw [decodeMiscValue, eventLength_eq, hatom]
  rfl

/-- The values of an emission. -/
lemma miscValues?_emissionTranscript {value : Bytes} (h : value.length ≤ 288) :
    (emissionTranscript value).miscValues? = some [zeroExtend 288 value] := by
  refine miscValues?_eq_some_iff.mpr ⟨_, loggedEvents_emissionTranscript value, ?_⟩
  have hmisc : ([⟨10, .cell [.atom (.bytes 288)] [value]⟩] : List LoggedEvent).filter
      (fun event => event.typeCode = 10) = [⟨10, .cell [.atom (.bytes 288)] [value]⟩] := rfl
  simp only [hmisc, List.mapM_cons, List.mapM_nil, decodeMiscValue_emission h]
  rfl

section Emissions

variable {contract entryPoint : JsString} {values : List Bytes}

/-- The calls of an intent of emissions. -/
lemma callsOf_emissionIntent : (emissionIntent contract entryPoint values).callsOf contract =
    values.map fun value => ⟨contract, .text entryPoint, some (emissionTranscript value),
      none⟩ := by
  have hcalls : (values.map fun value => ContractAction.call
      ⟨contract, .text entryPoint, some (emissionTranscript value), none⟩).filterMap
        ContractAction.call? =
      values.map fun value => ⟨contract, .text entryPoint, some (emissionTranscript value),
        none⟩ := by
    rw [List.filterMap_map, ← List.filterMap_eq_map]
    rfl
  rw [Intent.callsOf, emissionIntent, hcalls, List.filter_eq_self]
  intro call hcall
  obtain ⟨value, -, rfl⟩ := List.mem_map.mp hcall
  simp

/-- What a call of an intent of emissions logs. -/
lemma values_emission {value : Bytes} (h : value.length ≤ 288) (kind : TranscriptKind) :
    (ContractCall.mk contract (.text entryPoint) (some (emissionTranscript value)) none).values
      kind = if kind = .guaranteed then [zeroExtend 288 value] else [] := by
  cases kind with
  | guaranteed =>
    rw [ContractCall.values, ContractCall.transcript, Option.bind_some,
      miscValues?_emissionTranscript h]
    rfl
  | fallible => rfl

/-- An intent of emissions emits its values. -/
theorem emitted_emissionIntent (hvalues : ∀ value ∈ values, value.length ≤ 288) :
    (emissionIntent contract entryPoint values).emitted contract =
      values.map (zeroExtend 288) := by
  have hkind : ∀ kind, (values.map fun value => ContractCall.mk contract (.text entryPoint)
      (some (emissionTranscript value)) none).flatMap (fun call => call.values kind) =
      values.flatMap fun value => if kind = .guaranteed then [zeroExtend 288 value] else [] := by
    intro kind
    rw [List.flatMap_map]
    exact List.flatMap_congr fun value hvalue => values_emission (hvalues value hvalue) kind
  rw [Intent.emitted, callsOf_emissionIntent, hkind, hkind]
  simp [← List.map_eq_flatMap]

/-- An intent of emissions of values named N is verifiable. -/
theorem verifiable_emissionIntent {target : PlacementTarget} {name : Bytes}
    (hne : values ≠ []) (hvalues : ∀ value ∈ values, value.length = 288 ∧ value.take 32 = name) :
    (emissionIntent target.contract target.entryPoint values).Verifiable target name := by
  have hwidth : ∀ value ∈ values, value.length ≤ 288 := fun value hvalue =>
    (hvalues value hvalue).1.le
  refine ⟨?_, ?_, ?_, ?_⟩
  · obtain ⟨value, hvalue⟩ := List.exists_mem_of_ne_nil _ hne
    have hmem : zeroExtend 288 value ∈ values.map (zeroExtend 288) := List.mem_map_of_mem hvalue
    rw [zeroExtend_of_length_eq (hvalues value hvalue).1] at hmem
    rw [emitted_emissionIntent hwidth]
    exact ⟨value, hmem, (hvalues value hvalue).2⟩
  · intro call hcall kind transcript htranscript
    rw [callsOf_emissionIntent] at hcall
    obtain ⟨value, hvalue, rfl⟩ := List.mem_map.mp hcall
    cases kind with
    | guaranteed =>
      cases htranscript
      exact ⟨_, miscValues?_emissionTranscript (hwidth value hvalue)⟩
    | fallible => cases htranscript
  · intro call hcall _
    rw [callsOf_emissionIntent] at hcall
    obtain ⟨value, -, rfl⟩ := List.mem_map.mp hcall
    simp
  · intro call hcall _ _ _ _
    rw [callsOf_emissionIntent] at hcall
    obtain ⟨value, -, rfl⟩ := List.mem_map.mp hcall
    rfl

end Emissions

end MultiPartEvent
