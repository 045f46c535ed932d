import MultiPartEvent.Reader.Grouping
import MultiPartEvent.Reader.Transaction

/-!
# The activity of a contract, intent by intent

`contractActivity` walks every intent of a transaction.  Restricted to one segment it is the
activity of the intent at that segment and depends on nothing else: the calls and parts carry
their segment, and an issue starts with the text of its segment, which the placement check
tests as a prefix.  From these facts the placement check (`checkPlacement_eq`) and the reader
input (`numberParts_at`) of one segment are functions of the intent at that segment.
-/

namespace MultiPartEvent

/-! ### One intent -/

section Intent

variable {contract : JsString} {segment : ℕ} {intent : Intent}

/-- The calls of an intent carry its segment. -/
lemma segment_of_mem_callsTo {call : PlacedCall} (h : call ∈ callsTo contract segment intent) :
    call.segment = segment := by
  obtain ⟨item, -, hitem⟩ := List.mem_filterMap.mp h
  obtain ⟨c, -, hcall⟩ := Option.bind_eq_some_iff.mp hitem
  split_ifs at hcall
  cases hcall
  rfl

/-- The parts of a call carry its segment, action, entry point and transcript. -/
lemma mem_parts {call : PlacedCall} {kind : TranscriptKind} {part : LoggedPart}
    (h : part ∈ call.parts kind) :
    part.segment = call.segment ∧ part.actionIndex = call.actionIndex ∧
      part.entryPoint = call.entryPoint ∧ part.transcript = kind := by
  obtain ⟨value, -, rfl⟩ := List.mem_map.mp h
  exact ⟨rfl, rfl, rfl, rfl⟩

/-- The parts of an intent are those of the transcripts of its calls. -/
lemma mem_intentParts {part : LoggedPart} :
    part ∈ intentParts contract segment intent ↔
      ∃ call ∈ callsTo contract segment intent, ∃ kind, part ∈ call.parts kind := by
  simp only [intentParts, List.mem_append, List.mem_flatMap]
  constructor
  · rintro (⟨call, hcall, hpart⟩ | ⟨call, hcall, hpart⟩)
    exacts [⟨call, hcall, _, hpart⟩, ⟨call, hcall, _, hpart⟩]
  · rintro ⟨call, hcall, kind, hpart⟩
    cases kind
    · exact Or.inl ⟨call, hcall, hpart⟩
    · exact Or.inr ⟨call, hcall, hpart⟩

/-- The parts of an intent carry its segment. -/
lemma segment_of_mem_intentParts {part : LoggedPart}
    (h : part ∈ intentParts contract segment intent) : part.segment = segment := by
  obtain ⟨call, hcall, kind, hpart⟩ := mem_intentParts.mp h
  rw [(mem_parts hpart).1, segment_of_mem_callsTo hcall]

/-- The issues of an intent start with the text of its segment. -/
lemma exists_of_mem_intentIssues {issue : JsString}
    (h : issue ∈ intentIssues contract segment intent) :
    ∃ rest, issue = js "segment " ++ decimal segment ++ js " " ++ rest := by
  simp only [intentIssues, List.mem_flatMap, List.mem_append] at h
  obtain ⟨call, hcall, hissue⟩ := h
  obtain ⟨kind, hissue⟩ : ∃ kind, issue ∈ call.issues kind := hissue.elim (⟨_, ·⟩) (⟨_, ·⟩)
  obtain ⟨err, -, rfl⟩ := List.mem_map.mp hissue
  have hspace : js " call " = js " " ++ js "call " := by decide
  rw [segment_of_mem_callsTo hcall, hspace]
  simp only [List.append_assoc]
  exact ⟨_, rfl⟩

/-- The values a `Misc` event decodes to have their full width. -/
lemma length_decodeMiscValue {data : EncodedStateValue} {value : Bytes}
    (h : decodeMiscValue data = .ok value) : value.length = 288 := by
  simp only [decodeMiscValue, bind_eq_ok_iff, pure_eq_ok_iff] at h
  obtain ⟨atom, hatom, rfl⟩ := h
  unfold cellAtom at hatom
  split at hatom
  · rename_i length atoms
    split_ifs at hatom with hwidth
    split at hatom
    · split_ifs at hatom with hlong
      cases hatom
      simp only [Option.any_some, eventLength_eq, ne_eq, decide_eq_true_eq, not_not] at hwidth
      exact length_zeroExtend (by simp; omega)
    · cases hatom
  · cases hatom
  · cases hatom

/-- The `Misc` values of logged events have their full width. -/
lemma length_of_mem_miscValues {events : List LoggedEvent} {value : Bytes}
    (h : value ∈ (miscValues events).1) : value.length = 288 := by
  induction events with
  | nil => simp [miscValues] at h
  | cons event events ih =>
    unfold miscValues at h
    split_ifs at h with hmisc
    · exact ih h
    · split at h
      · simp at h
      · rename_i hdecode
        rcases List.mem_cons.mp h with rfl | h
        · exact length_decodeMiscValue hdecode
        · exact ih h

/-- The values read from a transcript have their full width. -/
lemma length_of_mem_transcriptValues {transcript : Option Transcript} {value : Bytes}
    (h : value ∈ (transcriptValues transcript).1) : value.length = 288 := by
  unfold transcriptValues at h
  split at h
  · simp at h
  · split at h
    · simp at h
    · exact length_of_mem_miscValues h

/-- The parts of an intent have their full width. -/
lemma length_of_mem_intentParts {part : LoggedPart}
    (h : part ∈ intentParts contract segment intent) : part.value.length = 288 := by
  obtain ⟨call, -, kind, hpart⟩ := mem_intentParts.mp h
  obtain ⟨value, hvalue, rfl⟩ := List.mem_map.mp hpart
  exact length_of_mem_transcriptValues hvalue

end Intent

/-! ### The walk over the intents -/

/-- A decimal text followed by a space is a prefix of another one exactly for equal numbers: a
segment is never taken for one that extends its digits. -/
lemma isPrefixOf_segment_iff (k s : ℕ) (rest : JsString) :
    (js "segment " ++ decimal k ++ js " ").isPrefixOf (js "segment " ++ decimal s ++ js " " ++ rest)
      = true ↔ s = k := by
  rw [List.isPrefixOf_iff_prefix]
  constructor
  · rintro ⟨tail, h⟩
    simp only [List.append_assoc, List.append_cancel_left_eq] at h
    have hdigits : ∀ n (t : JsString), (decimal n ++ (js " " ++ t)).takeWhile (fun u => u ≠ 32) =
        decimal n := by
      intro n t
      have hall : ∀ u ∈ decimal n, (u ≠ 32) := by
        rintro u hu rfl
        have hrange := mem_decimal hu
        revert hrange
        decide
      have hspace : js " " = [32] := by decide
      rw [List.takeWhile_append_of_pos (by simpa using hall), hspace]
      simp
    have hread := congrArg (List.takeWhile fun u : CodeUnit => u ≠ 32) h
    rw [hdigits, hdigits] at hread
    exact (decimal_injective hread).symm
  · rintro rfl
    exact ⟨rest, rfl⟩

variable (tx : Transaction) (contract : JsString) (segment : ℕ)

/-- The intents are walked in an order of the entries of the map. -/
lemma orderedIntents_perm : List.Perm (orderedIntents tx) tx.intents.entries :=
  sortBy_perm _ _

/-- The calls at a segment are those of the intent there. -/
theorem calls_at :
    (contractActivity tx contract).calls.filter (fun call => call.segment == segment) =
    (tx.intents.get? segment).toList.flatMap fun intent =>
      (callsTo contract segment intent).map PlacedCall.summary := by
  refine InsertionMap.filter_flatMap_entries (orderedIntents_perm tx) fun e summary hsummary => ?_
  obtain ⟨call, hcall, rfl⟩ := List.mem_map.mp hsummary
  simp [PlacedCall.summary, segment_of_mem_callsTo hcall]

/-- The parts at a segment are those of the intent there. -/
theorem parts_at :
    (contractActivity tx contract).parts.filter (fun part => part.segment == segment) =
    (tx.intents.get? segment).toList.flatMap (intentParts contract segment) := by
  refine InsertionMap.filter_flatMap_entries (orderedIntents_perm tx) fun e part hpart => ?_
  simp [segment_of_mem_intentParts hpart]

/-- The issues that start with the text of a segment are those of the intent there. -/
theorem issues_at : (contractActivity tx contract).issues.filter
      (fun issue => (js "segment " ++ decimal segment ++ js " ").isPrefixOf issue) =
    (tx.intents.get? segment).toList.flatMap (intentIssues contract segment) := by
  refine InsertionMap.filter_flatMap_entries (orderedIntents_perm tx) fun e issue hissue => ?_
  obtain ⟨rest, rfl⟩ := exists_of_mem_intentIssues hissue
  exact isPrefixOf_segment_iff segment e.1 rest

/-! ### The placement check of one intent -/

/-- The problems of a package's placement in the intent at its segment. -/
def intentPlacement (target : PlacementTarget) (name : Bytes) (segment : ℕ) (intent : Intent)
    (parts : List Bytes) : List JsString :=
  let named := (intentParts target.contract segment intent).filter
    (fun part => bytesEqual (part.value.take nameLength) name)
  intentIssues target.contract segment intent ++
    (((callsTo target.contract segment intent).map PlacedCall.summary).filter
      (fun call => call.entryPoint == target.entryPoint)).filterMap (callIssue target.entryPoint) ++
    ((named.filter (fun part => part.entryPoint ≠ target.entryPoint)).map fun part =>
      js "call " ++ decimal part.actionIndex ++ js " (" ++ part.entryPoint ++
        js ") also logs the name") ++
    partIssues target.entryPoint
      ((named.filter (fun part => part.entryPoint == target.entryPoint &&
        part.transcript == .guaranteed)).map fun part => part.value.drop nameLength) parts

/-- The problems of a package's placement in a transaction. -/
def placementIssues (tx : Transaction) (target : PlacementTarget) (name : Bytes) (segment : ℕ)
    (parts : List Bytes) : List JsString :=
  match tx.intents.get? segment with
  | none => [js "no intent at segment " ++ decimal segment]
  | some intent => intentPlacement target name segment intent parts

/-- The placement check reads the intent at the package's segment and nothing else. -/
theorem checkPlacement_eq (target : PlacementTarget) (parts : List Bytes) :
    checkPlacement tx target segment parts = (eventName target.name).map fun name =>
      placementIssues tx target name segment parts := by
  unfold checkPlacement
  cases eventName target.name with
  | error err => rfl
  | ok name =>
    rw [Except.map, placementIssues]
    cases hintent : tx.intents.get? segment with
    | none => rfl
    | some intent =>
      have hnamed : (contractActivity tx target.contract).parts.filter (fun part =>
          part.segment == segment && bytesEqual (part.value.take nameLength) name) =
          (intentParts target.contract segment intent).filter
            (fun part => bytesEqual (part.value.take nameLength) name) := by
        have hparts := parts_at tx target.contract segment
        rw [hintent, Option.toList_some, List.flatMap_singleton] at hparts
        rw [← hparts, List.filter_filter]
        exact List.filter_congr fun part _ => Bool.and_comm _ _
      simp only [ok_bind, Option.isNone_some, Bool.false_eq_true, if_false, issues_at, calls_at,
        hnamed, hintent, Option.toList_some, List.flatMap_singleton]
      rfl

/-! ### Numbering the parts -/

/-- The part event of a value at a position of a segment. -/
def numberedEvent (scope : TransactionScope) (segment : ℕ) (item : Bytes × ℕ) : PartEvent where
  network := scope.network
  contract := scope.contract
  transactionHash := scope.transactionHash
  segment := .int segment
  position := .int item.2
  value := item.1

/-- The part events of a segment are its parts, numbered in order. -/
theorem numberParts_at (scope : TransactionScope) (next : InsertionMap ℕ ℕ)
    (parts : List LoggedPart) :
    (numberParts scope next parts).filter (fun e => e.segment = .int segment) =
      (((parts.filter (fun part => part.segment == segment)).map LoggedPart.value).zipIdx
        ((next.get? segment).getD 0)).map (numberedEvent scope segment) := by
  induction parts generalizing next with
  | nil => rfl
  | cons part parts ih =>
    rw [numberParts, List.filter_cons, ih, InsertionMap.get?_set]
    by_cases hsegment : part.segment = segment
    · subst hsegment
      simp [numberedEvent]
    · have hne : JsNumber.int (part.segment : ℤ) ≠ .int segment := by
        rw [ne_eq, JsNumber.int.injEq]
        exact fun h => hsegment (Int.ofNat.inj h)
      simp [hsegment, hne, Ne.symm hsegment]

/-- Every part event of a list of parts is numbered at the segment of a part. -/
lemma mem_numberParts {scope : TransactionScope} {next : InsertionMap ℕ ℕ}
    {parts : List LoggedPart} {e : PartEvent} (h : e ∈ numberParts scope next parts) :
    ∃ part ∈ parts, e.network = scope.network ∧ e.contract = scope.contract ∧
      e.transactionHash = scope.transactionHash ∧ e.segment = .int part.segment ∧
        e.value = part.value := by
  induction parts generalizing next with
  | nil => cases h
  | cons part parts ih =>
    rw [numberParts] at h
    rcases List.mem_cons.mp h with rfl | h
    · exact ⟨part, List.mem_cons_self, rfl, rfl, rfl, rfl, rfl⟩
    · obtain ⟨part', hmem, hfields⟩ := ih h
      exact ⟨part', List.mem_cons_of_mem _ hmem, hfields⟩

/-- There is one part event for every part. -/
@[simp] lemma length_numberParts (scope : TransactionScope) (next : InsertionMap ℕ ℕ)
    (parts : List LoggedPart) : (numberParts scope next parts).length = parts.length := by
  induction parts generalizing next with
  | nil => rfl
  | cons part parts ih => rw [numberParts, List.length_cons, ih, List.length_cons]

/-- The values a transaction's intent at a segment logs, in emission order. -/
def valuesAt : List Bytes :=
  (tx.intents.get? segment).toList.flatMap fun intent =>
    (intentParts contract segment intent).map LoggedPart.value

/-- The reader input of a segment: the values of the intent there, numbered from 0. -/
theorem partEventsFromTransaction_at (scope : TransactionScope) :
    (partEventsFromTransaction tx scope).events.filter (fun e => e.segment = .int segment) =
      (valuesAt tx scope.contract segment).zipIdx.map (numberedEvent scope segment) := by
  have hvalues : valuesAt tx scope.contract segment =
      ((contractActivity tx scope.contract).parts.filter
        (fun part => part.segment == segment)).map LoggedPart.value := by
    rw [parts_at, List.map_flatMap]
    rfl
  rw [partEventsFromTransaction, numberParts_at, hvalues]
  rfl

end MultiPartEvent
