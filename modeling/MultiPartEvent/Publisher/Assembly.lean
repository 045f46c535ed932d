import MultiPartEvent.Publisher.Compose

/-!
# One intent per package, whatever segments are drawn

`AddsCalls` is what the program relies on of `addCalls`: it puts the calls into a new intent at
the drawn segment, or appends them to the intent that is there.  The redraw loop then stops at
the first draw that is free (`addGuaranteedIntentLoop_cases`), and the loop over the packages
keeps the invariant `Assembled`: the segments of the transaction are those of the packages so
far, each with the calls of its own request.  `buildPackagesTransaction_one_intent_each` reads
the result off the invariant.
-/

namespace MultiPartEvent

/-- A segment holds an intent of exactly the given calls, after those that were there before;
no other segment is touched. -/
structure IntentAdded (IsCall : PrePartitionCall → ContractCall → Prop) (tx : Transaction)
    (calls : List PrePartitionCall) (earlier : List ContractAction) (segment : ℕ)
    (next : Transaction) : Prop where
  holds : ∃ intent added, next.intents.get? segment = some intent ∧
    intent.actions = earlier ++ added ∧
    List.Forall₂ (fun call action => ∃ c, action = ContractAction.call c ∧
      IsCall call c) calls added
  others : ∀ s, s ≠ segment → next.intents.get? s = tx.intents.get? s

/-- What `addCalls` does for the segment it draws; `IsCall` relates a call before and after its
transcript is partitioned. -/
structure AddsCalls (env : AssemblyEnv) (IsCall : PrePartitionCall → ContractCall → Prop) :
    Prop where
  /-- A segment without an intent receives a new one. -/
  fresh : ∀ tx calls parameters ttl segment, tx.intents.get? segment = none →
    ∃ next, env.addCalls tx calls parameters ttl segment = .ok next ∧
      IntentAdded IsCall tx calls [] segment next
  /-- The calls are appended to an intent that is there. -/
  taken : ∀ tx calls parameters ttl segment intent, tx.intents.get? segment = some intent →
    ∃ next, env.addCalls tx calls parameters ttl segment = .ok next ∧
      IntentAdded IsCall tx calls intent.actions segment next

/-- A draw the loop accepts: not 0, and no intent there. -/
def Usable (tx : Transaction) (segment : ℕ) : Prop :=
  segment ≠ 0 ∧ tx.intents.get? segment = none

instance (tx : Transaction) (segment : ℕ) : Decidable (Usable tx segment) :=
  inferInstanceAs (Decidable (segment ≠ 0 ∧ tx.intents.get? segment = none))

section Redraw

variable {IsCall : PrePartitionCall → ContractCall → Prop} {tx next : Transaction}
  {calls : List PrePartitionCall} {earlier : List ContractAction} {segment : ℕ}

/-- The keys after adding an intent are those before and its segment. -/
lemma IntentAdded.mem_keys_iff (h : IntentAdded IsCall tx calls earlier segment next) {s : ℕ} :
    s ∈ next.intents.keys ↔ s = segment ∨ s ∈ tx.intents.keys := by
  by_cases hs : s = segment
  · obtain ⟨intent, _, hintent, -, -⟩ := h.holds
    subst hs
    exact iff_of_true (InsertionMap.mem_keys_iff.mpr ⟨intent, hintent⟩) (Or.inl rfl)
  · rw [InsertionMap.mem_keys_iff, h.others s hs, ← InsertionMap.mem_keys_iff]
    simp [hs]

/-- A new intent is noticed unless its segment is 0. -/
lemma freshSegment_of_fresh (h : IntentAdded IsCall tx calls earlier segment next)
    (hfree : tx.intents.get? segment = none) :
    freshSegment tx next = if segment ≠ 0 then some segment else none := by
  have hnew : segment ∉ tx.intents.keys := InsertionMap.get?_eq_none_iff.mp hfree
  have hadded : addedSegments tx next = [segment] := by
    rw [← List.perm_singleton, addedSegments,
      List.perm_ext_iff_of_nodup (next.intents.nodup_keys.filter _) (List.nodup_singleton _)]
    intro s
    rw [List.mem_filter, h.mem_keys_iff, List.mem_singleton, decide_eq_true_eq]
    constructor
    · intro hs
      exact hs.1.resolve_right hs.2
    · intro hs
      exact ⟨Or.inl hs, hs ▸ hnew⟩
  simp only [freshSegment, hadded]

/-- Calls that went into an intent that was there are noticed. -/
lemma freshSegment_of_taken (h : IntentAdded IsCall tx calls earlier segment next)
    (htaken : segment ∈ tx.intents.keys) : freshSegment tx next = none := by
  have hadded : addedSegments tx next = [] := by
    rw [addedSegments, List.filter_eq_nil_iff]
    intro s hs
    rw [h.mem_keys_iff] at hs
    rcases hs with rfl | hs
    · simp [htaken]
    · simp [hs]
  simp only [freshSegment, hadded]

/-- One draw: it is accepted exactly when it is usable, and then the calls form an intent of
their own. -/
lemma addCalls_draw {env : AssemblyEnv} (hadd : AddsCalls env IsCall) (tx : Transaction)
    (calls : List PrePartitionCall) (parameters : Opaque) (ttl : JsDate) (segment : ℕ) :
    ∃ next, env.addCalls tx calls parameters ttl segment = .ok next ∧
      freshSegment tx next = (if Usable tx segment then some segment else none) ∧
      (Usable tx segment → IntentAdded IsCall tx calls [] segment next) := by
  cases hget : tx.intents.get? segment with
  | none =>
    obtain ⟨next, hnext, hadded⟩ := hadd.fresh tx calls parameters ttl segment hget
    refine ⟨next, hnext, ?_, fun _ => hadded⟩
    rw [freshSegment_of_fresh hadded hget]
    simp [Usable, hget]
  | some intent =>
    obtain ⟨next, hnext, hadded⟩ := hadd.taken tx calls parameters ttl segment intent hget
    have htaken : segment ∈ tx.intents.keys := InsertionMap.mem_keys_iff.mpr ⟨intent, hget⟩
    have hunusable : ¬Usable tx segment := by simp [Usable, hget]
    refine ⟨next, hnext, ?_, fun h => absurd h hunusable⟩
    rw [freshSegment_of_taken hadded htaken, if_neg hunusable]

/-- **The redraw loop stops at the first usable draw**, and throws when none of its draws is
usable.  The draws it looks at start at `first`. -/
theorem addGuaranteedIntentLoop_cases {env : AssemblyEnv} (hadd : AddsCalls env IsCall)
    (tx : Transaction) {calls : ℕ → Except JsError (List PrePartitionCall)}
    (hcalls : ∀ draw, ∃ cs, calls draw = .ok cs) (parameters : Opaque) (ttl : JsDate)
    (maxAttempts drawn remaining attempts first : ℕ) (hfirst : drawn + (attempts - 1) = first)
    (hattempts : 1 ≤ attempts) :
    ((∀ k < remaining, ¬Usable tx (env.draws (first + k))) ∧ ∃ err,
      addGuaranteedIntentLoop env tx calls parameters ttl maxAttempts drawn remaining attempts =
        .error err) ∨
    ∃ k < remaining, (∀ j < k, ¬Usable tx (env.draws (first + j))) ∧
      Usable tx (env.draws (first + k)) ∧ ∃ next cs,
        addGuaranteedIntentLoop env tx calls parameters ttl maxAttempts drawn remaining attempts =
          .ok ⟨next, env.draws (first + k), attempts + k⟩ ∧
        calls (first + k) = .ok cs ∧ IntentAdded IsCall tx cs [] (env.draws (first + k)) next := by
  induction remaining generalizing attempts first with
  | zero => exact Or.inl ⟨fun k hk => absurd hk (Nat.not_lt_zero k), _, rfl⟩
  | succ remaining ih =>
    obtain ⟨cs, hcs⟩ := hcalls first
    obtain ⟨next, hnext, hsegment, hadded⟩ :=
      addCalls_draw hadd tx cs parameters ttl (env.draws first)
    by_cases husable : Usable tx (env.draws first)
    · refine Or.inr ⟨0, Nat.succ_pos _, fun j hj => absurd hj (Nat.not_lt_zero j), husable, next,
        cs, ?_, hcs, hadded husable⟩
      simp only [addGuaranteedIntentLoop, hfirst, hcs, ok_bind, hnext, hsegment, if_pos husable]
      rfl
    · -- the draw is not usable: the loop goes on with the next one
      have hstep : addGuaranteedIntentLoop env tx calls parameters ttl maxAttempts drawn
          (remaining + 1) attempts = addGuaranteedIntentLoop env tx calls parameters ttl maxAttempts
            drawn remaining (attempts + 1) := by
        simp only [addGuaranteedIntentLoop, hfirst, hcs, ok_bind, hnext, hsegment, if_neg husable]
      have hshift : ∀ k, first + 1 + k = first + (k + 1) := fun k => by omega
      have hnone : ∀ j : ℕ, (∀ i < j, ¬Usable tx (env.draws (first + 1 + i))) →
          ∀ i < j + 1, ¬Usable tx (env.draws (first + i)) := by
        intro j hrest i hi
        cases i with
        | zero => exact husable
        | succ i => exact hshift i ▸ hrest i (Nat.lt_of_succ_lt_succ hi)
      rw [hstep]
      rcases ih (attempts + 1) (first + 1) (by omega) (by omega) with
        ⟨hall, hthrows⟩ | ⟨k, hk, hbefore, hfound, next', cs', hloop, hcs', hadded'⟩
      · exact Or.inl ⟨hnone remaining hall, hthrows⟩
      · refine Or.inr ⟨k + 1, Nat.succ_lt_succ hk, hnone k hbefore, hshift k ▸ hfound, next', cs',
          ?_, hshift k ▸ hcs', hshift k ▸ hadded'⟩
        rw [hloop, hshift, Nat.add_assoc, Nat.add_comm 1 k]

end Redraw

/-! ### One execution per part -/

/-- The results of one execution of the circuit for a value: one trace, no other contract and no
shielded coins touched, and one `Misc` event of the contract with the value. -/
structure IsExecution (results : CircuitResults) (value : Bytes) (contract entryPoint : JsString)
    (trace : CallProofData) : Prop where
  traces : results.callProofDataTrace = [trace]
  target : trace.contractAddress = contract
  circuit : trace.circuitId = entryPoint
  crossContract : trace.commCommData = none
  shielded : (trace.zswapLocalState.inputs.map List.length).getD 0 = 0 ∧
    (trace.zswapLocalState.outputs.map List.length).getD 0 = 0
  event : ∃ data, results.events = [⟨contract, js "misc", data⟩] ∧ decodeMiscValue data = .ok value

/-- The check of an execution accepts exactly an execution for the expected value. -/
lemma checkExecution_eq_ok_iff {results : CircuitResults} {value : Bytes}
    {contract entryPoint label : JsString} {trace : CallProofData} :
    checkExecution results value contract entryPoint label = .ok trace ↔
      IsExecution results value contract entryPoint trace := by
  obtain ⟨traces, events⟩ := results
  match traces, events with
  | [], _ => exact iff_of_false (by simp [checkExecution]) fun h => by cases h.traces
  | _ :: _ :: _, _ => exact iff_of_false (by simp [checkExecution]) fun h => by cases h.traces
  | [_], [] =>
    refine iff_of_false (by simp [checkExecution, bind_eq_ok_iff]) fun h => ?_
    obtain ⟨_, hevents, -⟩ := h.event
    cases hevents
  | [_], _ :: _ :: _ =>
    refine iff_of_false (by simp [checkExecution, bind_eq_ok_iff]) fun h => ?_
    obtain ⟨_, hevents, -⟩ := h.event
    cases hevents
  | [trace'], [event] =>
    obtain ⟨address, eventType, data⟩ := event
    simp only [checkExecution, bind_eq_ok_iff, throwIf_eq_ok_iff, exists_const, not_or, ne_eq,
      not_not, not_lt, Nat.le_zero]
    constructor
    · intro h
      obtain ⟨⟨hcontract, hcircuit⟩, hcross, hshielded, -, ⟨rfl, rfl⟩, h⟩ := h
      cases hdecode : decodeMiscValue data with
      | error err => simp [hdecode] at h
      | ok decoded =>
        simp only [hdecode, bind_eq_ok_iff, throwIf_eq_ok_iff, exists_const, Bool.not_eq_false,
          bytesEqual_iff, pure_eq_ok_iff] at h
        obtain ⟨rfl, rfl⟩ := h
        exact ⟨rfl, hcontract, hcircuit, hcross, hshielded, data, rfl, hdecode⟩
    · intro h
      obtain ⟨htraces, hcontract, hcircuit, hcross, hshielded, data', hevents, hdecode⟩ := h
      cases htraces
      cases hevents
      refine ⟨⟨hcontract, hcircuit⟩, hcross, hshielded, rfl, ⟨rfl, rfl⟩, ?_⟩
      simp only [hdecode, bind_eq_ok_iff, throwIf_eq_ok_iff, exists_const, pure_eq_ok_iff]
      simp

section Requests

variable {PS : Type} {env : AssemblyEnv} {asm : Assembly} {request : PackageRequest PS}
  {name : Bytes}

/-- A trace is the checked execution of a request's circuit for a part. -/
def ExecutesPart (request : PackageRequest PS) (name part : Bytes) (trace : CallProofData) : Prop :=
  ∃ context results, request.binding.emitPart context part = .ok results ∧
    IsExecution results (name ++ part) request.contract request.binding.entryPoint trace

/-- Executing a part of full width gives its checked execution. -/
lemma executesPart_of_eq_ok {runtimeState : Opaque} {label : JsString} {item : Bytes × ℕ}
    {trace : CallProofData} (hname : name.length = 32) (hwidth : item.1.length = 256)
    (h : executePart asm request name runtimeState label item = .ok trace) :
    ExecutesPart request name item.1 trace := by
  obtain ⟨results, hresults, h⟩ := bind_eq_ok_iff.mp h
  obtain ⟨value, hvalue, h⟩ := bind_eq_ok_iff.mp h
  rw [eventValue_ok hname hwidth] at hvalue
  cases hvalue
  exact ⟨_, results, hresults, checkExecution_eq_ok_iff.mp h⟩

/-- What preflight accepts of a request. -/
structure Preflight (request : PackageRequest PS) (maxParts : ℕ) (name : Bytes) : Prop where
  contract : isAddress request.contract = true
  entryPoint : request.binding.entryPoint ≠ []
  name : eventName request.name = .ok name
  count : 1 ≤ request.parts.length ∧ request.parts.length ≤ maxParts
  widths : ∀ part ∈ request.parts, part.length = 256

/-- Preflight accepts exactly the well-formed requests. -/
lemma preflightPackage_eq_ok_iff {maxParts : ℕ} {label : JsString} :
    preflightPackage request maxParts label = .ok name ↔ Preflight request maxParts name := by
  have hwidths : (∃ results, request.parts.zipIdx.mapM (checkPartWidth label) = .ok results) ↔
      ∀ part ∈ request.parts, part.length = 256 := by
    have hitem : ∀ item, checkPartWidth label item = .ok () ↔ item.1.length = 256 := by
      intro item
      rw [checkPartWidth, throwIf_eq_ok_iff, partLength_eq, ne_eq, not_not]
    rw [exists_mapM_eq_ok_iff]
    constructor
    · intro h part hpart
      obtain ⟨i, hi⟩ := List.getElem?_of_mem hpart
      exact (hitem _).mp (h (part, i) (List.mk_mem_zipIdx_iff_getElem?.mpr hi))
    · intro h item hmem
      exact (hitem item).mpr (h item.1
        (List.mem_of_getElem? (List.mk_mem_zipIdx_iff_getElem?.mp hmem)))
  simp only [preflightPackage, bind_eq_ok_iff, throwIf_eq_ok_iff, exists_const, pure_eq_ok_iff,
    Bool.not_eq_false, not_or, not_lt, List.length_eq_zero_iff]
  constructor
  · intro h
    obtain ⟨hcontract, hentry, name', hname, hcount, results, hresults, rfl⟩ := h
    exact ⟨hcontract, hentry, hname, hcount, hwidths.mp ⟨results, hresults⟩⟩
  · intro h
    obtain ⟨results, hresults⟩ := hwidths.mpr h.widths
    exact ⟨h.contract, h.entryPoint, name, h.name, h.count, results, hresults, rfl⟩

/-- What is known of a prepared request. -/
structure Prepared (request : PackageRequest PS) (name : Bytes) (prepared : PreparedRequest) :
    Prop where
  named : prepared.name = name
  operation : ∃ operation,
    prepared.ledgerState.operation request.binding.entryPoint = some operation
  count : prepared.traces.length = request.parts.length
  executes : ∀ (k : ℕ) part, request.parts[k]? = some part → ∃ trace,
    prepared.traces[k]? = some trace ∧ ExecutesPart request name part trace

/-- Preparing a request that passed preflight executes its parts in order. -/
lemma prepared_of_prepareRequest {index maxParts : ℕ} {prepared : PreparedRequest}
    (hnames : asm.names[index]? = some name) (hpreflight : Preflight request maxParts name)
    (h : prepareRequest env asm request index = .ok prepared) : Prepared request name prepared := by
  simp only [prepareRequest, hnames, ok_bind] at h
  cases hsnapshot : asm.snapshots.get? request.contract with
  | none => simp [hsnapshot] at h
  | some snapshot =>
    simp only [hsnapshot, bind_eq_ok_iff] at h
    obtain ⟨runtimeState, -, ledgerState, -, h⟩ := h
    have hname : name.length = 32 := length_eventName hpreflight.name
    split at h
    · simp at h
    · simp at h
    · rename_i verifierKey _ hkey
      simp only [bind_eq_ok_iff, pure_eq_ok_iff] at h
      obtain ⟨keyLocation, -, traces, htraces, rfl⟩ := h
      obtain ⟨operation, hoperation, -⟩ := Option.bind_eq_some_iff.mp hkey
      refine ⟨rfl, ⟨operation, hoperation⟩, ?_, fun k part hpart => ?_⟩
      · simpa using length_of_mapM_eq_ok htraces
      · have hitem : request.parts.zipIdx[k]? = some (part, k) := by
          rw [List.getElem?_zipIdx, hpart]
          simp
        obtain ⟨trace, htrace, hplace⟩ := getElem?_of_mapM_eq_ok htraces hitem
        have hwidth : part.length = 256 :=
          hpreflight.widths part (List.mem_of_getElem? hpart)
        exact ⟨trace, hplace, executesPart_of_eq_ok hname hwidth htrace⟩

/-- The intent holds the calls of a request in part order: each the call of the execution of its
part, as the ledger partitions it. -/
structure HoldsCalls (env : AssemblyEnv) (IsCall : PrePartitionCall → ContractCall → Prop)
    (request : PackageRequest PS) (prepared : PreparedRequest) (draw : ℕ) (intent : Intent) :
    Prop where
  count : intent.actions.length = request.parts.length
  call : ∀ (k : ℕ) part, request.parts[k]? = some part → ∃ trace call c,
    ExecutesPart request prepared.name part trace ∧
    prePartitionCallFor trace prepared.ledgerState prepared.keyLocation (env.randomness draw k) =
      .ok call ∧
    intent.actions[k]? = some (.call c) ∧ IsCall call c

/-- A prepared request has calls for every draw. -/
lemma Prepared.exists_calls {prepared : PreparedRequest} (h : Prepared request name prepared)
    (env : AssemblyEnv) (draw : ℕ) : ∃ calls, prepared.calls env draw = .ok calls := by
  refine exists_mapM_ok fun item hitem => ?_
  have hplace := List.mk_mem_zipIdx_iff_getElem?.mp hitem
  have hlt : item.2 < request.parts.length :=
    h.count ▸ (List.getElem?_eq_some_iff.mp hplace).1
  obtain ⟨trace, htrace, _, _, _, hexecution⟩ :=
    h.executes item.2 _ (List.getElem?_eq_getElem hlt)
  obtain ⟨operation, hoperation⟩ := h.operation
  have hsame : item.1 = trace := Option.some.inj (hplace.symm.trans htrace)
  simp only [hsame, prePartitionCallFor, hexecution.circuit, hoperation]
  exact ⟨_, rfl⟩

/-- A new intent of the calls of a prepared request holds them in part order. -/
lemma Prepared.holdsCalls {IsCall : PrePartitionCall → ContractCall → Prop}
    {prepared : PreparedRequest} (h : Prepared request name prepared) {tx next : Transaction}
    {calls : List PrePartitionCall} {draw segment : ℕ}
    (hcalls : prepared.calls env draw = .ok calls)
    (hadded : IntentAdded IsCall tx calls [] segment next) :
    ∃ intent, next.intents.get? segment = some intent ∧
      HoldsCalls env IsCall request prepared draw intent := by
  obtain ⟨intent, added, hintent, hactions, hall⟩ := hadded.holds
  rw [List.nil_append] at hactions
  rw [← hactions, List.forall₂_iff_get] at hall
  obtain ⟨hlength, hall⟩ := hall
  have htraces : calls.length = prepared.traces.length := by
    simpa using length_of_mapM_eq_ok hcalls
  refine ⟨intent, hintent, by rw [← hlength, htraces, h.count], fun k part hpart => ?_⟩
  obtain ⟨trace, htrace, hexecutes⟩ := h.executes k part hpart
  have hitem : prepared.traces.zipIdx[k]? = some (trace, k) := by
    rw [List.getElem?_zipIdx, htrace]
    simp
  obtain ⟨call, hcall, hplace⟩ := getElem?_of_mapM_eq_ok hcalls hitem
  obtain ⟨hk, rfl⟩ := List.getElem?_eq_some_iff.mp hplace
  obtain ⟨c, hc, hisCall⟩ := hall k hk (hlength ▸ hk)
  refine ⟨trace, _, c, h.named ▸ hexecutes, hcall, ?_, hisCall⟩
  rw [List.getElem?_eq_getElem (hlength ▸ hk), ← hc]
  rfl

end Requests

/-! ### The loop over the packages -/

/-- A segment is free when it is not 0 and no package so far has it. -/
def Free (packages : List ExpectedPackage) (segment : ℕ) : Prop :=
  segment ≠ 0 ∧ ∀ pkg ∈ packages, pkg.segment ≠ .int segment

/-- A segment is the first free draw after `rejected` others that are not. -/
structure FirstFree (env : AssemblyEnv) (packages : List ExpectedPackage)
    (drawn rejected segment : ℕ) : Prop where
  draw : env.draws (drawn + rejected) = segment
  free : Free packages segment
  earlier : ∀ j < rejected, ¬Free packages (env.draws (drawn + j))

/-- An expectation is that of a request at a segment. -/
structure Expects {PS : Type} (network : JsString) (request : PackageRequest PS) (segment : ℕ)
    (pkg : ExpectedPackage) : Prop where
  network : pkg.network = network
  contract : pkg.contract = request.contract
  entryPoint : pkg.entryPoint = request.binding.entryPoint
  name : eventName request.name = .ok pkg.name
  segment : pkg.segment = .int segment
  parts : pkg.parts = request.parts

/-- What assembly did for the request at an index: its package has the first free segment drawn
for it, after the draws of the requests before, and the intent there holds its calls. -/
structure AssembledAt {PS : Type} (env : AssemblyEnv)
    (IsCall : PrePartitionCall → ContractCall → Prop) (asm : Assembly) (st : AssemblyState)
    (index : ℕ) (request : PackageRequest PS) (pkg : ExpectedPackage) (rejected segment : ℕ)
    (intent : Intent) : Prop where
  package : st.packages[index]? = some pkg
  attempts : st.attempts[index]? = some (rejected + 1)
  expects : Expects asm.resolved.network request segment pkg
  first : FirstFree env (st.packages.take index) (st.attempts.take index).sum rejected segment
  found : st.transaction.intents.get? segment = some intent
  calls : ∃ prepared, prepareRequest env asm request index = .ok prepared ∧
    HoldsCalls env IsCall request prepared ((st.attempts.take index).sum + rejected) intent

/-- The invariant of the loop, after a number of requests. -/
structure Assembled {PS : Type} (env : AssemblyEnv)
    (IsCall : PrePartitionCall → ContractCall → Prop) (asm : Assembly)
    (requests : List (PackageRequest PS)) (done : ℕ) (st : AssemblyState) : Prop where
  packages : st.packages.length = done
  attempts : st.attempts.length = done
  drawn : st.drawn = st.attempts.sum
  segments : ∀ segment, segment ∈ st.transaction.intents.keys ↔
    ∃ pkg ∈ st.packages, pkg.segment = .int segment
  each : ∀ index request, index < done → requests[index]? = some request →
    ∃ pkg rejected segment intent,
      AssembledAt env IsCall asm st index request pkg rejected segment intent

section Run

variable {PS : Type} {env : AssemblyEnv} {IsCall : PrePartitionCall → ContractCall → Prop}
  {asm : Assembly} {requests : List (PackageRequest PS)} {request : PackageRequest PS} {index : ℕ}
  {st st' : AssemblyState} {name : Bytes}

/-- The draws the loop accepts are the free ones. -/
lemma Assembled.usable_iff (h : Assembled env IsCall asm requests index st) {segment : ℕ} :
    Usable st.transaction segment ↔ Free st.packages segment := by
  rw [Usable, InsertionMap.get?_eq_none_iff, h.segments, Free]
  simp

/-- A later round keeps what was assembled before. -/
lemma AssembledAt.append {pkg pkg' : ExpectedPackage} {rejected attempts segment drawn : ℕ}
    {intent : Intent} {tx : Transaction} (hpackages : index < st.packages.length)
    (hattempts : index < st.attempts.length)
    (h : AssembledAt env IsCall asm st index request pkg rejected segment intent)
    (hkeep : tx.intents.get? segment = some intent) :
    AssembledAt env IsCall asm ⟨tx, st.packages ++ [pkg'], st.attempts ++ [attempts], drawn⟩ index
      request pkg rejected segment intent := by
  have htakePackages : (st.packages ++ [pkg']).take index = st.packages.take index :=
    List.take_append_of_le_length hpackages.le
  have htakeAttempts : (st.attempts ++ [attempts]).take index = st.attempts.take index :=
    List.take_append_of_le_length hattempts.le
  exact
    { package := (List.getElem?_append_left hpackages).trans h.package
      attempts := (List.getElem?_append_left hattempts).trans h.attempts
      expects := h.expects
      first := by simpa only [htakePackages, htakeAttempts] using h.first
      found := hkeep
      calls := by simpa only [htakeAttempts] using h.calls }

/-- What the redraw loop does for a prepared request after the requests before it. -/
lemma Assembled.addGuaranteedIntent_cases (hadd : AddsCalls env IsCall)
    (h : Assembled env IsCall asm requests index st) {prepared : PreparedRequest}
    (hprepared : Prepared request name prepared) (parameters : Opaque) (ttl : JsDate)
    (maxAttempts : ℕ) :
    ((∀ k < maxAttempts, ¬Free st.packages (env.draws (st.attempts.sum + k))) ∧ ∃ err,
      addGuaranteedIntent env st.transaction (prepared.calls env) parameters ttl maxAttempts
        st.drawn = .error err) ∨
    ∃ rejected < maxAttempts, ∃ segment next intent,
      FirstFree env st.packages st.attempts.sum rejected segment ∧
      addGuaranteedIntent env st.transaction (prepared.calls env) parameters ttl maxAttempts
        st.drawn = .ok ⟨next, segment, rejected + 1⟩ ∧
      (∀ s, s ∈ next.intents.keys ↔ s = segment ∨ s ∈ st.transaction.intents.keys) ∧
      (∀ s, s ≠ segment → next.intents.get? s = st.transaction.intents.get? s) ∧
      next.intents.get? segment = some intent ∧
      HoldsCalls env IsCall request prepared (st.attempts.sum + rejected) intent := by
  have hcases := addGuaranteedIntentLoop_cases hadd st.transaction (hprepared.exists_calls env)
    parameters ttl maxAttempts st.drawn maxAttempts 1 st.attempts.sum h.drawn le_rfl
  rcases hcases with ⟨hnone, hthrows⟩ | ⟨k, hk, hearlier, hfree, next, calls, hloop, hcalls, hadded⟩
  · exact Or.inl ⟨fun k hk hfree => hnone k hk (h.usable_iff.mpr hfree), hthrows⟩
  · obtain ⟨intent, hintent, hholds⟩ := hprepared.holdsCalls hcalls hadded
    refine Or.inr ⟨k, hk, env.draws (st.attempts.sum + k), next, intent,
      ⟨rfl, h.usable_iff.mp hfree,
      fun j hj hfree' => hearlier j hj (h.usable_iff.mpr hfree')⟩, ?_, fun s => hadded.mem_keys_iff,
      hadded.others, hintent, hholds⟩
    rw [addGuaranteedIntent, hloop, Nat.add_comm 1 k]

/-- **One round of the loop keeps the invariant.** -/
theorem Assembled.step (hadd : AddsCalls env IsCall)
    (h : Assembled env IsCall asm requests index st) (hrequest : requests[index]? = some request)
    {maxParts : ℕ} (hnames : asm.names[index]? = some name)
    (hpreflight : Preflight request maxParts name)
    (hround : assembleRequest env asm st (request, index) = .ok st') :
    Assembled env IsCall asm requests (index + 1) st' := by
  obtain ⟨prepared, hprepare, hround⟩ := bind_eq_ok_iff.mp hround
  obtain ⟨added, hadded, hround⟩ := bind_eq_ok_iff.mp hround
  rw [pure_eq_ok_iff] at hround
  have hprepared : Prepared request name prepared :=
    prepared_of_prepareRequest hnames hpreflight hprepare
  have hcases := h.addGuaranteedIntent_cases hadd hprepared asm.ledgerParameters asm.ttl
    asm.resolved.maxAssemblyAttempts
  rw [hadded] at hcases
  rcases hcases with ⟨-, err, herr⟩ |
    ⟨rejected, -, segment, next, intent, hfirst, hloop, hkeys, hothers, hintent, hholds⟩
  · cases herr
  · cases hloop
    subst hround
    have hempty : st.transaction.intents.get? segment = none :=
      (h.usable_iff.mpr hfirst.free).2
    refine ⟨by simp [h.packages], by simp [h.attempts], by simp [h.drawn], fun s => ?_, ?_⟩
    · simp only [hkeys, h.segments, List.mem_append, List.mem_singleton, or_and_right, exists_or,
        exists_eq_left, JsNumber.int.injEq, Nat.cast_inj]
      rw [or_comm, @eq_comm _ segment s]
    · intro i request' hi hrequest'
      rcases Nat.lt_succ_iff_lt_or_eq.mp hi with hlt | rfl
      · obtain ⟨pkg, rejected', segment', intent', hat⟩ := h.each i request' hlt hrequest'
        have hne : segment' ≠ segment := by
          intro heq
          have hfound := hat.found
          rw [heq, hempty] at hfound
          cases hfound
        exact ⟨pkg, rejected', segment', intent', hat.append (h.packages.symm ▸ hlt)
          (h.attempts.symm ▸ hlt) ((hothers segment' hne).trans hat.found)⟩
      · have hsame : request = request' := Option.some.inj (hrequest.symm.trans hrequest')
        subst hsame
        have htakePackages : ∀ pkg, (st.packages ++ [pkg]).take i = st.packages := fun pkg =>
          List.take_left' h.packages
        have htakeAttempts : (st.attempts ++ [rejected + 1]).take i = st.attempts :=
          List.take_left' h.attempts
        refine ⟨⟨asm.resolved.network, request.contract, request.binding.entryPoint, prepared.name,
          .int segment, request.parts⟩, rejected, segment, intent, ?_, ?_,
          ⟨rfl, rfl, rfl, ?_, rfl, rfl⟩, ?_, hintent, prepared, hprepare, ?_⟩
        · exact List.getElem?_append_right h.packages.le |>.trans (by simp [h.packages])
        · exact List.getElem?_append_right h.attempts.le |>.trans (by simp [h.attempts])
        · exact hprepared.named.symm ▸ hpreflight.name
        · simpa only [htakePackages, htakeAttempts] using hfirst
        · simpa only [htakeAttempts] using hholds

end Run

end MultiPartEvent
