import MultiPartEvent.Reader.Level2

/-!
# The two event sources agree

A reader gets the events of a transaction from the ledger, which emits one event per log
operation, or from the raw transaction, which `partEventsFromTransaction` scans.  The first
numbers events over the whole transaction, the second within each intent.  `Applied` states the
emission order of the ledger; under it both sources carry the same values in every package, in
the same order, so the reader merges them alike.
-/

namespace MultiPartEvent

/-! ### The emission order of the ledger -/

/-- What the `log` operations of the rest of a program log, after the given operation: one entry
for each, readable or not. -/
def logOperationsAfter (previous : Option Op) : List Op → List (Except JsError LoggedEvent)
  | [] => []
  | op :: rest =>
    if op = .named (js "log") then loggedItem previous :: logOperationsAfter (some op) rest
    else logOperationsAfter (some op) rest

/-- What the `log` operations of a transcript log. -/
def Transcript.logOperations (transcript : Transcript) : List (Except JsError LoggedEvent) :=
  logOperationsAfter none transcript.program

/-- One `log` operation of a transaction: the contract, the intent, and what it logs. -/
structure LogSite where
  address : JsString
  segment : ℕ
  logged : Except JsError LoggedEvent

/-- The `log` operations of one kind of transcript of the calls of an intent, calls in sealed
order. -/
def intentLogs (kind : TranscriptKind) (segment : ℕ) (intent : Intent) : List LogSite :=
  (intent.actions.filterMap ContractAction.call?).flatMap fun call =>
    ((call.transcript kind).toList.flatMap Transcript.logOperations).map fun logged =>
      ⟨call.address, segment, logged⟩

/-- The `log` operations of a transaction in emission order: every intent's guaranteed
transcripts in ascending segment order, then every segment's fallible ones. -/
def ledgerLogs (tx : Transaction) : List LogSite :=
  (orderedIntents tx).flatMap (fun item => intentLogs .guaranteed item.1 item.2) ++
    (orderedIntents tx).flatMap (fun item => intentLogs .fallible item.1 item.2)

/-- The event the ledger emits for a `log` operation. -/
structure LogSite.Emits (site : LogSite) (transactionHash : JsString) (event : LedgerEvent) : Prop
    where
  transactionHash : event.transactionHash = transactionHash
  /-- The physical segment is that of the intent. -/
  segment : event.physicalSegment = site.segment
  /-- The event carries the logged data, and is a `misc` event exactly for type code 10. -/
  content : ∃ eventType data, event.content = .contractLog site.address eventType data ∧
    ∀ logged, site.logged = .ok logged →
      data = logged.data ∧ (eventType = js "misc" ↔ logged.typeCode = 10)

/-- The event of a contract's log. -/
def LedgerEvent.isContractLog (event : LedgerEvent) : Bool :=
  match event.content with
  | .contractLog _ _ _ => true
  | .other _ => false

/-- Applying the transaction emitted these events: one contract log per `log` operation, in
emission order, among events of other kinds. -/
def Applied (tx : Transaction) (transactionHash : JsString) (events : List LedgerEvent) : Prop :=
  List.Forall₂ (fun site event => LogSite.Emits site transactionHash event) (ledgerLogs tx)
    (events.filter LedgerEvent.isContractLog)

/-! ### The values of the log operations -/

/-- The `Misc` value of a `log` operation, when it logs one. -/
def loggedValue? : Except JsError LoggedEvent → Option Bytes
  | .error _ => none
  | .ok event => if event.typeCode = 10 then (decodeMiscValue event.data).toOption else none

/-- The `Misc` values the log operations of a contract at a segment log, in order. -/
def siteValues (contract : JsString) (segment : ℕ) (sites : List LogSite) : List Bytes :=
  (sites.filter (fun site => site.address = contract ∧ site.segment = segment)).filterMap
    fun site => loggedValue? site.logged

/-- The scan of a program reads what every `log` operation logs, or nothing. -/
lemma loggedEventsAfter_eq_ok_iff {previous : Option Op} {program : List Op}
    {events : List LoggedEvent} : loggedEventsAfter previous program = .ok events ↔
      logOperationsAfter previous program = events.map .ok := by
  induction program generalizing previous events with
  | nil => simp [loggedEventsAfter, logOperationsAfter, eq_comm]
  | cons op rest ih =>
    unfold loggedEventsAfter logOperationsAfter
    by_cases hlog : op = .named (js "log")
    · rw [if_pos hlog, if_pos hlog]
      simp only [bind_eq_ok_iff, pure_eq_ok_iff]
      constructor
      · intro h
        obtain ⟨event, hevent, more, hmore, rfl⟩ := h
        rw [hevent, ih.mp hmore, List.map_cons]
      · intro h
        cases events with
        | nil => simp at h
        | cons event more =>
          rw [List.map_cons, List.cons.injEq] at h
          exact ⟨event, h.1, more, ih.mpr h.2, rfl⟩
    · rw [if_neg hlog, if_neg hlog, ih]

/-- The values of the log operations of a readable transcript are those it logs. -/
lemma filterMap_logOperations {transcript : Transcript} {values : List Bytes}
    (h : transcript.miscValues? = some values) :
    transcript.logOperations.filterMap loggedValue? = values := by
  obtain ⟨events, hlogged, hvalues⟩ := miscValues?_eq_some_iff.mp h
  rw [Transcript.logOperations, loggedEventsAfter_eq_ok_iff.mp hlogged, List.filterMap_map]
  clear hlogged h
  induction events generalizing values with
  | nil =>
    rw [List.filter_nil, List.mapM_nil, pure_eq_ok_iff] at hvalues
    simpa using hvalues
  | cons event events ih =>
    by_cases hmisc : event.typeCode = 10
    · rw [List.filter_cons_of_pos (by simpa using hmisc), List.mapM_cons, bind_eq_ok_iff] at hvalues
      obtain ⟨value, hvalue, hrest⟩ := hvalues
      obtain ⟨rest, hvalues, hsplit⟩ := bind_eq_ok_iff.mp hrest
      rw [pure_eq_ok_iff] at hsplit
      subst hsplit
      have hhead : (loggedValue? ∘ Except.ok) event = some value := by
        simp [loggedValue?, hmisc, hvalue, Except.toOption]
      rw [List.filterMap_cons_some hhead, ih hvalues]
    · rw [List.filter_cons_of_neg (by simpa using hmisc)] at hvalues
      have hhead : (loggedValue? ∘ (Except.ok : LoggedEvent → Except JsError LoggedEvent)) event =
          none := by
        simp [loggedValue?, hmisc]
      rw [List.filterMap_cons_none hhead, ih hvalues]

section Transaction

variable {tx : Transaction} {contract : JsString}

/-- The values of the log operations of a readable intent are those of its transcripts. -/
lemma siteValues_intentLogs {intent : Intent} {segment : ℕ} (h : intent.Readable contract)
    (kind : TranscriptKind) : siteValues contract segment (intentLogs kind segment intent) =
      (intent.callsOf contract).flatMap (fun call => call.values kind) := by
  rw [Intent.Readable, Intent.callsOf] at h
  rw [siteValues, intentLogs, Intent.callsOf]
  generalize intent.actions.filterMap ContractAction.call? = calls at h ⊢
  induction calls with
  | nil => rfl
  | cons call calls ih =>
    rw [List.flatMap_cons, List.filter_append, List.filterMap_append]
    by_cases hcall : call.address = contract
    · have hkept : (call :: calls).filter (fun call => call.address = contract) =
          call :: calls.filter (fun call => call.address = contract) := by
        rw [List.filter_cons_of_pos (by simpa using hcall)]
      rw [hkept] at h ⊢
      obtain ⟨hreadable, hrest⟩ := List.forall_mem_cons.mp h
      rw [ih hrest, List.flatMap_cons]
      congr 1
      rw [List.filter_map, List.filterMap_map, List.filter_eq_self.mpr (by simp [hcall]),
        ContractCall.values]
      change List.filterMap loggedValue? _ = _
      cases htranscript : call.transcript kind with
      | none => rfl
      | some transcript =>
        obtain ⟨values, hvalues⟩ := hreadable kind transcript htranscript
        rw [Option.toList_some, List.flatMap_singleton, Option.bind_some, hvalues,
          Option.getD_some]
        exact filterMap_logOperations hvalues
    · have hkept : (call :: calls).filter (fun call => call.address = contract) =
          calls.filter (fun call => call.address = contract) := by
        rw [List.filter_cons_of_neg (by simpa using hcall)]
      rw [hkept] at h ⊢
      rw [ih h, List.filter_map]
      simp [Function.comp_def, hcall]

/-- The log operations of one segment are those of the intent there. -/
lemma siteValues_flatMap_intentLogs (kind : TranscriptKind) (segment : ℕ) :
    siteValues contract segment
        ((orderedIntents tx).flatMap fun item => intentLogs kind item.1 item.2) =
      (tx.intents.get? segment).toList.flatMap fun intent =>
        siteValues contract segment (intentLogs kind segment intent) := by
  have hsegment : ∀ (item : ℕ × Intent), ∀ site ∈ intentLogs kind item.1 item.2,
      (site.segment == segment) = true ↔ item.1 = segment := by
    intro item site hsite
    obtain ⟨call, -, hsite⟩ := List.mem_flatMap.mp hsite
    obtain ⟨logged, -, rfl⟩ := List.mem_map.mp hsite
    exact beq_iff_eq
  have hat := InsertionMap.filter_flatMap_entries (orderedIntents_perm tx) hsegment
  have hsplit : ∀ sites : List LogSite, siteValues contract segment sites =
      siteValues contract segment (sites.filter (fun site => site.segment == segment)) := by
    intro sites
    rw [siteValues, siteValues, List.filter_filter]
    congr 1
    refine List.filter_congr fun site _ => ?_
    simp
  rw [hsplit, hat]
  cases tx.intents.get? segment with
  | none => rfl
  | some intent => simp

/-- The values of a contract at a segment are the same in emission order and in the scan of the
raw transaction, when the scan reports nothing. -/
theorem siteValues_ledgerLogs
    (hissues : (contractActivity tx contract).issues = []) (segment : ℕ) :
    siteValues contract segment (ledgerLogs tx) = valuesAt tx contract segment := by
  have hat := issues_at tx contract segment
  rw [hissues, List.filter_nil] at hat
  have happend : ∀ sites sites' : List LogSite, siteValues contract segment (sites ++ sites') =
      siteValues contract segment sites ++ siteValues contract segment sites' := by
    intro sites sites'
    rw [siteValues, List.filter_append, List.filterMap_append]
    rfl
  rw [ledgerLogs, happend, siteValues_flatMap_intentLogs, siteValues_flatMap_intentLogs, valuesAt]
  cases hintent : tx.intents.get? segment with
  | none => rfl
  | some intent =>
    rw [hintent, Option.toList_some, List.flatMap_singleton] at hat
    have hreadable : intent.Readable contract := intentIssues_eq_nil_iff.mp hat.symm
    simp only [Option.toList_some, List.flatMap_singleton]
    rw [siteValues_intentLogs hreadable, siteValues_intentLogs hreadable,
      map_value_intentParts hreadable, Intent.emitted]

end Transaction

/-! ### Reader inputs that carry the same values -/

/-- A reader input carries these values of a contract at each segment of one transaction, in the
order of their positions. -/
structure Carries (events : List PartEvent) (scope : TransactionScope) (values : ℕ → List Bytes) :
    Prop where
  wellFormed : ∀ e ∈ events, e.WellFormed
  wide : ∀ e ∈ events, e.value.length = 288
  ofScope : ∀ e ∈ events, e.contract = scope.contract →
    e.network = scope.network ∧ e.transactionHash = scope.transactionHash
  values : ∀ segment : ℕ, (events.filter (fun e => e.contract = scope.contract ∧
    e.segment = .int segment)).map PartEvent.value = values segment
  ascending : ∀ segment : ℕ, (events.filter (fun e => e.contract = scope.contract ∧
    e.segment = .int segment)).Pairwise (fun e e' => e.positionNat < e'.positionNat)

/-- A package without its position numbers. -/
def Package.unnumbered (pkg : Package) : Package := { pkg with positions := [] }

section Carries

variable {events events' : List PartEvent} {scope : TransactionScope} {values : ℕ → List Bytes}
  {names : InsertionMap JsString (List Bytes)} {network : Option JsString}

/-- The events of a package of the contract are those of its segment whose values belong to it:
the positions do not matter. -/
lemma Carries.eventsOf_eq (h : Carries events scope values) {s : Scope}
    (hcontract : ∀ e s, scopeOf names network e = some s → e.contract = scope.contract) :
    eventsOf names network events s = (events.filter (fun e => e.contract = scope.contract ∧
      e.segment = .int s.segment)).filter (fun e => scopeOf names network
        ⟨scope.network, scope.contract, scope.transactionHash, .int s.segment, .int 0, e.value⟩ =
          some s) := by
  rw [eventsOf, List.filter_filter]
  refine List.filter_congr fun e he => ?_
  by_cases hplace : e.contract = scope.contract ∧ e.segment = .int s.segment
  · obtain ⟨hnetwork, hhash⟩ := h.ofScope e he hplace.1
    have hscope : scopeOf names network e = scopeOf names network
        ⟨scope.network, scope.contract, scope.transactionHash, .int s.segment, .int 0,
          e.value⟩ := by
      rw [← hnetwork, ← hhash, ← hplace.1, ← hplace.2]
      rfl
    rw [hscope]
    simp [hplace]
  · have hnone : ¬scopeOf names network e = some s := by
      intro hs
      exact hplace ⟨hcontract e s hs, segment_of_scopeOf (h.wellFormed e he) hs⟩
    simp [hplace, hnone]

/-- The values of a package are determined by the values carried. -/
lemma Carries.map_value_eventsOf (h : Carries events scope values) {s : Scope}
    (hcontract : ∀ e s, scopeOf names network e = some s → e.contract = scope.contract) :
    (eventsOf names network events s).map PartEvent.value =
      (values s.segment).filter (fun value => scopeOf names network
        ⟨scope.network, scope.contract, scope.transactionHash, .int s.segment, .int 0, value⟩ =
          some s) := by
  rw [h.eventsOf_eq hcontract, ← h.values, List.filter_map]
  rfl

/-- A package of an input that carries the values is accepted and merges them, in order. -/
lemma Carries.evaluate_unnumbered (h : Carries events scope values) {s : Scope}
    (hcontract : ∀ e s, scopeOf names network e = some s → e.contract = scope.contract) :
    (evaluate (groupOf names network events s)).unnumbered =
      { network := s.network, contract := s.contract, name := s.name,
        nameText := eventNameText s.name, transactionHash := s.transactionHash,
        segment := s.segment, status := .accepted, positions := []
        parts := ((eventsOf names network events s).map PartEvent.value).map (List.drop 32)
        payload := some (((eventsOf names network events s).map PartEvent.value).map
          (List.drop 32)).flatten
        deliveries := ((eventsOf names network events s).map PartEvent.value).length
        issues := [] } := by
  let items := (eventsOf names network events s).map fun e => (e.positionNat, e.value)
  have hitems : (groupOf names network events s).deliveries =
      items.map fun item => ⟨item.1, .ok item.2⟩ := by
    rw [groupOf, List.map_map]
    refine List.map_congr_left fun e he => ?_
    have hwidth := h.wide e (List.mem_filter.mp he).1
    have hfull : e.full = e.value := zeroExtend_of_length_eq hwidth
    have hvalue : (deliveryOf e e.positionNat).value = .ok e.value :=
      deliveryOf_value_eq_ok_iff.mpr ⟨hwidth.le, hfull.symm⟩
    calc deliveryOf e e.positionNat
        = ⟨e.positionNat, (deliveryOf e e.positionNat).value⟩ := rfl
      _ = ⟨e.positionNat, .ok e.value⟩ := by rw [hvalue]
  have hascending : items.Pairwise (fun i j => i.1 < j.1) := by
    refine List.pairwise_map.mpr ?_
    rw [h.eventsOf_eq hcontract]
    exact (h.ascending s.segment).filter _
  have hmaps : items.map (fun item => item.2.drop 32) =
      ((eventsOf names network events s).map PartEvent.value).map (List.drop 32) := by
    rw [List.map_map, List.map_map]
    rfl
  obtain ⟨hstatus, hparts, hpayload⟩ := evaluate_of_ascending hitems hascending
  rw [hmaps] at hparts hpayload
  have hissues : (evaluate (groupOf names network events s)).issues = [] :=
    evaluate_issues ((evaluate_status _).mp hstatus)
  have hdeliveries : (evaluate (groupOf names network events s)).deliveries =
      ((eventsOf names network events s).map PartEvent.value).length := by
    rw [evaluate_deliveries, groupOf, List.length_map, List.length_map]
  calc (evaluate (groupOf names network events s)).unnumbered
      = { network := s.network, contract := s.contract, name := s.name,
          nameText := eventNameText s.name, transactionHash := s.transactionHash,
          segment := s.segment, status := (evaluate (groupOf names network events s)).status,
          positions := [], parts := (evaluate (groupOf names network events s)).parts,
          payload := (evaluate (groupOf names network events s)).payload,
          deliveries := (evaluate (groupOf names network events s)).deliveries,
          issues := (evaluate (groupOf names network events s)).issues } := rfl
    _ = _ := by rw [hstatus, hparts, hpayload, hdeliveries, hissues]

/-- Two inputs that carry the same values have the same packages, up to position numbers. -/
theorem Carries.packages_eq (h : Carries events scope values) (h' : Carries events' scope values)
    (hcontract : ∀ e s, scopeOf names network e = some s → e.contract = scope.contract) :
    packageScopes names network events = packageScopes names network events' ∧
      (readOutput names network events).packages.map Package.unnumbered =
        (readOutput names network events').packages.map Package.unnumbered := by
  have hvalues : ∀ s, (eventsOf names network events s).map PartEvent.value =
      (eventsOf names network events' s).map PartEvent.value := by
    intro s
    rw [h.map_value_eventsOf hcontract, h'.map_value_eventsOf hcontract]
  have hmem : ∀ (l : List PartEvent) (s : Scope), s ∈ packageScopes names network l ↔
      (eventsOf names network l s).map PartEvent.value ≠ [] := by
    intro l s
    rw [mem_packageScopes, ne_eq, List.map_eq_nil_iff, eventsOf, List.filter_eq_nil_iff]
    simp
  have hscopes : packageScopes names network events = packageScopes names network events' := by
    refine packageScopes_congr fun s => ?_
    rw [hmem, hmem, hvalues]
  refine ⟨hscopes, ?_⟩
  rw [readOutput, readOutput, List.map_map, List.map_map, hscopes]
  refine List.map_congr_left fun s _ => ?_
  rw [Function.comp_apply, Function.comp_apply, h.evaluate_unnumbered hcontract,
    h'.evaluate_unnumbered hcontract, hvalues]

end Carries

/-! ### The raw transaction -/

/-- The reader input of a transaction carries the values of its intents. -/
theorem carries_partEventsFromTransaction {tx : Transaction} {scope : TransactionScope}
    (hwell : ∀ e ∈ (partEventsFromTransaction tx scope).events, e.WellFormed) :
    Carries (partEventsFromTransaction tx scope).events scope (valuesAt tx scope.contract) := by
  have hscope : ∀ e ∈ (partEventsFromTransaction tx scope).events, e.network = scope.network ∧
      e.contract = scope.contract ∧ e.transactionHash = scope.transactionHash := by
    intro e he
    obtain ⟨segment, item, -, rfl⟩ := exists_of_mem_events he
    exact ⟨rfl, rfl, rfl⟩
  have hat : ∀ segment : ℕ, (partEventsFromTransaction tx scope).events.filter
      (fun e => e.contract = scope.contract ∧ e.segment = .int segment) =
      (valuesAt tx scope.contract segment).zipIdx.map (numberedEvent scope segment) := by
    intro segment
    rw [← partEventsFromTransaction_at]
    refine List.filter_congr fun e he => ?_
    simp [(hscope e he).2.1]
  refine ⟨hwell, ?_, fun e he _ => ⟨(hscope e he).1, (hscope e he).2.2⟩, ?_, ?_⟩
  · intro e he
    obtain ⟨segment, item, hitem, rfl⟩ := exists_of_mem_events he
    exact length_of_mem_valuesAt (List.fst_mem_of_mem_zipIdx hitem)
  · intro segment
    have hvalues : PartEvent.value ∘ numberedEvent scope segment = Prod.fst := rfl
    rw [hat, List.map_map, hvalues, List.zipIdx_map_fst]
  · intro segment
    have hrange : ((valuesAt tx scope.contract segment).zipIdx.map Prod.snd).Pairwise (· < ·) := by
      rw [List.zipIdx_map_snd]
      exact List.pairwise_lt_range'
    rw [hat]
    refine List.pairwise_map.mpr ((List.pairwise_map.mp hrange).imp_of_mem ?_)
    intro i j hi hj hij
    have hposition : ∀ item ∈ (valuesAt tx scope.contract segment).zipIdx,
        (numberedEvent scope segment item).positionNat = item.2 := by
      intro item hitem
      have hmax := (range_of_wellFormed (hwell _ (numberedEvent_mem_events scope hitem))).2
      rw [PartEvent.positionNat, numberedEvent, JsNumber.inRange_int (Nat.zero_le _) hmax,
        Option.getD_some]
    rw [hposition i hi, hposition j hj]
    exact hij

/-! ### The ledger events -/

section Ledger

variable {options : LedgerEventOptions} {scope : TransactionScope}
  (hdefault : options.positionOf = none) (hnetwork : options.network = scope.network)
  (hcontracts : ∀ contracts, options.contracts = some contracts → scope.contract ∈ contracts)

/-- The contract logs among the events, with their places in the list. -/
def logItems (events : List LedgerEvent) : List (LedgerEvent × ℕ) :=
  events.zipIdx.filter fun item => item.1.isContractLog

/-- The reader input is made of the contract logs. -/
lemma partEventsFromLedgerEvents_events (events : List LedgerEvent) (options : LedgerEventOptions) :
    (partEventsFromLedgerEvents events options).events =
      (logItems events).filterMap fun item => (partEventOf options item).1 := by
  rw [partEventsFromLedgerEvents, logItems, List.filterMap_filter]
  refine List.filterMap_congr fun item _ => ?_
  split_ifs with hlog
  · rfl
  · cases hcontent : item.1.content with
    | contractLog address eventType data => simp [LedgerEvent.isContractLog, hcontent] at hlog
    | other tag => simp [partEventOf, hcontent]

/-- The contract logs are emitted by the log operations, one by one. -/
lemma Applied.emits_logItems {tx : Transaction} {hash : JsString} {events : List LedgerEvent}
    (happlied : Applied tx hash events) :
    List.Forall₂ (fun site (item : LedgerEvent × ℕ) => LogSite.Emits site hash item.1)
      (ledgerLogs tx) (logItems events) := by
  have hmap : (logItems events).map Prod.fst = events.filter LedgerEvent.isContractLog := by
    conv_rhs => rw [← List.zipIdx_map_fst 0 events, List.filter_map]
    rfl
  rw [Applied, ← hmap, List.forall₂_map_right_iff] at happlied
  exact happlied

/-- A contract log is emitted by some log operation. -/
lemma Applied.exists_emits {tx : Transaction} {hash : JsString} {events : List LedgerEvent}
    (happlied : Applied tx hash events) {item : LedgerEvent × ℕ} (hitem : item ∈ logItems events) :
    ∃ site ∈ ledgerLogs tx, LogSite.Emits site hash item.1 := by
  have hall := happlied.emits_logItems
  obtain ⟨i, hi, rfl⟩ := List.getElem_of_mem hitem
  have hi' : i < (ledgerLogs tx).length := hall.length_eq ▸ hi
  exact ⟨_, List.getElem_mem hi', hall.get hi' hi⟩

/-- The places of the log items ascend. -/
lemma pairwise_logItems (events : List LedgerEvent) :
    (logItems events).Pairwise fun i j => i.2 < j.2 := by
  have hrange : (events.zipIdx.map Prod.snd).Pairwise (· < ·) := by
    rw [List.zipIdx_map_snd]
    exact List.pairwise_lt_range'
  exact (List.pairwise_map.mp hrange).filter _

include hdefault hnetwork in
/-- The part event of an emitted log: its contract, transaction, segment and place. -/
lemma partEventOf_eq_some {site : LogSite} {item : LedgerEvent × ℕ}
    (hemits : site.Emits scope.transactionHash item.1) {e : PartEvent}
    (he : (partEventOf options item).1 = some e) :
    e.network = scope.network ∧ e.contract = site.address ∧
      e.transactionHash = scope.transactionHash ∧ e.segment = .int site.segment ∧
      e.position = .int item.2 ∧ e.value.length = 288 := by
  obtain ⟨event, index⟩ := item
  obtain ⟨eventType, data, hcontent, -⟩ := hemits.content
  simp only at hcontent
  simp only [partEventOf, hcontent, hdefault] at he
  split_ifs at he
  cases hdecode : decodeMiscValue data with
  | error err => simp [hdecode] at he
  | ok value =>
    simp only [hdecode, Option.some.injEq] at he
    subst he
    exact ⟨hnetwork, rfl, hemits.transactionHash, by rw [hemits.segment], rfl,
      length_decodeMiscValue hdecode⟩

include hdefault hcontracts in
/-- An emitted log of the contract that raises no issue carries the value of its operation. -/
lemma partEventOf_value {site : LogSite} {item : LedgerEvent × ℕ}
    (hemits : site.Emits scope.transactionHash item.1)
    (hissue : (partEventOf options item).2 = none)
    (hsite : site.address = scope.contract) {logged : LoggedEvent}
    (hread : site.logged = .ok logged) :
    (partEventOf options item).1.map PartEvent.value = loggedValue? site.logged := by
  obtain ⟨event, index⟩ := item
  obtain ⟨eventType, data, hcontent, hlogged⟩ := hemits.content
  obtain ⟨rfl, htype⟩ := hlogged logged hread
  have hincluded : ¬(options.contracts.any (fun contracts => site.address ∉ contracts) = true) := by
    cases hoptions : options.contracts with
    | none => simp
    | some contracts => simpa [hsite] using hcontracts contracts hoptions
  simp only at hcontent
  simp only [partEventOf, hcontent, hdefault, if_neg hincluded, hread, loggedValue?] at hissue ⊢
  by_cases hmisc : logged.typeCode = 10
  · have hname : ¬eventType ≠ js "misc" := not_not.mpr (htype.mpr hmisc)
    rw [if_neg hname] at hissue ⊢
    rw [if_pos hmisc]
    cases hdecode : decodeMiscValue logged.data with
    | error err => simp [hdecode] at hissue
    | ok value => simp [Except.toOption]
  · have hname : eventType ≠ js "misc" := fun h => hmisc (htype.mp h)
    rw [if_pos hname, if_neg hmisc]
    rfl

include hdefault hnetwork hcontracts in
/-- The values of a contract at a segment, event by event, are those of the log operations. -/
lemma map_value_partEvents {sites : List LogSite} {items : List (LedgerEvent × ℕ)}
    (hall : List.Forall₂ (fun site item => LogSite.Emits site scope.transactionHash item.1) sites
      items)
    (hissues : ∀ item ∈ items, (partEventOf options item).2 = none)
    (hread : ∀ site ∈ sites, site.address = scope.contract → ∃ logged, site.logged = .ok logged)
    (segment : ℕ) :
    ((items.filterMap fun item => (partEventOf options item).1).filter
      (fun e => e.contract = scope.contract ∧ e.segment = .int segment)).map PartEvent.value =
      siteValues scope.contract segment sites := by
  induction hall with
  | nil => rfl
  | @cons site item sites items hemits _ ih =>
    obtain ⟨hissue, hissues⟩ := List.forall_mem_cons.mp hissues
    obtain ⟨hreadSite, hread⟩ := List.forall_mem_cons.mp hread
    have hrest := ih hissues hread
    have hsplit : siteValues scope.contract segment (site :: sites) =
        siteValues scope.contract segment [site] ++ siteValues scope.contract segment sites := by
      rw [siteValues, ← List.singleton_append, List.filter_append, List.filterMap_append]
      rfl
    rw [hsplit, ← hrest]
    have hplace : ∀ e, (partEventOf options item).1 = some e →
        (e.contract = scope.contract ∧ e.segment = .int segment ↔
          site.address = scope.contract ∧ site.segment = segment) := by
      intro e he
      obtain ⟨-, hcontract, -, hsegment, -, -⟩ := partEventOf_eq_some hdefault hnetwork hemits he
      rw [hcontract, hsegment, JsNumber.int.injEq]
      exact and_congr_right fun _ => Int.ofNat_inj
    by_cases hhere : site.address = scope.contract ∧ site.segment = segment
    · obtain ⟨logged, hlogged⟩ := hreadSite hhere.1
      have hvalue := partEventOf_value hdefault hcontracts hemits hissue hhere.1 hlogged
      have hone : siteValues scope.contract segment [site] = (loggedValue? site.logged).toList := by
        cases hloggedValue : loggedValue? site.logged <;> simp [siteValues, hhere, hloggedValue]
      rw [hone, ← hvalue]
      cases he : (partEventOf options item).1 with
      | none => simp [he]
      | some e =>
        have hkept := (hplace e he).mpr hhere
        simp [he, hkept]
    · have hone : siteValues scope.contract segment [site] = [] := by
        simp only [siteValues, List.filterMap_eq_nil_iff, List.mem_filter, decide_eq_true_eq]
        intro other hother
        rw [List.mem_singleton] at hother
        exact absurd (hother.1 ▸ hother.2) hhere
      rw [hone, List.nil_append]
      cases he : (partEventOf options item).1 with
      | none => simp [he]
      | some e =>
        have hdropped : ¬(e.contract = scope.contract ∧ e.segment = .int segment) := fun h =>
          hhere ((hplace e he).mp h)
        simp [he, hdropped]

/-- Every log operation of the transaction is one of a call of an intent. -/
lemma exists_of_mem_ledgerLogs {tx : Transaction} {site : LogSite} (h : site ∈ ledgerLogs tx) :
    ∃ intent, tx.intents.get? site.segment = some intent ∧
      ∃ call ∈ intent.callsOf site.address, ∃ kind transcript,
        call.transcript kind = some transcript ∧ site.logged ∈ transcript.logOperations := by
  have hkind : ∃ kind, site ∈ (orderedIntents tx).flatMap fun item =>
      intentLogs kind item.1 item.2 := by
    rcases List.mem_append.mp h with h | h
    exacts [⟨_, h⟩, ⟨_, h⟩]
  obtain ⟨kind, hkind⟩ := hkind
  obtain ⟨⟨segment, intent⟩, hitem, hsite⟩ := List.mem_flatMap.mp hkind
  obtain ⟨call, hcall, hsite⟩ := List.mem_flatMap.mp hsite
  obtain ⟨logged, hlogged, rfl⟩ := List.mem_map.mp hsite
  obtain ⟨transcript, htranscript, hlogged⟩ := List.mem_flatMap.mp hlogged
  have hintent : tx.intents.get? segment = some intent :=
    InsertionMap.get?_eq_some_iff.mpr ((orderedIntents_perm tx).mem_iff.mp hitem)
  refine ⟨intent, hintent, call, ?_, kind, transcript, by simpa using htranscript, hlogged⟩
  exact List.mem_filter.mpr ⟨hcall, by simp⟩

/-- When the scan of the raw transaction reports nothing, every log operation of the contract is
read. -/
lemma exists_logged_of_mem_ledgerLogs {tx : Transaction} {contract : JsString}
    (hissues : (contractActivity tx contract).issues = []) {site : LogSite}
    (h : site ∈ ledgerLogs tx) (hsite : site.address = contract) :
    ∃ logged, site.logged = .ok logged := by
  obtain ⟨intent, hintent, call, hcall, kind, transcript, htranscript, hlogged⟩ :=
    exists_of_mem_ledgerLogs h
  have hat := issues_at tx contract site.segment
  rw [hissues, List.filter_nil, hintent, Option.toList_some, List.flatMap_singleton] at hat
  have hreadable : intent.Readable contract := intentIssues_eq_nil_iff.mp hat.symm
  obtain ⟨values, hvalues⟩ := hreadable call (hsite ▸ hcall) kind transcript htranscript
  obtain ⟨events, hevents, -⟩ := miscValues?_eq_some_iff.mp hvalues
  rw [Transcript.logOperations, loggedEventsAfter_eq_ok_iff.mp hevents] at hlogged
  obtain ⟨event, -, hevent⟩ := List.mem_map.mp hlogged
  exact ⟨event, hevent.symm⟩

include hdefault hnetwork hcontracts in
/-- The reader input of the ledger events carries the values of the log operations. -/
theorem carries_partEventsFromLedgerEvents {tx : Transaction} {events : List LedgerEvent}
    (happlied : Applied tx scope.transactionHash events)
    (hempty : scope.network ≠ []) (hhash : scope.transactionHash ≠ [])
    (hkeys : ∀ s ∈ tx.intents.keys, 1 ≤ s ∧ s ≤ 65535) (hlength : events.length ≤ maxSafeInteger)
    (hread : (contractActivity tx scope.contract).issues = [])
    (hissues : (partEventsFromLedgerEvents events options).issues = []) :
    Carries (partEventsFromLedgerEvents events options).events scope
      (valuesAt tx scope.contract) := by
  have hitem : ∀ e ∈ (partEventsFromLedgerEvents events options).events, ∃ item ∈ logItems events,
      ∃ site ∈ ledgerLogs tx, (partEventOf options item).1 = some e ∧
        LogSite.Emits site scope.transactionHash item.1 := by
    intro e he
    rw [partEventsFromLedgerEvents_events] at he
    obtain ⟨item, hmem, hsome⟩ := List.mem_filterMap.mp he
    obtain ⟨site, hsite, hemits⟩ := happlied.exists_emits hmem
    exact ⟨item, hmem, site, hsite, hsome, hemits⟩
  have hposition : ∀ item ∈ logItems events, item.2 ≤ maxSafeInteger := by
    intro item hmem
    have hlt := List.snd_lt_of_mem_zipIdx (List.mem_filter.mp hmem).1
    omega
  have hnone : ∀ item ∈ logItems events, (partEventOf options item).2 = none := by
    intro item hmem
    rw [partEventsFromLedgerEvents, List.filterMap_eq_nil_iff] at hissues
    exact hissues item (List.mem_filter.mp hmem).1
  refine ⟨?_, ?_, ?_, ?_, ?_⟩
  · intro e he
    obtain ⟨item, hmem, site, hsite, hsome, hemits⟩ := hitem e he
    obtain ⟨hnet, -, htx, hsegment, hpos, -⟩ := partEventOf_eq_some hdefault hnetwork hemits hsome
    obtain ⟨intent, hintent, -⟩ := exists_of_mem_ledgerLogs hsite
    have hrange := hkeys site.segment (InsertionMap.mem_keys_iff.mpr ⟨intent, hintent⟩)
    exact ⟨hnet ▸ hempty, htx ▸ hhash, ⟨_, hsegment, hrange⟩, ⟨_, hpos, hposition item hmem⟩⟩
  · intro e he
    obtain ⟨item, hmem, site, hsite, hsome, hemits⟩ := hitem e he
    exact (partEventOf_eq_some hdefault hnetwork hemits hsome).2.2.2.2.2
  · intro e he _
    obtain ⟨item, hmem, site, hsite, hsome, hemits⟩ := hitem e he
    obtain ⟨hnet, -, htx, -⟩ := partEventOf_eq_some hdefault hnetwork hemits hsome
    exact ⟨hnet, htx⟩
  · intro segment
    rw [partEventsFromLedgerEvents_events, map_value_partEvents hdefault hnetwork hcontracts
      happlied.emits_logItems hnone
      (fun site hsite => exists_logged_of_mem_ledgerLogs hread hsite) segment,
      siteValues_ledgerLogs hread]
  · intro segment
    rw [partEventsFromLedgerEvents_events]
    refine List.Pairwise.filter _ (List.pairwise_filterMap.mpr ?_)
    refine (pairwise_logItems events).imp_of_mem fun {i j} hi hj hij e he e' he' => ?_
    have hnat : ∀ item ∈ logItems events, ∀ e, (partEventOf options item).1 = some e →
        e.positionNat = item.2 := by
      intro item hmem e hsome
      obtain ⟨site, hsite, hemits⟩ := happlied.exists_emits hmem
      obtain ⟨-, -, -, -, hpos, -⟩ := partEventOf_eq_some hdefault hnetwork hemits hsome
      rw [PartEvent.positionNat, hpos, JsNumber.inRange_int (Nat.zero_le _) (hposition item hmem),
        Option.getD_some]
    rw [hnat i hi e he, hnat j hj e' he']
    exact hij

end Ledger

/-! ### Agreement -/

/-- **The two event sources agree.**  For every transaction whose application emitted the
events, when neither conversion reports an issue, reading the ledger events at their places in
the list and reading the raw transaction return the same packages, up to position numbers. -/
theorem sources_agree {tx : Transaction} {scope : TransactionScope} {events : List LedgerEvent}
    {ledgerOptions : LedgerEventOptions} {options : ReadOptions} {maxEvents maxPackages : ℕ}
    {names : InsertionMap JsString (List Bytes)}
    (happlied : Applied tx scope.transactionHash events)
    (hdefault : ledgerOptions.positionOf = none) (hnetwork : ledgerOptions.network = scope.network)
    (hcontracts : ∀ contracts, ledgerOptions.contracts = some contracts →
      scope.contract ∈ contracts)
    (hread : (partEventsFromTransaction tx scope).issues = [])
    (hissues : (partEventsFromLedgerEvents events ledgerOptions).issues = [])
    (hempty : scope.network ≠ []) (hhash : scope.transactionHash ≠ [])
    (hkeys : ∀ s ∈ tx.intents.keys, 1 ≤ s ∧ s ≤ 65535) (hlength : events.length ≤ maxSafeInteger)
    (hoptions : options.Accepts maxEvents maxPackages names)
    (hcontract : ∀ o ∈ options.optIns, o.contract = scope.contract)
    (hcount : (partEventsFromLedgerEvents events ledgerOptions).events.length ≤ maxEvents)
    (hcount' : (partEventsFromTransaction tx scope).events.length ≤ maxEvents)
    (hpackages : (options.packageSet (partEventsFromTransaction tx scope).events).ncard ≤
      maxPackages) :
    ∃ fromLedger fromTransaction,
      readPackages (partEventsFromLedgerEvents events ledgerOptions).events options =
        .ok fromLedger ∧
      readPackages (partEventsFromTransaction tx scope).events options = .ok fromTransaction ∧
      fromLedger.packages.map Package.unnumbered =
        fromTransaction.packages.map Package.unnumbered := by
  have hledger := carries_partEventsFromLedgerEvents hdefault hnetwork hcontracts happlied hempty
    hhash hkeys hlength hread hissues
  have hmax : maxEvents ≤ maxSafeInteger := (validateReaderLimits_eq_ok hoptions.limits).1
  have hparts : (contractActivity tx scope.contract).parts.length ≤ maxSafeInteger := by
    rw [partEventsFromTransaction, length_numberParts] at hcount'
    exact hcount'.trans hmax
  have htransaction : Carries (partEventsFromTransaction tx scope).events scope
      (valuesAt tx scope.contract) :=
    carries_partEventsFromTransaction fun e he =>
      wellFormed_of_mem_events hempty hhash hkeys hparts he
  have hscope : ∀ e s, scopeOf names options.network e = some s → e.contract = scope.contract := by
    intro e s hs
    obtain ⟨name, hname, -⟩ := Option.map_eq_some_iff.mp hs
    obtain ⟨-, hmem, -⟩ := optedInName_eq_some_iff.mp hname
    obtain ⟨o, ho, hoContract, -⟩ := (mem_optInNames hoptions.names e.contract name).mp hmem
    rw [← hoContract, hcontract o ho]
  obtain ⟨hscopes, hequal⟩ := hledger.packages_eq htransaction hscope
  have hbound : (packageScopes names options.network
      (partEventsFromTransaction tx scope).events).length ≤ maxPackages := by
    rw [← ncard_packageSet hoptions.names htransaction.wellFormed]
    exact hpackages
  refine ⟨_, _, readPackages_eq_ok_iff.mpr ⟨maxEvents, maxPackages, names, hoptions, hcount,
    hledger.wellFormed, hscopes ▸ hbound, rfl⟩, readPackages_eq_ok_iff.mpr ⟨maxEvents, maxPackages,
    names, hoptions, hcount', htransaction.wellFormed, hbound, rfl⟩, hequal⟩

/-- A call that logs one value, applied after an event of another kind: both sources show its
package. -/
theorem sources_agree_one_call :
    let contract := List.replicate 64 (hexUnit 10)
    let name : Bytes := List.replicate 32 7
    let value := name ++ List.replicate 256 1
    let tx : Transaction :=
      { intents := InsertionMap.empty.set 5 (emissionIntent contract (js "emitPart") [value])
        fallibleOffer := .empty, ownHash := some (js "aa"), identifiers := [], serialize := [] }
    let log := EventDetails.contractLog contract (js "misc") (.cell [.atom (.bytes 288)] [value])
    let events : List LedgerEvent :=
      [⟨.other (js "zswapOutput"), js "aa", 0⟩, ⟨log, js "aa", 5⟩]
    let options : ReadOptions := ⟨[⟨contract, .bytes name⟩], none, none⟩
    ∃ fromLedger fromTransaction,
      readPackages (partEventsFromLedgerEvents events ⟨js "net", none, none⟩).events options =
        .ok fromLedger ∧
      readPackages (partEventsFromTransaction tx ⟨js "net", contract, js "aa"⟩).events options =
        .ok fromTransaction ∧
      fromLedger.packages.map Package.unnumbered =
        fromTransaction.packages.map Package.unnumbered := by
  intro contract name value tx log events options
  have hlogs : ledgerLogs tx = [⟨contract, 5, .ok ⟨10, .cell [.atom (.bytes 288)] [value]⟩⟩] := rfl
  have happlied : Applied tx (js "aa") events := by
    rw [Applied, hlogs]
    refine List.Forall₂.cons ⟨rfl, rfl, _, _, rfl, fun logged hlogged => ?_⟩ List.Forall₂.nil
    cases hlogged
    exact ⟨rfl, by simp⟩
  have hoptions : options.Accepts 4096 1024 (singleName contract name) :=
    ⟨rfl, by simp [options], optInNames_single.mpr ⟨by decide +kernel, name, rfl, rfl⟩⟩
  have hpackages : (options.packageSet
      (partEventsFromTransaction tx ⟨js "net", contract, js "aa"⟩).events).ncard ≤ 1024 := by
    have hwell : ∀ e ∈ (partEventsFromTransaction tx ⟨js "net", contract, js "aa"⟩).events,
        e.WellFormed := fun e he =>
      wellFormed_of_mem_events (by decide) (by decide) (by decide) (by decide +kernel) he
    rw [ncard_packageSet hoptions.names hwell]
    decide +kernel
  exact sources_agree happlied rfl rfl (by simp) (by decide +kernel) (by decide +kernel)
    (by decide) (by decide) (by decide) (by decide) hoptions (by simp [options])
    (by decide +kernel) (by decide +kernel) hpackages

end MultiPartEvent
