import MultiPartEvent.Reader.Activity
import MultiPartEvent.Reader.MultiPartRule

/-!
# Reading the packages of one (contract, N) from a transaction

The reader input a transaction yields has one package for every segment whose intent logs N,
and that package merges the values named N in emission order.  A package depends on the intent
at its segment only.
-/

namespace MultiPartEvent

/-! ### One opt-in -/

/-- The opted-in names when one (contract, N) is configured. -/
def singleName (contract : JsString) (name : Bytes) : InsertionMap JsString (List Bytes) :=
  InsertionMap.empty.set contract [name]

/-- One (contract, N) is accepted exactly for an address and a valid name. -/
lemma optInNames_single {contract : JsString} {input : NameInput}
    {names : InsertionMap JsString (List Bytes)} :
    optInNames [⟨contract, input⟩] = .ok names ↔ isAddress contract = true ∧ ∃ name,
      eventName input = .ok name ∧ names = singleName contract name := by
  rw [optInNames, List.foldlM_cons, bind_eq_ok_iff]
  simp only [List.foldlM_nil, pure_eq_ok_iff, exists_eq_right, addOptIn_eq_ok_iff]
  simp [singleName, InsertionMap.upsert]

/-- The values of a list that are named N. -/
def named (name : Bytes) (values : List Bytes) : List Bytes :=
  values.filter (fun value => value.take 32 = name)

/-- There are values named N exactly when one of them is. -/
lemma named_ne_nil_iff {name : Bytes} {values : List Bytes} :
    named name values ≠ [] ↔ ∃ value ∈ values, value.take 32 = name := by
  rw [named, ne_eq, List.filter_eq_nil_iff]
  simp

/-- The payloads of the values named N, in order. -/
def namedPayloads (name : Bytes) (values : List Bytes) : List Bytes :=
  (named name values).map (List.drop 32)

/-- Values of which none is named N give no payloads. -/
lemma namedPayloads_eq_nil {name : Bytes} {values : List Bytes}
    (h : ∀ value ∈ values, value.take 32 ≠ name) : namedPayloads name values = [] := by
  have hnone : named name values = [] := by
    by_contra hsome
    obtain ⟨value, hvalue, hname⟩ := named_ne_nil_iff.mp hsome
    exact h value hvalue hname
  rw [namedPayloads, hnone, List.map_nil]

section Extraction

variable {tx : Transaction} {scope : TransactionScope} {name : Bytes} {network : Option JsString}

/-- The package of a segment of the transaction. -/
def TransactionScope.at (scope : TransactionScope) (name : Bytes) (segment : ℕ) : Scope :=
  ⟨scope.network, scope.contract, name, scope.transactionHash, segment⟩

/-- The package the reader finds at a segment of the transaction. -/
def packageAt (tx : Transaction) (scope : TransactionScope) (name : Bytes)
    (network : Option JsString) (segment : ℕ) : Package :=
  evaluate (groupOf (singleName scope.contract name) network
    (partEventsFromTransaction tx scope).events (scope.at name segment))

@[simp] lemma packageAt_segment (segment : ℕ) :
    (packageAt tx scope name network segment).segment = segment := rfl

/-- Different segments have different packages. -/
lemma TransactionScope.at_injective : Function.Injective (scope.at name) := by
  intro s t h
  exact congrArg Scope.segment h

/-- A part event of the transaction comes from a value of the intent at its segment. -/
lemma exists_of_mem_events {e : PartEvent} (h : e ∈ (partEventsFromTransaction tx scope).events) :
    ∃ segment item, item ∈ (valuesAt tx scope.contract segment).zipIdx ∧
      e = numberedEvent scope segment item := by
  obtain ⟨part, -, -, -, -, hsegment, -⟩ := mem_numberParts h
  have hat : e ∈ (partEventsFromTransaction tx scope).events.filter
      (fun e => e.segment = .int part.segment) := by
    simp [h, hsegment]
  rw [partEventsFromTransaction_at] at hat
  obtain ⟨item, hitem, rfl⟩ := List.mem_map.mp hat
  exact ⟨part.segment, item, hitem, rfl⟩

/-- The values of an intent are as many as there are parts, at most. -/
lemma length_valuesAt_le (tx : Transaction) (contract : JsString) (segment : ℕ) :
    (valuesAt tx contract segment).length ≤ (contractActivity tx contract).parts.length := by
  have hat := parts_at tx contract segment
  have hlength : (valuesAt tx contract segment).length =
      ((contractActivity tx contract).parts.filter (fun p => p.segment == segment)).length := by
    rw [hat]
    unfold valuesAt
    cases tx.intents.get? segment <;> simp
  rw [hlength]
  exact List.length_filter_le _ _

/-- The values of an intent have their full width. -/
lemma length_of_mem_valuesAt {contract : JsString} {segment : ℕ} {value : Bytes}
    (h : value ∈ valuesAt tx contract segment) : value.length = 288 := by
  obtain ⟨intent, -, hvalue⟩ := List.mem_flatMap.mp h
  obtain ⟨part, hpart, rfl⟩ := List.mem_map.mp hvalue
  exact length_of_mem_intentParts hpart

/-- A segment that logs a value holds an intent. -/
lemma mem_keys_of_mem_valuesAt {contract : JsString} {segment : ℕ} {value : Bytes}
    (h : value ∈ valuesAt tx contract segment) : segment ∈ tx.intents.keys := by
  obtain ⟨intent, hintent, -⟩ := List.mem_flatMap.mp h
  exact InsertionMap.mem_keys_iff.mpr ⟨intent, by simpa using hintent⟩

/-- The reader input of a transaction is well formed when its scope is not empty, its intents
are at segments 1..65535 and its values can be numbered. -/
lemma wellFormed_of_mem_events (hnetwork : scope.network ≠ []) (hhash : scope.transactionHash ≠ [])
    (hkeys : ∀ s ∈ tx.intents.keys, 1 ≤ s ∧ s ≤ 65535)
    (hcount : (contractActivity tx scope.contract).parts.length ≤ maxSafeInteger)
    {e : PartEvent} (h : e ∈ (partEventsFromTransaction tx scope).events) : e.WellFormed := by
  obtain ⟨segment, ⟨value, position⟩, hitem, rfl⟩ := exists_of_mem_events h
  have hvalue : value ∈ valuesAt tx scope.contract segment := List.fst_mem_of_mem_zipIdx hitem
  have hposition : position < (valuesAt tx scope.contract segment).length :=
    List.snd_lt_of_mem_zipIdx hitem
  have hlength := length_valuesAt_le tx scope.contract segment
  exact ⟨hnetwork, hhash, ⟨segment, rfl, hkeys segment (mem_keys_of_mem_valuesAt hvalue)⟩,
    ⟨position, rfl, by omega⟩⟩

/-- A value of an intent at its place is a part event of the transaction. -/
lemma numberedEvent_mem_events (scope : TransactionScope) {segment : ℕ} {item : Bytes × ℕ}
    (h : item ∈ (valuesAt tx scope.contract segment).zipIdx) :
    numberedEvent scope segment item ∈ (partEventsFromTransaction tx scope).events := by
  have hat : numberedEvent scope segment item ∈
      (partEventsFromTransaction tx scope).events.filter (fun e => e.segment = .int segment) := by
    rw [partEventsFromTransaction_at]
    exact List.mem_map_of_mem h
  exact (List.mem_filter.mp hat).1

/-- The scope of a part event of the transaction: the package of its segment if it is named
N. -/
lemma scopeOf_numberedEvent (hnetwork : ∀ n, network = some n → scope.network = n)
    {segment : ℕ} {item : Bytes × ℕ} (hsegment : 1 ≤ segment ∧ segment ≤ 65535)
    (hwidth : item.1.length = 288) :
    scopeOf (singleName scope.contract name) network (numberedEvent scope segment item) =
      if item.1.take 32 = name then some (scope.at name segment) else none := by
  have hhead : (numberedEvent scope segment item).head = item.1.take 32 := by
    have hlength : (item.1.take 32).length = 32 := by simp [hwidth]
    exact zeroExtend_of_length_eq hlength
  have hnat : (numberedEvent scope segment item).segmentNat = segment := by
    rw [PartEvent.segmentNat, numberedEvent, JsNumber.inRange_int hsegment.1 hsegment.2,
      Option.getD_some]
  have hopted : ∀ n, optedInName (singleName scope.contract name) network
      (numberedEvent scope segment item) = some n ↔ n = item.1.take 32 ∧ n = name := by
    intro n
    rw [optedInName_eq_some_iff, hhead]
    simpa [singleName, InsertionMap.get?_set, numberedEvent] using fun _ _ => hnetwork
  unfold scopeOf
  split_ifs with hname
  · rw [(hopted name).mpr ⟨hname.symm, rfl⟩, Option.map_some, hnat]
    rfl
  · have hnone : optedInName (singleName scope.contract name) network
        (numberedEvent scope segment item) = none := by
      rw [Option.eq_none_iff_forall_ne_some]
      intro n hn
      obtain ⟨rfl, rfl⟩ := (hopted n).mp hn
      exact hname rfl
    rw [hnone, Option.map_none]

/-- The scope of a well-formed part event has its segment. -/
lemma segment_of_scopeOf {names : InsertionMap JsString (List Bytes)} {e : PartEvent} {s : Scope}
    (he : e.WellFormed) (h : scopeOf names network e = some s) : e.segment = .int s.segment := by
  obtain ⟨n, -, rfl⟩ := Option.map_eq_some_iff.mp h
  exact he.segment_eq

/-- The events of one package are among those of its segment: the reader never looks at another
segment for them. -/
lemma eventsOf_eq_of_segment {names : InsertionMap JsString (List Bytes)} {events : List PartEvent}
    (hwell : ∀ e ∈ events, e.WellFormed) (s : Scope) :
    eventsOf names network events s =
      eventsOf names network (events.filter (fun e => e.segment = .int s.segment)) s := by
  unfold eventsOf
  rw [List.filter_filter]
  refine List.filter_congr fun e he => ?_
  by_cases hs : scopeOf names network e = some s
  · simp [hs, segment_of_scopeOf (hwell e he) hs]
  · simp [hs]

section Packages

variable (hnetwork : ∀ n, network = some n → scope.network = n)
  (hwell : ∀ e ∈ (partEventsFromTransaction tx scope).events, e.WellFormed)

/-- A numbered event of a well-formed input is in range. -/
lemma range_of_wellFormed {segment : ℕ} {item : Bytes × ℕ}
    (h : (numberedEvent scope segment item).WellFormed) :
    (1 ≤ segment ∧ segment ≤ 65535) ∧ item.2 ≤ maxSafeInteger := by
  obtain ⟨s, hs, hrange⟩ := h.segment
  obtain ⟨p, hp, hmax⟩ := h.position
  have hsegment : segment = s := Int.ofNat.inj (JsNumber.int.inj hs)
  have hposition : item.2 = p := Int.ofNat.inj (JsNumber.int.inj hp)
  subst hsegment
  exact ⟨hrange, hposition ▸ hmax⟩

include hnetwork hwell

/-- The packages of the transaction are those of the segments that log N. -/
theorem mem_packageScopes_extracted {s : Scope} :
    s ∈ packageScopes (singleName scope.contract name) network
        (partEventsFromTransaction tx scope).events ↔
      ∃ segment, s = scope.at name segment ∧
        named name (valuesAt tx scope.contract segment) ≠ [] := by
  rw [mem_packageScopes]
  constructor
  · intro h
    obtain ⟨e, he, hscope⟩ := h
    obtain ⟨segment, item, hitem, rfl⟩ := exists_of_mem_events he
    have hvalue : item.1 ∈ valuesAt tx scope.contract segment := List.fst_mem_of_mem_zipIdx hitem
    rw [scopeOf_numberedEvent hnetwork (range_of_wellFormed (hwell _ he)).1
      (length_of_mem_valuesAt hvalue)] at hscope
    split_ifs at hscope with hname
    have hmem : item.1 ∈ named name (valuesAt tx scope.contract segment) := by
      simp [named, hvalue, hname]
    exact ⟨segment, (Option.some.inj hscope).symm, List.ne_nil_of_mem hmem⟩
  · intro h
    obtain ⟨segment, rfl, hne⟩ := h
    obtain ⟨value, hvalue⟩ := List.exists_mem_of_ne_nil _ hne
    obtain ⟨hvalue, hname⟩ := List.mem_filter.mp hvalue
    have hnumbered : value ∈ (valuesAt tx scope.contract segment).zipIdx.map Prod.fst := by
      rw [List.zipIdx_map_fst]
      exact hvalue
    obtain ⟨⟨_, position⟩, hposition, rfl⟩ := List.mem_map.mp hnumbered
    have he := numberedEvent_mem_events scope hposition
    refine ⟨_, he, ?_⟩
    rw [scopeOf_numberedEvent hnetwork (range_of_wellFormed (hwell _ he)).1
      (length_of_mem_valuesAt hvalue), if_pos (by simpa using hname)]

/-- The deliveries of a package are the values named N of the intent, at their places. -/
lemma groupOf_extracted (segment : ℕ) :
    (groupOf (singleName scope.contract name) network (partEventsFromTransaction tx scope).events
        (scope.at name segment)).deliveries =
      ((valuesAt tx scope.contract segment).zipIdx.filter (fun item => item.1.take 32 = name)).map
        fun item => ⟨item.2, .ok item.1⟩ := by
  have hat := partEventsFromTransaction_at tx segment scope
  have hevents : eventsOf (singleName scope.contract name) network
      (partEventsFromTransaction tx scope).events (scope.at name segment) =
      ((valuesAt tx scope.contract segment).zipIdx.filter
        (fun item => item.1.take 32 = name)).map (numberedEvent scope segment) := by
    rw [eventsOf_eq_of_segment hwell]
    change eventsOf _ _ (List.filter (fun e => e.segment = .int segment) _) _ = _
    rw [hat, eventsOf, List.filter_map]
    congr 1
    refine List.filter_congr fun item hitem => ?_
    have hmem := numberedEvent_mem_events scope hitem
    have hwidth := length_of_mem_valuesAt (List.fst_mem_of_mem_zipIdx hitem)
    rw [Function.comp_apply,
      scopeOf_numberedEvent hnetwork (range_of_wellFormed (hwell _ hmem)).1 hwidth]
    split_ifs with hname <;> simp [hname]
  rw [groupOf, hevents, List.map_map]
  refine List.map_congr_left fun item hitem => ?_
  obtain ⟨hitem, -⟩ := List.mem_filter.mp hitem
  have hwidth := length_of_mem_valuesAt (List.fst_mem_of_mem_zipIdx hitem)
  have hmem := numberedEvent_mem_events scope hitem
  have hposition : (numberedEvent scope segment item).positionNat = item.2 := by
    rw [PartEvent.positionNat, numberedEvent,
      JsNumber.inRange_int (Nat.zero_le _) (range_of_wellFormed (hwell _ hmem)).2, Option.getD_some]
  have hvalue : (deliveryOf (numberedEvent scope segment item) item.2).value = .ok item.1 := by
    have hfull : (numberedEvent scope segment item).full = item.1 := zeroExtend_of_length_eq hwidth
    rw [deliveryOf_value_eq_ok_iff, hfull]
    exact ⟨hwidth.le, rfl⟩
  rw [Function.comp_apply, hposition]
  calc deliveryOf (numberedEvent scope segment item) item.2
      = ⟨item.2, (deliveryOf (numberedEvent scope segment item) item.2).value⟩ := rfl
    _ = ⟨item.2, .ok item.1⟩ := by rw [hvalue]

/-- The packages the reader finds in the transaction are those of the segments that log N. -/
theorem mem_packages_extracted {pkg : Package} :
    pkg ∈ (readOutput (singleName scope.contract name) network
        (partEventsFromTransaction tx scope).events).packages ↔
      ∃ segment, named name (valuesAt tx scope.contract segment) ≠ [] ∧
        pkg = packageAt tx scope name network segment := by
  rw [readOutput, List.mem_map]
  constructor
  · intro h
    obtain ⟨s, hs, rfl⟩ := h
    obtain ⟨segment, rfl, hne⟩ := (mem_packageScopes_extracted hnetwork hwell).mp hs
    exact ⟨segment, hne, rfl⟩
  · intro h
    obtain ⟨segment, hne, rfl⟩ := h
    exact ⟨scope.at name segment,
      (mem_packageScopes_extracted hnetwork hwell).mpr ⟨segment, rfl, hne⟩, rfl⟩

/-- No two packages of the transaction are at one segment. -/
lemma nodup_segments_extracted :
    ((readOutput (singleName scope.contract name) network
      (partEventsFromTransaction tx scope).events).packages.map Package.segment).Nodup := by
  rw [readOutput, List.map_map]
  refine List.Nodup.map_on (fun s hs t ht heq => ?_) (nodup_packageScopes _)
  obtain ⟨k, rfl, -⟩ := (mem_packageScopes_extracted hnetwork hwell).mp hs
  obtain ⟨l, rfl, -⟩ := (mem_packageScopes_extracted hnetwork hwell).mp ht
  have hkl : k = l := heq
  rw [hkl]

/-- Every package of the transaction is accepted and merges the values named N in emission
order. -/
theorem packageAt_eq (name : Bytes) (segment : ℕ) :
    (packageAt tx scope name network segment).status = .accepted ∧
      (packageAt tx scope name network segment).parts =
        namedPayloads name (valuesAt tx scope.contract segment) ∧
      (packageAt tx scope name network segment).payload =
        some (namedPayloads name (valuesAt tx scope.contract segment)).flatten := by
  let items := ((valuesAt tx scope.contract segment).zipIdx.filter
    (fun item => item.1.take 32 = name)).map Prod.swap
  have hitems : (groupOf (singleName scope.contract name) network
      (partEventsFromTransaction tx scope).events (scope.at name segment)).deliveries =
      items.map fun item => ⟨item.1, .ok item.2⟩ := by
    rw [groupOf_extracted hnetwork hwell, List.map_map]
    rfl
  have hascending : items.Pairwise (fun i j => i.1 < j.1) := by
    refine List.pairwise_map.mpr (List.Pairwise.filter _ ?_)
    have hrange : ((valuesAt tx scope.contract segment).zipIdx.map Prod.snd).Pairwise (· < ·) := by
      rw [List.zipIdx_map_snd]
      exact List.pairwise_lt_range'
    exact List.pairwise_map.mp hrange
  have hpayloads : items.map (fun item => item.2.drop 32) =
      namedPayloads name (valuesAt tx scope.contract segment) := by
    have hfst : (valuesAt tx scope.contract segment).zipIdx.map Prod.fst =
        valuesAt tx scope.contract segment := List.zipIdx_map_fst _ _
    have hfilter : ((valuesAt tx scope.contract segment).zipIdx.filter
        (fun item => item.1.take 32 = name)).map Prod.fst =
        named name (valuesAt tx scope.contract segment) := by
      conv_rhs => rw [named, ← hfst, List.filter_map]
      rfl
    rw [namedPayloads, ← hfilter, List.map_map, List.map_map]
    rfl
  have hmerged := evaluate_of_ascending hitems hascending
  rw [hpayloads] at hmerged
  exact hmerged

/-- There are as many packages as segments that log N. -/
lemma length_packageScopes_extracted :
    (packageScopes (singleName scope.contract name) network
        (partEventsFromTransaction tx scope).events).length =
      {segment | named name (valuesAt tx scope.contract segment) ≠ []}.ncard := by
  let scopes := packageScopes (singleName scope.contract name) network
    (partEventsFromTransaction tx scope).events
  have hset : {segment | named name (valuesAt tx scope.contract segment) ≠ []} =
      Set.preimage (scope.at name) {s | s ∈ scopes} := by
    ext segment
    rw [Set.mem_preimage, Set.mem_ofPred_eq, Set.mem_ofPred_eq,
      mem_packageScopes_extracted hnetwork hwell]
    constructor
    · intro h
      exact ⟨segment, rfl, h⟩
    · intro h
      obtain ⟨s, hs, hne⟩ := h
      exact TransactionScope.at_injective hs ▸ hne
  have hrange : {s | s ∈ scopes} ⊆ Set.range (scope.at name) := by
    intro s hs
    obtain ⟨segment, rfl, -⟩ := (mem_packageScopes_extracted hnetwork hwell).mp hs
    exact Set.mem_range_self segment
  have hfinset : {s | s ∈ scopes} = (scopes.toFinset : Set Scope) := by
    ext s
    simp
  rw [hset, Set.ncard_preimage_of_injective_subset_range TransactionScope.at_injective hrange,
    hfinset, Set.ncard_coe_finset, List.toFinset_card_of_nodup (nodup_packageScopes _)]

end Packages

/-- The reader returns on the reader input of a transaction when the scope is not empty, the
intents are at segments 1..65535 and the limits suffice. -/
theorem readPackages_extracted {input : NameInput} {limits : Option ReaderLimits}
    {maxEvents maxPackages : ℕ} (hnetwork : ∀ n, network = some n → scope.network = n)
    (haddress : isAddress scope.contract = true) (hname : eventName input = .ok name)
    (hempty : scope.network ≠ []) (hhash : scope.transactionHash ≠ [])
    (hkeys : ∀ s ∈ tx.intents.keys, 1 ≤ s ∧ s ≤ 65535)
    (hlimits : validateReaderLimits (limits.getD defaultReaderLimits) =
      .ok (maxEvents, maxPackages))
    (hcount : (contractActivity tx scope.contract).parts.length ≤ maxEvents)
    (hpackages : {segment | named name (valuesAt tx scope.contract segment) ≠ []}.ncard ≤
      maxPackages) :
    (∀ e ∈ (partEventsFromTransaction tx scope).events, e.WellFormed) ∧
      readPackages (partEventsFromTransaction tx scope).events
          ⟨[⟨scope.contract, input⟩], network, limits⟩ =
        .ok (readOutput (singleName scope.contract name) network
          (partEventsFromTransaction tx scope).events) := by
  have hmax : maxEvents ≤ maxSafeInteger := (validateReaderLimits_eq_ok hlimits).1
  have hwell : ∀ e ∈ (partEventsFromTransaction tx scope).events, e.WellFormed := fun e he =>
    wellFormed_of_mem_events hempty hhash hkeys (hcount.trans hmax) he
  refine ⟨hwell, readPackages_eq_ok_iff.mpr ?_⟩
  refine ⟨maxEvents, maxPackages, singleName scope.contract name,
    ⟨hlimits, by simp, optInNames_single.mpr ⟨haddress, name, hname, rfl⟩⟩, ?_, hwell, ?_, rfl⟩
  · rw [partEventsFromTransaction, length_numberParts]
    exact hcount
  · rw [length_packageScopes_extracted hnetwork hwell]
    exact hpackages

end Extraction

end MultiPartEvent
