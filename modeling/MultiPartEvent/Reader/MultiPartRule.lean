import MultiPartEvent.Reader.Merging

/-!
# The multi-part rule

What the reader is for, in terms of the events alone: `ReadOptions.IsPart e s` says that the
event `e` is a part of the package `s`, and `ReadOptions.ObeysRule` says that an output holds
exactly the packages of the events, each merged in position order.  `readPackages_rule` is the
connection: the reader refuses exactly the inputs beyond its bounds or with invalid source
fields, and every output it returns obeys the rule.
-/

namespace MultiPartEvent

/-- The first 32 bytes of a value, zero-extended: the event's name. -/
def PartEvent.head (e : PartEvent) : Bytes := zeroExtend 32 (e.value.take 32)

/-- The value of an event restored to its full width. -/
def PartEvent.full (e : PartEvent) : Bytes := zeroExtend 288 e.value

/-- The event `e` is opted in and belongs to the package `s`. -/
structure ReadOptions.IsPart (options : ReadOptions) (e : PartEvent) (s : Scope) : Prop where
  network : e.network = s.network
  contract : e.contract = s.contract
  name : e.head = s.name
  transactionHash : e.transactionHash = s.transactionHash
  segment : e.segment = .int s.segment
  /-- The pair of contract and name is configured. -/
  optedIn : ∃ o ∈ options.optIns, o.contract = e.contract ∧ eventName o.name = .ok e.head
  /-- The event is of the configured network, when one is. -/
  ofNetwork : ∀ n, options.network = some n → e.network = n

/-- The packages that have a part among the events. -/
def ReadOptions.packageSet (options : ReadOptions) (events : List PartEvent) : Set Scope :=
  {s | ∃ e ∈ events, options.IsPart e s}

/-! ### Opted-in names -/

/-- The names of a contract after one more opt-in. -/
lemma addOptIn_eq_ok_iff {names names' : InsertionMap JsString (List Bytes)} {o : OptIn} :
    addOptIn names o = .ok names' ↔ isAddress o.contract = true ∧ ∃ name,
      eventName o.name = .ok name ∧
        names' = names.upsert o.contract (fun list => list.getD [] ++ [name]) := by
  simp only [addOptIn, bind_eq_ok_iff, throwIf_eq_ok_iff, pure_eq_ok_iff, Bool.not_eq_false]
  constructor
  · rintro ⟨-, haddress, name, hname, rfl⟩
    exact ⟨haddress, name, hname, rfl⟩
  · rintro ⟨haddress, name, hname, rfl⟩
    exact ⟨(), haddress, name, hname, rfl⟩

/-- The names of a contract after the loop over the opt-ins. -/
lemma mem_foldlM_addOptIn {optIns : List OptIn} {names names' : InsertionMap JsString (List Bytes)}
    (h : optIns.foldlM addOptIn names = .ok names') (contract : JsString) (name : Bytes) :
    name ∈ (names'.get? contract).getD [] ↔ name ∈ (names.get? contract).getD [] ∨
      ∃ o ∈ optIns, o.contract = contract ∧ eventName o.name = .ok name := by
  induction optIns generalizing names with
  | nil =>
    rw [List.foldlM_nil, pure_eq_ok_iff] at h
    simp [h]
  | cons o optIns ih =>
    rw [List.foldlM_cons, bind_eq_ok_iff] at h
    obtain ⟨next, hnext, h⟩ := h
    obtain ⟨-, added, hadded, rfl⟩ := addOptIn_eq_ok_iff.mp hnext
    rw [ih h, InsertionMap.upsert, InsertionMap.get?_set]
    simp only [List.mem_cons, exists_eq_or_imp, hadded, Except.ok.injEq]
    by_cases hc : contract = o.contract
    · subst hc
      simp [or_assoc, eq_comm]
    · simp [hc, Ne.symm hc]

/-- The configured names of a contract. -/
lemma mem_optInNames {optIns : List OptIn} {names : InsertionMap JsString (List Bytes)}
    (h : optInNames optIns = .ok names) (contract : JsString) (name : Bytes) :
    name ∈ (names.get? contract).getD [] ↔
      ∃ o ∈ optIns, o.contract = contract ∧ eventName o.name = .ok name := by
  simpa using mem_foldlM_addOptIn h contract name

/-- An event is opted in exactly when its name is one of its contract's. -/
lemma optedInName_eq_some_iff {names : InsertionMap JsString (List Bytes)}
    {network : Option JsString} {e : PartEvent} {name : Bytes} :
    optedInName names network e = some name ↔
      name = e.head ∧ name ∈ (names.get? e.contract).getD [] ∧ ∀ n, network = some n →
        e.network = n := by
  unfold optedInName
  cases hcandidates : names.get? e.contract with
  | none => simp
  | some candidates =>
    have hfind : candidates.find? (fun candidate => bytesEqual candidate e.head) = some name ↔
        name = e.head ∧ name ∈ candidates := by
      constructor
      · intro h
        have hequal := List.find?_some h
        exact ⟨bytesEqual_iff.mp hequal, List.mem_of_find?_eq_some h⟩
      · rintro ⟨rfl, hmem⟩
        cases hfound : candidates.find? (fun candidate => bytesEqual candidate e.head) with
        | none => exact absurd (bytesEqual_iff.mpr rfl) (List.find?_eq_none.mp hfound _ hmem)
        | some found =>
          have hequal := List.find?_some hfound
          rw [bytesEqual_iff.mp hequal]
    cases network with
    | none => simpa [PartEvent.head] using hfind
    | some n =>
      by_cases hn : e.network = n
      · simpa [PartEvent.head, hn] using hfind
      · simp [hn]

/-- The scope the reader assigns to a well-formed event is the package it is a part of. -/
theorem scopeOf_eq_some_iff {options : ReadOptions} {names : InsertionMap JsString (List Bytes)}
    (hnames : optInNames options.optIns = .ok names) {e : PartEvent} (he : e.WellFormed)
    {s : Scope} : scopeOf names options.network e = some s ↔ options.IsPart e s := by
  obtain ⟨k, hk, hlow, hhigh⟩ := he.segment
  have hsegment : e.segmentNat = k := by
    rw [PartEvent.segmentNat, hk, JsNumber.inRange_int hlow hhigh, Option.getD_some]
  simp only [scopeOf, Option.map_eq_some_iff, optedInName_eq_some_iff, mem_optInNames hnames]
  constructor
  · rintro ⟨name, ⟨rfl, hopted, hnetwork⟩, rfl⟩
    exact ⟨rfl, rfl, rfl, rfl, by rw [hk, hsegment], hopted, hnetwork⟩
  · rintro ⟨hnetwork, hcontract, hname, hhash, hsegment', hopted, hof⟩
    refine ⟨e.head, ⟨rfl, hopted, hof⟩, ?_⟩
    have hs : k = s.segment := by
      rw [hk, JsNumber.int.injEq] at hsegment'
      exact Int.ofNat.inj hsegment'
    rw [hnetwork, hcontract, hname, hhash, hsegment, hs]

/-- The set of packages of well-formed events is the set of scopes the reader collects. -/
lemma packageSet_eq {options : ReadOptions} {names : InsertionMap JsString (List Bytes)}
    (hnames : optInNames options.optIns = .ok names) {events : List PartEvent}
    (hwell : ∀ e ∈ events, e.WellFormed) :
    options.packageSet events = {s | s ∈ packageScopes names options.network events} := by
  ext s
  simp only [ReadOptions.packageSet, Set.mem_ofPred_eq, mem_packageScopes]
  refine exists_congr fun e => and_congr_right fun he => ?_
  exact (scopeOf_eq_some_iff hnames (hwell e he)).symm

/-- The number of packages of well-formed events. -/
lemma ncard_packageSet {options : ReadOptions} {names : InsertionMap JsString (List Bytes)}
    (hnames : optInNames options.optIns = .ok names) {events : List PartEvent}
    (hwell : ∀ e ∈ events, e.WellFormed) :
    (options.packageSet events).ncard = (packageScopes names options.network events).length := by
  have hset : options.packageSet events =
      ((packageScopes names options.network events).toFinset : Set Scope) := by
    rw [packageSet_eq hnames hwell]
    ext s
    simp
  rw [hset, Set.ncard_coe_finset, List.toFinset_card_of_nodup (nodup_packageScopes events)]

/-! ### The rule -/

open scoped Classical in
/-- The output holds exactly the packages of the events, each merged in position order. -/
structure ReadOptions.ObeysRule (options : ReadOptions) (events : List PartEvent)
    (output : ReadOutput) : Prop where
  /-- There is a package for every group, and no other. -/
  packages : {s | ∃ p ∈ output.packages, p.scope = s} = options.packageSet events
  /-- The packages are strictly sorted, so no group has two. -/
  sorted : output.packages.Pairwise (fun p q => p.scope.key < q.scope.key)
  /-- The other events are counted as ignored. -/
  ignored : output.ignored = events.countP (fun e => ∀ s, ¬options.IsPart e s)
  /-- Every event is counted once. -/
  counted : output.ignored + (output.packages.map Package.deliveries).sum = events.length
  /-- A package is rejected exactly for an over-long value or two contents at one position. -/
  rejected : ∀ p ∈ output.packages, p.status = .rejected ↔
    (∃ e ∈ events, options.IsPart e p.scope ∧ 288 < e.value.length) ∨
      ∃ e ∈ events, ∃ e' ∈ events, options.IsPart e p.scope ∧ options.IsPart e' p.scope ∧
        e.position = e'.position ∧ e.full ≠ e'.full
  /-- The positions of an accepted package are the distinct positions, ascending. -/
  positions : ∀ p ∈ output.packages, p.status = .accepted → p.positions.Pairwise (· < ·) ∧
    ∀ n : ℕ, n ∈ p.positions ↔ ∃ e ∈ events, options.IsPart e p.scope ∧ e.position = .int n
  /-- Its payload is the concatenation of the payloads at these positions. -/
  payload : ∀ p ∈ output.packages, p.status = .accepted →
    List.Forall₂ (fun (n : ℕ) part => ∀ e ∈ events, options.IsPart e p.scope →
      e.position = .int n → part = e.full.drop 32) p.positions p.parts ∧
    p.payload = some p.parts.flatten

section Rule

variable {options : ReadOptions} {names : InsertionMap JsString (List Bytes)}
  {events : List PartEvent}

/-- A package counts the events of its scope. -/
lemma length_eventsOf (events : List PartEvent) (s : Scope) :
    (eventsOf names options.network events s).length =
      (events.filterMap (scopeOf names options.network)).count s := by
  rw [eventsOf, ← List.countP_eq_length_filter, List.count_filterMap]
  exact List.countP_congr fun e _ => by simp

/-- Every event is either untouched or delivered to one package. -/
lemma ignored_add_sum_deliveries (events : List PartEvent) :
    (readOutput names options.network events).ignored +
      ((readOutput names options.network events).packages.map Package.deliveries).sum =
      events.length := by
  have hdeliveries : (readOutput names options.network events).packages.map Package.deliveries =
      (packageScopes names options.network events).map fun s =>
        (events.filterMap (scopeOf names options.network)).count s := by
    simp only [readOutput, List.map_map]
    refine List.map_congr_left fun s _ => ?_
    simp [groupOf, length_eventsOf]
  have hperm := (sortBy_perm compareScopes
    (events.filterMap (scopeOf names options.network)).dedup).map fun s =>
      (events.filterMap (scopeOf names options.network)).count s
  rw [hdeliveries, packageScopes, hperm.sum_eq, List.sum_map_count_dedup_eq_length,
    List.length_filterMap_eq_countP, readOutput, ← List.countP_eq_length_filter, Nat.add_comm]
  have hsplit := List.length_eq_countP_add_countP
    (fun e => (scopeOf names options.network e).isSome) (l := events)
  rw [hsplit]
  congr 1
  exact List.countP_congr fun e _ => by simp

/-- The delivery of an event is malformed exactly for an over-long value, and else carries the
value restored to its full width. -/
lemma deliveryOf_value (e : PartEvent) (p : ℕ) :
    (e.value.length ≤ 288 ∧ (deliveryOf e p).value = .ok e.full) ∨
      (288 < e.value.length ∧ ∃ m, (deliveryOf e p).value = .error m) := by
  rcases Nat.lt_or_ge 288 e.value.length with h | h
  · refine Or.inr ⟨h, ?_⟩
    unfold deliveryOf restoreEventValue
    rw [if_pos (by simpa using h)]
    exact ⟨_, rfl⟩
  · refine Or.inl ⟨h, ?_⟩
    rw [deliveryOf, restoreEventValue_ok h]
    rfl

/-- The delivery of an event carries a value exactly when the value fits. -/
lemma deliveryOf_value_eq_ok_iff {e : PartEvent} {p : ℕ} {v : Bytes} :
    (deliveryOf e p).value = .ok v ↔ e.value.length ≤ 288 ∧ v = e.full := by
  rcases deliveryOf_value e p with ⟨hlen, hvalue⟩ | ⟨hlen, m, hvalue⟩
  · simp [hvalue, hlen, eq_comm]
  · simp [hvalue, hlen]

/-- The position of a well-formed event. -/
lemma PartEvent.WellFormed.position_eq {e : PartEvent} (he : e.WellFormed) :
    e.position = .int e.positionNat := by
  obtain ⟨p, hp, hmax⟩ := he.position
  rw [PartEvent.positionNat, hp, JsNumber.inRange_int (Nat.zero_le _) hmax, Option.getD_some]

/-- The segment of a well-formed event. -/
lemma PartEvent.WellFormed.segment_eq {e : PartEvent} (he : e.WellFormed) :
    e.segment = .int e.segmentNat := by
  obtain ⟨s, hs, hlow, hhigh⟩ := he.segment
  rw [PartEvent.segmentNat, hs, JsNumber.inRange_int hlow hhigh, Option.getD_some]

/-- A group of events is consistent exactly when every value fits and the values at one
position agree. -/
lemma consistent_groupOf_iff {s : Scope} :
    (groupOf names options.network events s).Consistent ↔
      (∀ e ∈ eventsOf names options.network events s, e.value.length ≤ 288) ∧
        ∀ e ∈ eventsOf names options.network events s,
          ∀ e' ∈ eventsOf names options.network events s,
            e.positionNat = e'.positionNat → e.full = e'.full := by
  simp only [Group.Consistent, groupOf, List.forall_mem_map, deliveryOf_value_eq_ok_iff,
    exists_and_left, exists_eq, and_true]
  refine and_congr_right fun hfits => ?_
  refine forall₂_congr fun e he => forall₂_congr fun e' he' => ?_
  have hvalue : (deliveryOf e e.positionNat).value = .ok e.full :=
    deliveryOf_value_eq_ok_iff.mpr ⟨hfits e he, rfl⟩
  have hvalue' : (deliveryOf e' e'.positionNat).value = .ok e'.full :=
    deliveryOf_value_eq_ok_iff.mpr ⟨hfits e' he', rfl⟩
  rw [hvalue, hvalue']
  simp [deliveryOf, Except.toOption]

/-- Every output of the reader obeys the rule. -/
lemma obeysRule_readOutput (hnames : optInNames options.optIns = .ok names)
    (hwell : ∀ e ∈ events, e.WellFormed) :
    options.ObeysRule events (readOutput names options.network events) := by
  have hmem : ∀ {s : Scope} {e : PartEvent}, e ∈ eventsOf names options.network events s ↔
      e ∈ events ∧ options.IsPart e s := by
    intro s e
    simp only [eventsOf, List.mem_filter, decide_eq_true_eq]
    exact and_congr_right fun he => scopeOf_eq_some_iff hnames (hwell e he)
  have hposition : ∀ e ∈ events, ∀ n : ℕ, e.position = .int n ↔ e.positionNat = n := by
    intro e he n
    rw [(hwell e he).position_eq, JsNumber.int.injEq]
    exact Int.ofNat_inj
  have hpackage : ∀ p ∈ (readOutput names options.network events).packages,
      p = evaluate (groupOf names options.network events p.scope) := by
    intro p hp
    obtain ⟨s, -, rfl⟩ := List.mem_map.mp hp
    rfl
  refine ⟨?_, ?_, ?_, ignored_add_sum_deliveries events, ?_, ?_, ?_⟩
  · rw [packageSet_eq hnames hwell]
    ext s
    simp [readOutput, groupOf]
  · exact List.pairwise_map.mpr (packageScopes_pairwise events)
  · rw [readOutput, ← List.countP_eq_length_filter]
    refine List.countP_congr fun e he => ?_
    simp only [Option.isNone_iff_eq_none, decide_eq_true_eq, Option.eq_none_iff_forall_ne_some]
    exact forall_congr' fun s => not_congr (scopeOf_eq_some_iff hnames (hwell e he))
  · intro p hp
    have hstatus : p.status = .rejected ↔
        ¬(groupOf names options.network events p.scope).Consistent := by
      rw [← evaluate_status, ← hpackage p hp]
      cases p.status <;> simp
    rw [hstatus, consistent_groupOf_iff, not_and_or]
    refine or_congr ?_ ?_
    · simp only [not_forall, not_le, hmem, exists_prop, and_assoc]
    · simp only [not_forall, hmem, exists_prop]
      constructor
      · rintro ⟨e, ⟨he, hpart⟩, e', ⟨he', hpart'⟩, hpos, hne⟩
        refine ⟨e, he, e', he', hpart, hpart', ?_, hne⟩
        rw [(hwell e he).position_eq, (hwell e' he').position_eq, hpos]
      · rintro ⟨e, he, e', he', hpart, hpart', hpos, hne⟩
        refine ⟨e, ⟨he, hpart⟩, e', ⟨he', hpart'⟩, ?_, hne⟩
        rw [← hposition e he, hpos, hposition e' he']
  · intro p hp haccepted
    rw [hpackage p hp] at haccepted ⊢
    have hconsistent := (evaluate_status _).mp haccepted
    refine ⟨evaluate_positions_pairwise _, fun n => ?_⟩
    rw [mem_evaluate_positions, evaluate_scope]
    constructor
    · rintro ⟨d, hd, hn, -⟩
      obtain ⟨e, he, rfl⟩ := List.mem_map.mp hd
      exact ⟨e, (hmem.mp he).1, (hmem.mp he).2, (hposition e (hmem.mp he).1 n).mpr hn⟩
    · rintro ⟨e, he, hpart, hn⟩
      have hd := List.mem_map_of_mem (f := fun e => deliveryOf e e.positionNat)
        (hmem.mpr ⟨he, hpart⟩)
      exact ⟨_, hd, (hposition e he n).mp hn, hconsistent.1 _ hd⟩
  · intro p hp haccepted
    rw [hpackage p hp] at haccepted ⊢
    have hconsistent := (evaluate_status _).mp haccepted
    refine ⟨?_, evaluate_payload hconsistent⟩
    rw [evaluate_parts, List.forall₂_map_right_iff, List.forall₂_same]
    intro n _ e he hpart hn
    have hfits := (consistent_groupOf_iff.mp hconsistent).1 e (hmem.mpr ⟨he, hpart⟩)
    have hd := List.mem_map_of_mem (f := fun e => deliveryOf e e.positionNat)
      (hmem.mpr ⟨he, hpart⟩)
    have hpartAt := hconsistent.partAt_eq hd (deliveryOf_value_eq_ok_iff.mpr ⟨hfits, rfl⟩)
    rw [← hpartAt]
    exact congrArg _ ((hposition e he n).mp hn).symm

/-- **The multi-part rule.**  On valid options the reader refuses, with a `RangeError`, exactly
too many events, invalid source fields and too many packages; every output obeys the rule. -/
theorem readPackages_rule {maxEvents maxPackages : ℕ}
    (hvalid : options.Accepts maxEvents maxPackages names) :
    ((∃ m, readPackages events options = .error (.rangeError m)) ↔
      maxEvents < events.length ∨ (∃ e ∈ events, ¬e.WellFormed) ∨
        maxPackages < (options.packageSet events).ncard) ∧
    (∀ err, readPackages events options = .error err → ∃ m, err = .rangeError m) ∧
    ∀ output, readPackages events options = .ok output → options.ObeysRule events output := by
  have hthrows : (∃ m, readPackages events options = .error (.rangeError m)) ↔
      ∀ output, readPackages events options ≠ .ok output := by
    cases hread : readPackages events options with
    | ok output => simp
    | error err =>
      obtain ⟨m, rfl⟩ := readPackages_error hread
      simp
  refine ⟨?_, fun err h => readPackages_error h, fun output h => ?_⟩
  · rw [hthrows]
    constructor
    · intro hnone
      by_contra hbounds
      simp only [not_or, not_lt, not_exists, not_and, not_not] at hbounds
      obtain ⟨hcount, hwell, hpackages⟩ := hbounds
      rw [ncard_packageSet hvalid.names hwell] at hpackages
      exact hnone _ (readPackages_eq_ok_iff.mpr
        ⟨maxEvents, maxPackages, names, hvalid, hcount, hwell, hpackages, rfl⟩)
    · rintro hbounds output h
      obtain ⟨m, m', names', hvalid', hcount, hwell, hpackages, -⟩ := readPackages_eq_ok_iff.mp h
      obtain ⟨rfl, rfl, rfl⟩ := hvalid.unique hvalid'
      rw [← ncard_packageSet hvalid.names hwell] at hpackages
      rcases hbounds with h | ⟨e, he, hill⟩ | h
      · omega
      · exact hill (hwell e he)
      · omega
  · obtain ⟨m, m', names', hvalid', -, hwell, -, rfl⟩ := readPackages_eq_ok_iff.mp h
    exact obeysRule_readOutput hvalid'.names hwell

/-- Two deliveries of one part are one package that obeys the rule. -/
theorem readPackages_rule_redelivered :
    let contract := List.replicate 64 (hexUnit 10)
    let part : PartEvent :=
      ⟨js "net", contract, js "h", .int 1, .int 0, List.replicate 32 7 ++ [1, 2]⟩
    let options : ReadOptions := ⟨[⟨contract, .bytes (List.replicate 32 7)⟩], none, none⟩
    ∃ output, readPackages [part, part] options = .ok output ∧
      options.ObeysRule [part, part] output := by
  intro contract part options
  have hvalid : options.Accepts 4096 1024 ⟨[(contract, [List.replicate 32 7])], by simp⟩ :=
    ⟨rfl, by simp [options], rfl⟩
  have hreads : (readPackages [part, part] options).isOk = true := by decide +kernel
  cases hread : readPackages [part, part] options with
  | error err => rw [hread] at hreads; cases hreads
  | ok output => exact ⟨output, rfl, (readPackages_rule hvalid).2.2 output hread⟩

end Rule

end MultiPartEvent
