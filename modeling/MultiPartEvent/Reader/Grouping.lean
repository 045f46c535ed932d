import MultiPartEvent.Reader.Packages

/-!
# The loop of the reader in closed form

`readPackages` walks the events once and grows a map of groups.  Here that loop is unrolled:
the groups are the fibres of `scopeOf` over the opted-in events, one for each distinct scope,
in the order of scopes (`readPackages_eq_ok_iff`).  Everything later is proved from this form;
no later proof unfolds the loop.
-/

namespace MultiPartEvent

/-! ### Keys and order of scopes -/

/-- Different scopes have different group keys. -/
theorem groupKey_injective : Function.Injective groupKey := by
  intro s t h
  simp only [groupKey, Json.stringify, stringifyItems, joinWith, List.append_assoc,
    List.append_cancel_left_eq] at h
  obtain ⟨hnetwork, h⟩ := quote_append_inj h
  rw [List.append_cancel_left_eq] at h
  obtain ⟨hcontract, h⟩ := quote_append_inj h
  rw [List.append_cancel_left_eq] at h
  obtain ⟨hname, h⟩ := quote_append_inj h
  rw [List.append_cancel_left_eq] at h
  obtain ⟨hhash, h⟩ := quote_append_inj h
  rw [List.append_cancel_left_eq, List.append_cancel_right_eq] at h
  have hsegment : s.segment = t.segment := decimal_injective h
  cases s
  cases t
  simp_all [bytesToHex_injective.eq_iff]

/-- The sort key of a scope. -/
def Scope.key (s : Scope) : JsString ×ₗ JsString ×ₗ Bytes ×ₗ JsString ×ₗ ℕ :=
  toLex (s.network, toLex (s.contract, toLex (s.name, toLex (s.transactionHash, s.segment))))

/-- The sort key determines the scope. -/
lemma Scope.key_injective : Function.Injective Scope.key := by
  intro s t h
  cases s
  cases t
  simpa [Scope.key] using h

/-- Comparing pairs lexicographically is comparing first parts, then second parts. -/
lemma cmp_toLex {α β : Type*} [LinearOrder α] [LinearOrder β] (a c : α) (b d : β) :
    cmp (toLex (a, b)) (toLex (c, d)) = (cmp a c).then (cmp b d) := by
  rcases lt_trichotomy a c with h | rfl | h
  · rw [(cmp_eq_lt_iff a c).mpr h, Ordering.lt_then, cmp_eq_lt_iff, Prod.Lex.toLex_lt_toLex]
    exact Or.inl h
  · rw [cmp_self_eq_eq, Ordering.eq_then]
    rcases lt_trichotomy b d with h | rfl | h
    · rw [(cmp_eq_lt_iff b d).mpr h, cmp_eq_lt_iff, Prod.Lex.toLex_lt_toLex]
      exact Or.inr ⟨rfl, h⟩
    · simp
    · rw [(cmp_eq_gt_iff b d).mpr h, cmp_eq_gt_iff, Prod.Lex.toLex_lt_toLex]
      exact Or.inr ⟨rfl, h⟩
  · rw [(cmp_eq_gt_iff a c).mpr h, Ordering.gt_then, cmp_eq_gt_iff, Prod.Lex.toLex_lt_toLex]
    exact Or.inl h

/-- The package order is the lexicographic order of scopes: comparing the hex of two names is
comparing the names. -/
theorem compareScopes_eq_cmp (s t : Scope) : compareScopes s t = cmp s.key t.key := by
  simp only [Scope.key, cmp_toLex, compareScopes, compareCodeUnits, compareNumbers,
    bytesToHex_lt_iff, ite_lt_eq_cmp]

/-! ### Events -/

/-- The source fields of an event are valid. -/
structure PartEvent.WellFormed (e : PartEvent) : Prop where
  network : e.network ≠ []
  transactionHash : e.transactionHash ≠ []
  segment : ∃ s : ℕ, e.segment = .int s ∧ 1 ≤ s ∧ s ≤ 65535
  position : ∃ p : ℕ, e.position = .int p ∧ p ≤ maxSafeInteger

/-- The segment of an event as a natural number. -/
def PartEvent.segmentNat (e : PartEvent) : ℕ := (e.segment.inRange 1 65535).getD 0

/-- The position of an event as a natural number. -/
def PartEvent.positionNat (e : PartEvent) : ℕ := (e.position.inRange 0 maxSafeInteger).getD 0

/-- `checkEvent` accepts the well-formed events and reads their segment and position. -/
lemma checkEvent_eq_ok_iff {e : PartEvent} {i : ℕ} {r : ℕ × ℕ} :
    checkEvent e i = .ok r ↔ e.WellFormed ∧ r = (e.segmentNat, e.positionNat) := by
  unfold checkEvent
  constructor
  · intro h
    simp only [List.length_eq_zero_iff] at h
    split_ifs at h with hempty
    rw [not_or] at hempty
    cases hsegment : e.segment.inRange 1 65535 with
    | none => simp [hsegment] at h
    | some s =>
      cases hposition : e.position.inRange 0 maxSafeInteger with
      | none => simp [hsegment, hposition] at h
      | some p =>
        simp only [hsegment, hposition, Except.ok.injEq] at h
        have hs := JsNumber.inRange_eq_some.mp hsegment
        have hp := JsNumber.inRange_eq_some.mp hposition
        refine ⟨⟨hempty.1, hempty.2, ⟨s, hs⟩, ⟨p, hp.1, hp.2.2⟩⟩, ?_⟩
        simp [PartEvent.segmentNat, PartEvent.positionNat, hsegment, hposition, ← h]
  · rintro ⟨⟨hnetwork, hhash, ⟨s, hs⟩, ⟨p, hp⟩⟩, rfl⟩
    have hsegment : e.segment.inRange 1 65535 = some s := JsNumber.inRange_eq_some.mpr hs
    have hposition : e.position.inRange 0 maxSafeInteger = some p :=
      JsNumber.inRange_eq_some.mpr ⟨hp.1, Nat.zero_le _, hp.2⟩
    simp [hnetwork, hhash, hsegment, hposition, PartEvent.segmentNat, PartEvent.positionNat]

/-- `checkEvent` throws nothing but range errors. -/
lemma checkEvent_error {e : PartEvent} {i : ℕ} {err : JsError} (h : checkEvent e i = .error err) :
    ∃ m, err = .rangeError m := by
  unfold checkEvent at h
  split_ifs at h
  · exact ⟨_, by cases h; rfl⟩
  · cases hsegment : e.segment.inRange 1 65535 with
    | none => exact ⟨_, by simpa [hsegment, eq_comm] using h⟩
    | some s =>
      cases hposition : e.position.inRange 0 maxSafeInteger with
      | none => exact ⟨_, by simpa [hsegment, hposition, eq_comm] using h⟩
      | some p => simp [hsegment, hposition] at h

/-! ### Scopes and groups of a list of events -/

section Groups

variable (names : InsertionMap JsString (List Bytes)) (network : Option JsString)

/-- The package an event belongs to, or `none` for an event left untouched. -/
def scopeOf (e : PartEvent) : Option Scope :=
  (optedInName names network e).map fun name =>
    ⟨e.network, e.contract, name, e.transactionHash, e.segmentNat⟩

/-- The events of one package. -/
def eventsOf (events : List PartEvent) (scope : Scope) : List PartEvent :=
  events.filter (fun e => scopeOf names network e = some scope)

/-- The group of one package. -/
def groupOf (events : List PartEvent) (scope : Scope) : Group :=
  ⟨scope, (eventsOf names network events scope).map fun e => deliveryOf e e.positionNat⟩

/-- The distinct scopes of the opted-in events, in package order. -/
def packageScopes (events : List PartEvent) : List Scope :=
  sortBy compareScopes (events.filterMap (scopeOf names network)).dedup

/-- The output of the reader on well-formed events within the bounds. -/
def readOutput (events : List PartEvent) : ReadOutput where
  packages := (packageScopes names network events).map fun scope =>
    evaluate (groupOf names network events scope)
  ignored := (events.filter (fun e => (scopeOf names network e).isNone)).length

/-- The scope and the delivery of each opted-in event. -/
def scopedDeliveries (events : List PartEvent) : List (Scope × Delivery) :=
  events.filterMap fun e =>
    (scopeOf names network e).map fun scope => (scope, deliveryOf e e.positionNat)

/-- Add a delivery to the group of its scope. -/
def addDelivery (group : Option Group) (item : Scope × Delivery) : Group where
  scope := (group.map Group.scope).getD item.1
  deliveries := (group.map Group.deliveries).getD [] ++ [item.2]

/-- The groups after the loop, from the groups before it. -/
def collectGroups (groups : InsertionMap JsString Group) (items : List (Scope × Delivery)) :
    InsertionMap JsString Group :=
  groups.collect (fun item => groupKey item.1) addDelivery items

variable {names network}

/-- A scope occurs exactly when some event has it. -/
@[simp] lemma mem_packageScopes {events : List PartEvent} {scope : Scope} :
    scope ∈ packageScopes names network events ↔
      ∃ e ∈ events, scopeOf names network e = some scope := by
  simp [packageScopes]

/-- The scopes are strictly increasing. -/
lemma packageScopes_pairwise (events : List PartEvent) :
    (packageScopes names network events).Pairwise (fun s t => s.key < t.key) :=
  sortBy_pairwise_lt compareScopes_eq_cmp (List.nodup_dedup _) fun _ _ _ _ h =>
    Scope.key_injective h

/-- Events with the same packages list them alike. -/
lemma packageScopes_congr {events events' : List PartEvent}
    (h : ∀ s, s ∈ packageScopes names network events ↔ s ∈ packageScopes names network events') :
    packageScopes names network events = packageScopes names network events' := by
  have hsorted : ∀ l : List PartEvent,
      ((packageScopes names network l).map Scope.key).Pairwise (· < ·) := fun l =>
    List.pairwise_map.mpr (packageScopes_pairwise l)
  have hkeys : (packageScopes names network events).map Scope.key =
      (packageScopes names network events').map Scope.key :=
    List.Pairwise.eq_of_mem_iff (hsorted events) (hsorted events') fun k => by
      simp only [List.mem_map, h]
  exact List.map_injective_iff.mpr Scope.key_injective hkeys

/-- The scopes are sorted by the package order. -/
lemma compareScopes_pairwise (events : List PartEvent) :
    (packageScopes names network events).Pairwise (fun s t => compareScopes s t ≠ .gt) := by
  refine (packageScopes_pairwise events).imp fun {s t} h => ?_
  rw [compareScopes_eq_cmp, ne_eq, cmp_eq_gt_iff]
  exact h.not_gt

/-- No scope occurs twice. -/
lemma nodup_packageScopes (events : List PartEvent) : (packageScopes names network events).Nodup :=
  (sortBy_perm _ _).nodup_iff.mpr (List.nodup_dedup _)

/-! ### The loop over the events -/

variable (names network) in
/-- One well-formed event, without the bound on new groups. -/
def stepState (s : ReaderState) (e : PartEvent) : ReaderState :=
  match scopeOf names network e with
  | none => { s with ignored := s.ignored + 1 }
  | some scope =>
    let add := fun group => addDelivery group (scope, deliveryOf e e.positionNat)
    { s with groups := s.groups.upsert (groupKey scope) add }

/-- Adding a delivery to the group `openGroup` returns is adding it to the entry of the map,
and keeps the bound. -/
lemma openGroup_eq_ok_iff {groups : InsertionMap JsString Group} {maxPackages : ℕ} {scope : Scope}
    {group : Group} (hsize : groups.size ≤ maxPackages) (delivery : Delivery) :
    openGroup groups maxPackages scope = .ok group ↔
      group = (groups.get? (groupKey scope)).getD ⟨scope, []⟩ ∧
        (groups.set (groupKey scope) (addDelivery (some group) (scope, delivery))).size ≤
          maxPackages := by
  unfold openGroup
  rw [InsertionMap.size_set]
  cases hg : groups.get? (groupKey scope) with
  | some g =>
    rw [if_pos (InsertionMap.mem_keys_iff.mpr ⟨g, hg⟩)]
    simp [hsize, eq_comm]
  | none =>
    rw [if_neg (InsertionMap.get?_eq_none_iff.mp hg)]
    by_cases hfull : groups.size ≥ maxPackages
    · simp only [if_pos hfull, reduceCtorEq, false_iff, not_and]
      intro _
      omega
    · simp only [if_neg hfull, Except.ok.injEq, Option.getD_none]
      constructor
      · rintro rfl
        exact ⟨rfl, by omega⟩
      · rintro ⟨rfl, -⟩
        rfl

/-- One event is accepted exactly when it is well formed and stays within the bound. -/
lemma readEvent_eq_ok_iff {maxPackages : ℕ} {s s' : ReaderState} {e : PartEvent} {i : ℕ}
    (hsize : s.groups.size ≤ maxPackages) :
    readEvent names network maxPackages s (e, i) = .ok s' ↔
      e.WellFormed ∧ s' = stepState names network s e ∧ s'.groups.size ≤ maxPackages := by
  simp only [readEvent, bind_eq_ok_iff, checkEvent_eq_ok_iff, stepState]
  cases hname : optedInName names network e with
  | none =>
    simp only [pure_eq_ok_iff, scopeOf, hname, Option.map_none]
    constructor
    · rintro ⟨-, ⟨hwell, rfl⟩, rfl⟩
      exact ⟨hwell, rfl, hsize⟩
    · rintro ⟨hwell, rfl, -⟩
      exact ⟨_, ⟨hwell, rfl⟩, rfl⟩
  | some name =>
    simp only [scopeOf, hname, Option.map_some, bind_eq_ok_iff, pure_eq_ok_iff]
    -- the group added to is the entry of the map, or the new group of the scope
    have hadd : ∀ scope delivery, addDelivery (s.groups.get? (groupKey scope)) (scope, delivery) =
        addDelivery (some ((s.groups.get? (groupKey scope)).getD ⟨scope, []⟩)) (scope,
          delivery) := by
      intro scope delivery
      cases s.groups.get? (groupKey scope) <;> rfl
    constructor
    · rintro ⟨-, ⟨hwell, rfl⟩, group, hgroup, rfl⟩
      obtain ⟨rfl, hsize'⟩ :=
        (openGroup_eq_ok_iff hsize (deliveryOf e e.positionNat)).mp hgroup
      exact ⟨hwell, by rw [InsertionMap.upsert, hadd]; rfl, hsize'⟩
    · rintro ⟨hwell, rfl, hsize'⟩
      rw [InsertionMap.upsert, hadd] at hsize' ⊢
      exact ⟨_, ⟨hwell, rfl⟩, _,
        (openGroup_eq_ok_iff hsize (deliveryOf e e.positionNat)).mpr ⟨rfl, hsize'⟩, rfl⟩

/-- `readEvent` throws nothing but range errors. -/
lemma readEvent_error {maxPackages : ℕ} {s : ReaderState} {item : PartEvent × ℕ} {err : JsError}
    (h : readEvent names network maxPackages s item = .error err) : ∃ m, err = .rangeError m := by
  simp only [readEvent, bind_eq_error_iff] at h
  rcases h with h | ⟨r, -, h⟩
  · exact checkEvent_error h
  · split at h
    · simp at h
    · simp only [bind_eq_error_iff, pure_ne_error, and_false, exists_false, or_false,
        openGroup] at h
      split at h
      · cases h
      · split_ifs at h
        cases h
        exact ⟨_, rfl⟩

/-- A step never removes a group. -/
lemma size_le_stepState (s : ReaderState) (e : PartEvent) :
    s.groups.size ≤ (stepState names network s e).groups.size := by
  unfold stepState
  cases scopeOf names network e with
  | none => exact le_rfl
  | some scope =>
    simp only [InsertionMap.upsert, InsertionMap.size_set]
    split_ifs <;> omega

/-- Many steps never remove a group. -/
lemma size_le_foldl_stepState (s : ReaderState) (events : List PartEvent) :
    s.groups.size ≤ (events.foldl (stepState names network) s).groups.size := by
  induction events generalizing s with
  | nil => exact le_rfl
  | cons e events ih => exact (size_le_stepState s e).trans (ih _)

/-- The loop accepts a list exactly when every event is well formed and the groups at its end
are within the bound. -/
lemma foldlM_readEvent_eq_ok_iff {maxPackages : ℕ} {s s' : ReaderState} {events : List PartEvent}
    {i : ℕ} (hsize : s.groups.size ≤ maxPackages) :
    (events.zipIdx i).foldlM (readEvent names network maxPackages) s = .ok s' ↔
      (∀ e ∈ events, e.WellFormed) ∧ s' = events.foldl (stepState names network) s ∧
        s'.groups.size ≤ maxPackages := by
  induction events generalizing s i with
  | nil =>
    simp only [List.zipIdx_nil, List.foldlM_nil, pure_eq_ok_iff, List.foldl_nil]
    constructor
    · rintro rfl
      exact ⟨by simp, rfl, hsize⟩
    · rintro ⟨-, rfl, -⟩
      rfl
  | cons e events ih =>
    rw [List.zipIdx_cons, List.foldlM_cons, bind_eq_ok_iff, List.foldl_cons]
    constructor
    · rintro ⟨t, ht, h⟩
      obtain ⟨hwell, rfl, htsize⟩ := (readEvent_eq_ok_iff hsize).mp ht
      obtain ⟨hall, hs', hsize'⟩ := (ih htsize).mp h
      exact ⟨List.forall_mem_cons.mpr ⟨hwell, hall⟩, hs', hsize'⟩
    · rintro ⟨hall, rfl, hsize'⟩
      have htsize : (stepState names network s e).groups.size ≤ maxPackages :=
        (size_le_foldl_stepState _ events).trans hsize'
      obtain ⟨hwell, hall⟩ := List.forall_mem_cons.mp hall
      exact ⟨_, (readEvent_eq_ok_iff hsize).mpr ⟨hwell, rfl, htsize⟩,
        (ih htsize).mpr ⟨hall, rfl, hsize'⟩⟩

/-- The state after the loop: the groups collected, the untouched events counted. -/
lemma foldl_stepState (s : ReaderState) (events : List PartEvent) :
    events.foldl (stepState names network) s =
      ⟨collectGroups s.groups (scopedDeliveries names network events),
        s.ignored + (events.filter (fun e => (scopeOf names network e).isNone)).length⟩ := by
  induction events generalizing s with
  | nil => rfl
  | cons e events ih =>
    rw [List.foldl_cons, ih]
    cases hscope : scopeOf names network e with
    | none => simp [stepState, scopedDeliveries, hscope, Nat.add_assoc, Nat.add_comm 1]
    | some scope => simp [stepState, scopedDeliveries, hscope, collectGroups]

/-! ### The groups -/

/-- The group collected at a key holds the deliveries of that scope, in order. -/
lemma foldl_addDelivery (items : List (Scope × Delivery)) (scope : Scope) (ds : List Delivery)
    (hscope : ∀ item ∈ items, item.1 = scope) :
    items.foldl (fun group item => some (addDelivery group item)) (some ⟨scope, ds⟩) =
      some ⟨scope, ds ++ items.map Prod.snd⟩ := by
  induction items generalizing ds with
  | nil => simp
  | cons item items ih =>
    rw [List.foldl_cons]
    have hstep : addDelivery (some ⟨scope, ds⟩) item = ⟨scope, ds ++ [item.2]⟩ := by
      simp [addDelivery]
    rw [hstep, ih _ fun a ha => hscope a (List.mem_cons_of_mem _ ha)]
    simp

/-- The items of one scope are the deliveries of its events. -/
lemma filter_scopedDeliveries (events : List PartEvent) (scope : Scope) :
    (scopedDeliveries names network events).filter (fun item => item.1 = scope) =
      (eventsOf names network events scope).map fun e => (scope, deliveryOf e e.positionNat) := by
  induction events with
  | nil => rfl
  | cons e events ih =>
    simp only [scopedDeliveries, eventsOf] at ih ⊢
    cases hscope : scopeOf names network e with
    | none => simp [hscope, ih]
    | some s =>
      by_cases hs : s = scope
      · subst hs
        simp [hscope, ih]
      · simp [hscope, hs, ih]

/-- The loop collects, at the key of a scope that occurs, the group of that scope. -/
lemma get?_collectGroups {events : List PartEvent} {scope : Scope}
    (hscope : ∃ e ∈ events, scopeOf names network e = some scope) :
    (collectGroups .empty (scopedDeliveries names network events)).get? (groupKey scope) =
      some (groupOf names network events scope) := by
  have hfilter : (scopedDeliveries names network events).filter
      (fun item => groupKey item.1 = groupKey scope) =
      (eventsOf names network events scope).map fun e => (scope, deliveryOf e e.positionNat) := by
    rw [← filter_scopedDeliveries]
    exact List.filter_congr fun item _ => by simp [groupKey_injective.eq_iff]
  rw [collectGroups, InsertionMap.get?_collect, hfilter, InsertionMap.get?_empty]
  obtain ⟨e, he, hes⟩ := hscope
  have hne : e ∈ eventsOf names network events scope := by simp [eventsOf, he, hes]
  unfold groupOf
  cases hevents : eventsOf names network events scope with
  | nil => simp [hevents] at hne
  | cons e' rest =>
    have hfirst : addDelivery none (scope, deliveryOf e' e'.positionNat) =
        ⟨scope, [deliveryOf e' e'.positionNat]⟩ := by simp [addDelivery]
    rw [List.map_cons, List.foldl_cons, hfirst, foldl_addDelivery]
    · simp
    · simp

/-- The keys the loop collects are those of the scopes that occur. -/
lemma mem_keys_collectGroups {events : List PartEvent} {k : JsString} :
    k ∈ (collectGroups .empty (scopedDeliveries names network events)).keys ↔
      ∃ scope, (∃ e ∈ events, scopeOf names network e = some scope) ∧ groupKey scope = k := by
  rw [collectGroups, InsertionMap.mem_keys_collect]
  simp only [InsertionMap.keys_empty, List.not_mem_nil, false_or, scopedDeliveries,
    List.mem_filterMap, Option.map_eq_some_iff]
  constructor
  · rintro ⟨item, ⟨e, he, scope, hscope, rfl⟩, rfl⟩
    exact ⟨scope, ⟨e, he, hscope⟩, rfl⟩
  · rintro ⟨scope, ⟨e, he, hscope⟩, rfl⟩
    exact ⟨_, ⟨e, he, scope, hscope, rfl⟩, rfl⟩

/-- The groups the loop collects are, in some order, those of the distinct scopes. -/
lemma values_collectGroups_perm (events : List PartEvent) :
    (collectGroups .empty (scopedDeliveries names network events)).values.Perm
      ((packageScopes names network events).map (groupOf names network events)) := by
  have hkeys : (collectGroups .empty (scopedDeliveries names network events)).keys.Perm
      ((packageScopes names network events).map groupKey) := by
    rw [List.perm_ext_iff_of_nodup (InsertionMap.nodup_keys _)
      ((nodup_packageScopes events).map groupKey_injective)]
    intro k
    rw [mem_keys_collectGroups]
    simp
  rw [InsertionMap.values_eq_filterMap]
  refine (hkeys.filterMap _).trans ?_
  rw [List.filterMap_map]
  have hget : ∀ scope ∈ packageScopes names network events,
      ((collectGroups .empty (scopedDeliveries names network events)).get? ∘ groupKey) scope =
        some (groupOf names network events scope) := fun scope hscope =>
    get?_collectGroups (mem_packageScopes.mp hscope)
  rw [List.filterMap_congr hget, List.filterMap_eq_map']

/-- There are as many groups as distinct scopes. -/
lemma size_collectGroups (events : List PartEvent) :
    (collectGroups .empty (scopedDeliveries names network events)).size =
      (packageScopes names network events).length := by
  simpa [InsertionMap.values, InsertionMap.size] using
    (values_collectGroups_perm events).length_eq

/-- Sorting the groups sorts their scopes. -/
lemma sortBy_values_collectGroups (events : List PartEvent) :
    sortBy (fun left right : Group => compareScopes left.scope right.scope)
        (collectGroups .empty (scopedDeliveries names network events)).values =
      (packageScopes names network events).map (groupOf names network events) := by
  have hcompare : ∀ g h : Group, compareScopes g.scope h.scope = cmp g.scope.key h.scope.key :=
    fun g h => compareScopes_eq_cmp _ _
  rw [sortBy_eq_of_perm hcompare (values_collectGroups_perm events),
    ← map_sortBy compareScopes _ (groupOf names network events) (fun _ _ => rfl)]
  · -- the scopes are sorted already
    congr 1
    exact List.Pairwise.insertionSort_eq (compareScopes_pairwise events)
  · intro g hg h hh hkey
    obtain ⟨s, -, rfl⟩ := List.mem_map.mp ((values_collectGroups_perm events).mem_iff.mp hg)
    obtain ⟨t, -, rfl⟩ := List.mem_map.mp ((values_collectGroups_perm events).mem_iff.mp hh)
    exact congrArg _ (Scope.key_injective hkey)

end Groups

/-! ### The reader in closed form -/

/-- The options are valid: the bounds and the opted-in names they configure. -/
structure ReadOptions.Accepts (options : ReadOptions) (maxEvents maxPackages : ℕ)
    (names : InsertionMap JsString (List Bytes)) : Prop where
  limits : validateReaderLimits (options.limits.getD defaultReaderLimits) =
    .ok (maxEvents, maxPackages)
  nonempty : options.optIns ≠ []
  names : optInNames options.optIns = .ok names

/-- The reader returns exactly on valid options, well-formed events and input within the
bounds, and then it returns the packages of the distinct scopes. -/
theorem readPackages_eq_ok_iff {events : List PartEvent} {options : ReadOptions}
    {output : ReadOutput} :
    readPackages events options = .ok output ↔
      ∃ maxEvents maxPackages names, options.Accepts maxEvents maxPackages names ∧
        events.length ≤ maxEvents ∧ (∀ e ∈ events, e.WellFormed) ∧
        (packageScopes names options.network events).length ≤ maxPackages ∧
        output = readOutput names options.network events := by
  simp only [readPackages, bind_eq_ok_iff, throwIf_eq_ok_iff, pure_eq_ok_iff, Prod.exists,
    not_lt, gt_iff_lt, List.length_eq_zero_iff]
  have hpackages : ∀ names, (sortBy (fun left right : Group => compareScopes left.scope right.scope)
      (collectGroups .empty (scopedDeliveries names options.network events)).values).map evaluate =
      (readOutput names options.network events).packages := fun names => by
    rw [sortBy_values_collectGroups, List.map_map]
    rfl
  constructor
  · rintro ⟨maxEvents, maxPackages, hlimits, -, hnonempty, names, hnames, -, hcount, s, hs, rfl⟩
    obtain ⟨hall, rfl, hsize⟩ := (foldlM_readEvent_eq_ok_iff (Nat.zero_le maxPackages)).mp hs
    rw [foldl_stepState] at hsize ⊢
    refine ⟨maxEvents, maxPackages, names, ⟨hlimits, hnonempty, hnames⟩, hcount, hall, ?_, ?_⟩
    · rwa [← size_collectGroups]
    · simp only [hpackages, Nat.zero_add]
      rfl
  · rintro ⟨maxEvents, maxPackages, names, ⟨hlimits, hnonempty, hnames⟩, hcount, hall, hsize, rfl⟩
    refine ⟨maxEvents, maxPackages, hlimits, (), hnonempty, names, hnames, (), hcount,
      events.foldl (stepState names options.network) ⟨.empty, 0⟩,
      (foldlM_readEvent_eq_ok_iff (Nat.zero_le maxPackages)).mpr ⟨hall, rfl, ?_⟩, ?_⟩
    · rw [foldl_stepState]
      simpa only [size_collectGroups] using hsize
    · rw [foldl_stepState]
      simp only [hpackages, Nat.zero_add]
      rfl

/-- A limit that is accepted is a positive safe integer. -/
lemma checkLimit_eq_ok {key : JsString} {value : JsNumber} {n : ℕ}
    (h : checkLimit key value = .ok n) : 1 ≤ n ∧ n ≤ maxSafeInteger := by
  unfold checkLimit at h
  split at h
  · rename_i m hm
    cases h
    exact (JsNumber.inRange_eq_some.mp hm).2
  · cases h

/-- The bounds that are accepted are safe integers. -/
lemma validateReaderLimits_eq_ok {limits : ReaderLimits} {maxEvents maxPackages : ℕ}
    (h : validateReaderLimits limits = .ok (maxEvents, maxPackages)) :
    maxEvents ≤ maxSafeInteger ∧ maxPackages ≤ maxSafeInteger := by
  simp only [validateReaderLimits, bind_eq_ok_iff, pure_eq_ok_iff, Prod.mk.injEq] at h
  obtain ⟨m, hm, m', hm', rfl, rfl⟩ := h
  exact ⟨(checkLimit_eq_ok hm).2, (checkLimit_eq_ok hm').2⟩

/-- Valid options determine the bounds and the names. -/
lemma ReadOptions.Accepts.unique {options : ReadOptions} {maxEvents maxPackages m m' : ℕ}
    {names names' : InsertionMap JsString (List Bytes)}
    (h : options.Accepts maxEvents maxPackages names) (h' : options.Accepts m m' names') :
    m = maxEvents ∧ m' = maxPackages ∧ names' = names := by
  have hlimits := h.limits.symm.trans h'.limits
  have hnames := h.names.symm.trans h'.names
  simp only [Except.ok.injEq, Prod.mk.injEq] at hlimits hnames
  exact ⟨hlimits.1.symm, hlimits.2.symm, hnames.symm⟩

/-! ### The reader throws range errors only -/

/-- `eventName` throws nothing but range errors. -/
lemma eventName_error {input : NameInput} {err : JsError} (h : eventName input = .error err) :
    ∃ m, err = .rangeError m := by
  cases input with
  | bytes b =>
    simp only [eventName] at h
    split_ifs at h
    exact ⟨_, (Except.error.inj h).symm⟩
  | text t =>
    simp only [eventName] at h
    split_ifs at h
    all_goals exact ⟨_, (Except.error.inj h).symm⟩

/-- `checkLimit` throws nothing but range errors. -/
lemma checkLimit_error {key : JsString} {value : JsNumber} {err : JsError}
    (h : checkLimit key value = .error err) : ∃ m, err = .rangeError m := by
  unfold checkLimit at h
  split at h
  · cases h
  · exact ⟨_, (Except.error.inj h).symm⟩

/-- `addOptIn` throws nothing but range errors. -/
lemma addOptIn_error {names : InsertionMap JsString (List Bytes)} {o : OptIn} {err : JsError}
    (h : addOptIn names o = .error err) : ∃ m, err = .rangeError m := by
  simp only [addOptIn, bind_eq_error_iff, throwIf_eq_error_iff, pure_ne_error, and_false,
    exists_false, or_false] at h
  rcases h with ⟨-, h⟩ | ⟨-, -, h⟩
  · exact ⟨_, h.symm⟩
  · exact eventName_error h

/-- `readPackages` throws nothing but range errors. -/
theorem readPackages_error {events : List PartEvent} {options : ReadOptions} {err : JsError}
    (h : readPackages events options = .error err) : ∃ m, err = .rangeError m := by
  simp only [readPackages, validateReaderLimits, bind_eq_error_iff, throwIf_eq_error_iff,
    pure_ne_error, and_false, exists_false, or_false] at h
  rcases h with (h | ⟨-, -, h⟩) | ⟨_, -, hbody⟩
  · exact checkLimit_error h
  · exact checkLimit_error h
  rcases hbody with ⟨-, h⟩ | ⟨_, -, h | ⟨_, -, ⟨-, h⟩ | ⟨_, -, h⟩⟩⟩
  · exact ⟨_, h.symm⟩
  · exact foldlM_error (fun _ _ _ => addOptIn_error) h
  · exact ⟨_, h.symm⟩
  · exact foldlM_error (fun _ _ _ => readEvent_error) h

end MultiPartEvent
