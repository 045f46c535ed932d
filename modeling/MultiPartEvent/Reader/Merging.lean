import MultiPartEvent.Reader.Grouping

/-!
# The loop over one group

`evaluate` walks the deliveries of a group once, keeps the first value of every position and
records malformed and conflicting deliveries.  The invariant is that a position, once set,
keeps its value; from it the group is accepted exactly when every delivery is well formed and
carries the value kept at its position (`issues_foldl_eq_zero_iff`), and a group delivered in
strictly ascending positions is merged as delivered (`evaluate_of_ascending`).
-/

namespace MultiPartEvent

/-- The state after a list of deliveries. -/
def evaluateDeliveries (s : Evaluation) (ds : List Delivery) : Evaluation :=
  ds.foldl evaluateDelivery s

@[simp] lemma evaluateDeliveries_nil (s : Evaluation) : evaluateDeliveries s [] = s := rfl

@[simp] lemma evaluateDeliveries_cons (s : Evaluation) (d : Delivery) (ds : List Delivery) :
    evaluateDeliveries s (d :: ds) = evaluateDeliveries (evaluateDelivery s d) ds := rfl

/-- The value kept at a position after one delivery. -/
lemma get?_evaluateDelivery (s : Evaluation) (d : Delivery) (p : ℕ) :
    (evaluateDelivery s d).byPosition.get? p =
      (s.byPosition.get? p).or (if d.position = p then d.value.toOption else none) := by
  unfold evaluateDelivery
  cases hvalue : d.value with
  | error m => simp [Except.toOption]
  | ok v =>
    by_cases hp : d.position = p
    · subst hp
      cases hseen : s.byPosition.get? d.position with
      | none => simp [InsertionMap.get?_set, Except.toOption]
      | some seen =>
        simp only
        split_ifs <;> simp [hseen]
    · cases hseen : s.byPosition.get? d.position with
      | none => simp [hp, InsertionMap.get?_set, Ne.symm hp]
      | some seen =>
        simp only [hp, if_false, Option.or_none]
        split_ifs <;> rfl

/-- A position that has a value keeps it. -/
lemma get?_evaluateDeliveries_of_some {s : Evaluation} {ds : List Delivery} {p : ℕ} {v : Bytes}
    (h : s.byPosition.get? p = some v) : (evaluateDeliveries s ds).byPosition.get? p = some v := by
  induction ds generalizing s with
  | nil => exact h
  | cons d ds ih =>
    refine ih ?_
    rw [get?_evaluateDelivery, h]
    rfl

/-- The value kept at a position was there before or is that of a delivery at it. -/
lemma get?_evaluateDeliveries_eq_some {s : Evaluation} {ds : List Delivery} {p : ℕ} {v : Bytes}
    (h : (evaluateDeliveries s ds).byPosition.get? p = some v) :
    s.byPosition.get? p = some v ∨ ∃ d ∈ ds, d.position = p ∧ d.value = .ok v := by
  induction ds generalizing s with
  | nil => exact Or.inl h
  | cons d ds ih =>
    rcases ih h with h | ⟨d', hd', h⟩
    · rw [get?_evaluateDelivery, Option.or_eq_some_iff] at h
      rcases h with h | ⟨-, h⟩
      · exact Or.inl h
      · split_ifs at h with hp
        cases hvalue : d.value with
        | error m => simp [hvalue, Except.toOption] at h
        | ok w =>
          rw [hvalue, Except.toOption, Option.some.injEq] at h
          exact Or.inr ⟨d, List.mem_cons_self, hp, by rw [hvalue, h]⟩
    · exact Or.inr ⟨d', List.mem_cons_of_mem _ hd', h⟩

/-- A position with a well-formed delivery has a value. -/
lemma exists_get?_evaluateDeliveries {s : Evaluation} {ds : List Delivery} {d : Delivery}
    {v : Bytes} (hd : d ∈ ds) (hv : d.value = .ok v) :
    ∃ w, (evaluateDeliveries s ds).byPosition.get? d.position = some w := by
  induction ds generalizing s with
  | nil => cases hd
  | cons d' ds ih =>
    rcases List.mem_cons.mp hd with rfl | hd
    · have hstep : ((evaluateDelivery s d).byPosition.get? d.position).isSome = true := by
        rw [get?_evaluateDelivery]
        simp [hv, Except.toOption]
      obtain ⟨w, hw⟩ := Option.isSome_iff_exists.mp hstep
      exact ⟨w, get?_evaluateDeliveries_of_some (s := evaluateDelivery s d) hw⟩
    · exact ih hd

/-- One delivery raises no issue exactly when it is well formed and carries the value kept at
its position. -/
lemma issues_evaluateDelivery_eq_zero_iff (s : Evaluation) (d : Delivery) :
    (evaluateDelivery s d).issues.size = 0 ↔
      s.issues.size = 0 ∧ ∃ v, d.value = .ok v ∧
        (evaluateDelivery s d).byPosition.get? d.position = some v := by
  have hset : ∀ k, (s.issues.set k ()).size ≠ 0 := fun k => by
    rw [InsertionMap.size_set]
    split_ifs with hk
    · rw [← InsertionMap.length_keys]
      exact (List.length_pos_of_mem hk).ne'
    · omega
  rw [get?_evaluateDelivery]
  unfold evaluateDelivery
  cases hvalue : d.value with
  | error m => simp [hset]
  | ok v =>
    cases hseen : s.byPosition.get? d.position with
    | none => simp [Except.toOption]
    | some seen =>
      simp only [Option.some_or, Except.ok.injEq, Option.some.injEq, exists_eq_left']
      split_ifs with heq
      · simp [bytesEqual_iff.mp heq]
      · rw [bytesEqual_iff] at heq
        simp [hset, heq]

/-- A group raises no issue exactly when every delivery is well formed and carries the value
kept at its position. -/
theorem issues_evaluateDeliveries_eq_zero_iff (s : Evaluation) (ds : List Delivery) :
    (evaluateDeliveries s ds).issues.size = 0 ↔
      s.issues.size = 0 ∧ ∀ d ∈ ds, ∃ v, d.value = .ok v ∧
        (evaluateDeliveries s ds).byPosition.get? d.position = some v := by
  induction ds generalizing s with
  | nil => simp
  | cons d ds ih =>
    rw [evaluateDeliveries_cons, ih, issues_evaluateDelivery_eq_zero_iff, and_assoc,
      List.forall_mem_cons]
    refine and_congr_right fun _ => and_congr_left fun _ => ?_
    refine exists_congr fun v => and_congr_right fun hvalue => ?_
    constructor
    · exact get?_evaluateDeliveries_of_some
    · -- the delivery set its position, if it was not set before
      intro h
      have hstep : ((evaluateDelivery s d).byPosition.get? d.position).isSome = true := by
        rw [get?_evaluateDelivery]
        simp [hvalue, Except.toOption]
      obtain ⟨w, hw⟩ := Option.isSome_iff_exists.mp hstep
      rw [get?_evaluateDeliveries_of_some hw] at h
      rw [hw, h]

/-! ### The package of a group -/

/-- The state at the end of a group. -/
def Group.state (g : Group) : Evaluation := evaluateDeliveries ⟨.empty, .empty⟩ g.deliveries

/-- A group is accepted when every delivery is well formed and any two at one position carry
the same value. -/
def Group.Consistent (g : Group) : Prop :=
  (∀ d ∈ g.deliveries, ∃ v, d.value = .ok v) ∧
    ∀ d ∈ g.deliveries, ∀ d' ∈ g.deliveries, d.position = d'.position →
      d.value.toOption = d'.value.toOption

/-- In a consistent group every delivery carries the value kept at its position. -/
lemma Group.Consistent.get?_state {g : Group} (h : g.Consistent) {d : Delivery}
    (hd : d ∈ g.deliveries) {v : Bytes} (hv : d.value = .ok v) :
    g.state.byPosition.get? d.position = some v := by
  obtain ⟨w, hw⟩ := exists_get?_evaluateDeliveries (s := ⟨.empty, .empty⟩) hd hv
  rcases get?_evaluateDeliveries_eq_some hw with hempty | ⟨d', hd', hp, hw'⟩
  · cases hempty
  · have hagree := h.2 d hd d' hd' hp.symm
    rw [hv, hw', Except.toOption, Except.toOption, Option.some.injEq] at hagree
    rw [Group.state, hw, hagree]

/-- A group raises no issue exactly when it is consistent. -/
lemma Group.issues_state_eq_zero_iff (g : Group) : g.state.issues.size = 0 ↔ g.Consistent := by
  rw [Group.state, issues_evaluateDeliveries_eq_zero_iff]
  constructor
  · rintro ⟨-, h⟩
    refine ⟨fun d hd => (h d hd).imp fun v hv => hv.1, fun d hd d' hd' hp => ?_⟩
    obtain ⟨v, hv, hkept⟩ := h d hd
    obtain ⟨v', hv', hkept'⟩ := h d' hd'
    rw [hp, hkept', Option.some.injEq] at hkept
    rw [hv, hv', hkept]
  · intro h
    refine ⟨rfl, fun d hd => ?_⟩
    obtain ⟨v, hv⟩ := h.1 d hd
    exact ⟨v, hv, h.get?_state hd hv⟩

/-- The package of a group is accepted exactly when the group is consistent. -/
theorem evaluate_status (g : Group) : (evaluate g).status = .accepted ↔ g.Consistent := by
  rw [← g.issues_state_eq_zero_iff]
  change (if g.state.issues.size > 0 then PackageStatus.rejected else .accepted) = .accepted ↔ _
  split_ifs with h
  · simpa using h.ne'
  · simpa using h

/-- The value of a part of a group at a position: the last 256 bytes of the value kept there. -/
def Group.partAt (g : Group) (position : ℕ) : Bytes :=
  ((g.state.byPosition.get? position).getD (List.replicate eventLength 0)).drop nameLength

@[simp] lemma evaluate_positions (g : Group) :
    (evaluate g).positions = sortBy compareNumbers g.state.byPosition.keys := rfl

/-- The parts of a package are those at its positions. -/
lemma evaluate_parts (g : Group) : (evaluate g).parts = (evaluate g).positions.map g.partAt := rfl

@[simp] lemma evaluate_deliveries (g : Group) : (evaluate g).deliveries = g.deliveries.length := rfl

/-- An accepted package carries the concatenation of its parts. -/
lemma evaluate_payload {g : Group} (h : g.Consistent) :
    (evaluate g).payload = some (evaluate g).parts.flatten := by
  have hissues := g.issues_state_eq_zero_iff.mpr h
  change (if g.state.issues.size > 0 then none else some (evaluate g).parts.flatten) = _
  rw [if_neg (by omega)]

/-- An accepted package reports no issue. -/
lemma evaluate_issues {g : Group} (h : g.Consistent) : (evaluate g).issues = [] := by
  have hissues := g.issues_state_eq_zero_iff.mpr h
  change (if g.state.issues.size > 0 then sortBy compareCodeUnits g.state.issues.keys else []) = _
  rw [if_neg (by omega)]

/-- The positions of a package are strictly ascending. -/
lemma evaluate_positions_pairwise (g : Group) : (evaluate g).positions.Pairwise (· < ·) := by
  refine sortBy_pairwise_lt (fun p q => ?_) (InsertionMap.nodup_keys _) fun _ _ _ _ h => h
  exact ite_lt_eq_cmp p q

/-- The positions of a package are those of its well-formed deliveries. -/
lemma mem_evaluate_positions {g : Group} {p : ℕ} :
    p ∈ (evaluate g).positions ↔ ∃ d ∈ g.deliveries, d.position = p ∧ ∃ v, d.value = .ok v := by
  rw [evaluate_positions, mem_sortBy, InsertionMap.mem_keys_iff]
  constructor
  · rintro ⟨v, hv⟩
    rcases get?_evaluateDeliveries_eq_some hv with hempty | ⟨d, hd, hp, hdv⟩
    · cases hempty
    · exact ⟨d, hd, hp, v, hdv⟩
  · rintro ⟨d, hd, rfl, v, hv⟩
    exact exists_get?_evaluateDeliveries hd hv

/-- In a consistent group the part at a delivery's position is that delivery's payload. -/
lemma Group.Consistent.partAt_eq {g : Group} (h : g.Consistent) {d : Delivery}
    (hd : d ∈ g.deliveries) {v : Bytes} (hv : d.value = .ok v) :
    g.partAt d.position = v.drop 32 := by
  rw [Group.partAt, h.get?_state hd hv]
  rfl

/-! ### Groups delivered in ascending positions -/

/-- The scope fields of a package are those of its group. -/
def Package.scope (p : Package) : Scope :=
  ⟨p.network, p.contract, p.name, p.transactionHash, p.segment⟩

@[simp] lemma evaluate_scope (g : Group) : (evaluate g).scope = g.scope := rfl

section Ascending

variable {g : Group} {items : List (ℕ × Bytes)}

/-- A group of well-formed deliveries at strictly ascending positions is consistent. -/
lemma Group.consistent_of_ascending
    (hitems : g.deliveries = items.map fun item => ⟨item.1, .ok item.2⟩)
    (hascending : items.Pairwise (fun i j => i.1 < j.1)) : g.Consistent := by
  have hnodup : (items.map Prod.fst).Nodup :=
    List.pairwise_map.mpr (hascending.imp fun h => Nat.ne_of_lt h)
  constructor
  · intro d hd
    rw [hitems] at hd
    obtain ⟨item, -, rfl⟩ := List.mem_map.mp hd
    exact ⟨item.2, rfl⟩
  · intro d hd d' hd' hp
    rw [hitems] at hd hd'
    obtain ⟨i, hi, rfl⟩ := List.mem_map.mp hd
    obtain ⟨j, hj, rfl⟩ := List.mem_map.mp hd'
    rw [List.inj_on_of_nodup_map hnodup hi hj hp]

/-- The positions of a group whose deliveries ascend are those delivered. -/
lemma evaluate_positions_of_ascending
    (hitems : g.deliveries = items.map fun item => ⟨item.1, .ok item.2⟩)
    (hascending : items.Pairwise (fun i j => i.1 < j.1)) :
    (evaluate g).positions = items.map Prod.fst := by
  refine List.Pairwise.eq_of_mem_iff (evaluate_positions_pairwise g)
    (List.pairwise_map.mpr hascending) fun p => ?_
  rw [mem_evaluate_positions, hitems]
  simp

/-- A group whose deliveries ascend is merged as it was delivered. -/
theorem evaluate_of_ascending
    (hitems : g.deliveries = items.map fun item => ⟨item.1, .ok item.2⟩)
    (hascending : items.Pairwise (fun i j => i.1 < j.1)) :
    (evaluate g).status = .accepted ∧
      (evaluate g).parts = items.map (fun item => item.2.drop 32) ∧
      (evaluate g).payload = some (items.map (fun item => item.2.drop 32)).flatten := by
  have hconsistent := Group.consistent_of_ascending hitems hascending
  have hparts : (evaluate g).parts = items.map (fun item => item.2.drop 32) := by
    rw [evaluate_parts, evaluate_positions_of_ascending hitems hascending, List.map_map]
    refine List.map_congr_left fun item hitem => ?_
    have hd : (⟨item.1, .ok item.2⟩ : Delivery) ∈ g.deliveries := by
      rw [hitems]
      exact List.mem_map_of_mem hitem
    exact hconsistent.partAt_eq hd rfl
  exact ⟨(evaluate_status g).mpr hconsistent, hparts, by rw [evaluate_payload hconsistent, hparts]⟩

end Ascending

/-! ### The packages of part of the events -/

section Part

variable {names : InsertionMap JsString (List Bytes)} {network : Option JsString}
  {events : List PartEvent} {p : Scope → Bool} {q : PartEvent → Bool}
  (hpart : ∀ e ∈ events, ∀ s, scopeOf names network e = some s → p s = q e)
include hpart

/-- Part of the scopes are the scopes of part of the events, when the scopes tell the part. -/
lemma filter_packageScopes : (packageScopes names network events).filter p =
    packageScopes names network (events.filter q) := by
  have hmem : ∀ s, s ∈ (packageScopes names network events).filter p ↔
      s ∈ packageScopes names network (events.filter q) := by
    intro s
    simp only [List.mem_filter, mem_packageScopes]
    constructor
    · intro hs
      obtain ⟨⟨e, he, hscope⟩, hp⟩ := hs
      exact ⟨e, ⟨he, hpart e he s hscope ▸ hp⟩, hscope⟩
    · intro hs
      obtain ⟨e, ⟨he, hq⟩, hscope⟩ := hs
      exact ⟨⟨e, he, hscope⟩, (hpart e he s hscope).trans hq⟩
  have hkeys : ((packageScopes names network events).filter p).map Scope.key =
      (packageScopes names network (events.filter q)).map Scope.key :=
    List.Pairwise.eq_of_mem_iff
      (List.pairwise_map.mpr ((packageScopes_pairwise events).filter _))
      (List.pairwise_map.mpr (packageScopes_pairwise _)) fun k => by
        simp only [List.mem_map, hmem]
  exact List.map_injective_iff.mpr Scope.key_injective hkeys

/-- Part of the packages are the packages of part of the events. -/
theorem filter_packages_readOutput :
    (readOutput names network events).packages.filter (fun pkg => p pkg.scope) =
      (readOutput names network (events.filter q)).packages := by
  have hfilter : (readOutput names network events).packages.filter (fun pkg => p pkg.scope) =
      ((packageScopes names network events).filter p).map
        fun scope => evaluate (groupOf names network events scope) := by
    rw [readOutput, List.filter_map]
    rfl
  rw [hfilter, filter_packageScopes hpart, readOutput]
  refine List.map_congr_left fun s hs => ?_
  obtain ⟨e, he, hscope⟩ := mem_packageScopes.mp hs
  obtain ⟨he, hq⟩ := List.mem_filter.mp he
  have hevents : eventsOf names network events s = eventsOf names network (events.filter q) s := by
    unfold eventsOf
    rw [List.filter_filter]
    refine List.filter_congr fun e' he' => ?_
    by_cases hs : scopeOf names network e' = some s
    · have hq' : q e' = true := by
        rw [← hpart e' he' s hs, hpart e he s hscope, hq]
      simp [hs, hq']
    · simp [hs]
  rw [groupOf, hevents]
  rfl

end Part

end MultiPartEvent
