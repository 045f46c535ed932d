import MultiPartEvent.Reader.MultiPartRule

/-!
# What the order of delivery changes

The reader groups its input and sorts the groups and their positions, so that almost nothing of
its output depends on the order of the events.  What does is the value it keeps of a position that
was delivered with two contents: the first one.  Such a package is rejected, but its `parts` are
part of the output.

The value kept at a position is computed first (`get?_evaluateDeliveries`); then two permutations
of a group are compared field by field (`evaluate_eq_iff_of_perm`); the last section says it in
terms of the events.
-/

namespace MultiPartEvent

/-! ### What a group keeps and reports -/

/-- The first well-formed value delivered at a position. -/
def firstValue (ds : List Delivery) (p : ℕ) : Option Bytes :=
  ds.findSome? fun d => if d.position = p then d.value.toOption else none

/-- The value kept at a position is the one kept before, or else the first one delivered. -/
lemma get?_evaluateDeliveries (s : Evaluation) (ds : List Delivery) (p : ℕ) :
    (evaluateDeliveries s ds).byPosition.get? p = (s.byPosition.get? p).or (firstValue ds p) := by
  induction ds generalizing s with
  | nil => simp [firstValue]
  | cons d ds ih =>
    rw [evaluateDeliveries_cons, ih, get?_evaluateDelivery, Option.or_assoc]
    unfold firstValue
    rw [List.findSome?_cons]
    cases (if d.position = p then d.value.toOption else none) <;> rfl

/-- What is reported of a malformed delivery. -/
def malformedIssue (p : ℕ) (malformed : JsString) : JsString :=
  js "position " ++ decimal p ++ js ": " ++ malformed

/-- What is reported of a position delivered with two contents. -/
def conflictIssue (p : ℕ) : JsString :=
  js "position " ++ decimal p ++ js " was delivered with two contents"

/-- A delivery is reported with the given text, when the values kept are those of `kept`. -/
def Delivery.ReportedAs (d : Delivery) (kept : ℕ → Option Bytes) (issue : JsString) : Prop :=
  (∃ m, d.value = .error m ∧ issue = malformedIssue d.position m) ∨
    ∃ v, d.value = .ok v ∧ kept d.position ≠ some v ∧ issue = conflictIssue d.position

/-- One delivery adds what is reported of it. -/
lemma mem_issues_evaluateDelivery {s : Evaluation} {d : Delivery} {issue : JsString} :
    issue ∈ (evaluateDelivery s d).issues.keys ↔ issue ∈ s.issues.keys ∨
      d.ReportedAs (evaluateDelivery s d).byPosition.get? issue := by
  unfold Delivery.ReportedAs
  rw [get?_evaluateDelivery]
  unfold evaluateDelivery
  cases hvalue : d.value with
  | error m => simp [malformedIssue, or_comm]
  | ok v =>
    cases hseen : s.byPosition.get? d.position with
    | none => simp [Except.toOption]
    | some seen =>
      by_cases heq : seen = v
      · simp [heq]
      · simp [heq, conflictIssue, or_comm]

/-- All deliveries add what is reported of them. -/
lemma mem_issues_evaluateDeliveries {s : Evaluation} {ds : List Delivery} {issue : JsString} :
    issue ∈ (evaluateDeliveries s ds).issues.keys ↔ issue ∈ s.issues.keys ∨
      ∃ d ∈ ds, d.ReportedAs (evaluateDeliveries s ds).byPosition.get? issue := by
  induction ds generalizing s with
  | nil => simp
  | cons d ds ih =>
    have hfirst : d.ReportedAs (evaluateDelivery s d).byPosition.get? issue ↔
        d.ReportedAs (evaluateDeliveries s (d :: ds)).byPosition.get? issue := by
      unfold Delivery.ReportedAs
      refine or_congr_right (exists_congr fun v => and_congr_right fun hvalue => ?_)
      -- the delivery has set its position, which then keeps its value
      rw [evaluateDeliveries_cons, get?_evaluateDeliveries, get?_evaluateDelivery, hvalue]
      cases s.byPosition.get? d.position <;> simp [Except.toOption]
    rw [evaluateDeliveries_cons, ih, mem_issues_evaluateDelivery, hfirst, or_assoc,
      List.exists_mem_cons_iff]
    rfl

/-- The value a group keeps at a position is the first one delivered. -/
lemma Group.get?_state (g : Group) (p : ℕ) :
    g.state.byPosition.get? p = firstValue g.deliveries p := by
  rw [Group.state, get?_evaluateDeliveries, InsertionMap.get?_empty, Option.none_or]

/-- A value kept was delivered. -/
lemma exists_of_firstValue {ds : List Delivery} {p : ℕ} {v : Bytes} (h : firstValue ds p = some v) :
    ∃ d ∈ ds, d.position = p ∧ d.value = .ok v := by
  obtain ⟨d, hd, hv⟩ := List.exists_of_findSome?_eq_some h
  split_ifs at hv with hp
  refine ⟨d, hd, hp, ?_⟩
  cases hvalue : d.value with
  | error m =>
    rw [hvalue] at hv
    cases hv
  | ok w =>
    rw [hvalue] at hv
    cases hv
    rfl

/-- A position with a well-formed delivery keeps a value. -/
lemma exists_firstValue {ds : List Delivery} {d : Delivery} {v : Bytes} (hd : d ∈ ds)
    (hv : d.value = .ok v) : ∃ w, firstValue ds d.position = some w := by
  have hkept := exists_get?_evaluateDeliveries (s := ⟨.empty, .empty⟩) hd hv
  simpa [get?_evaluateDeliveries] using hkept

/-- A group reports its malformed deliveries and its positions with two contents. -/
lemma Group.mem_issues_state {g : Group} {issue : JsString} :
    issue ∈ g.state.issues.keys ↔
      (∃ d ∈ g.deliveries, ∃ m, d.value = .error m ∧ issue = malformedIssue d.position m) ∨
      ∃ d ∈ g.deliveries, ∃ d' ∈ g.deliveries, d'.position = d.position ∧
        ∃ v v', d.value = .ok v ∧ d'.value = .ok v' ∧ v ≠ v' ∧
          issue = conflictIssue d.position := by
  have hmem : issue ∈ g.state.issues.keys ↔
      ∃ d ∈ g.deliveries, d.ReportedAs g.state.byPosition.get? issue := by
    rw [Group.state, mem_issues_evaluateDeliveries]
    simp
  rw [hmem]
  unfold Delivery.ReportedAs
  constructor
  · intro h
    obtain ⟨d, hd, hmalformed | ⟨v, hv, hkept, hissue⟩⟩ := h
    · exact .inl ⟨d, hd, hmalformed⟩
    · obtain ⟨w, hw⟩ := exists_firstValue hd hv
      obtain ⟨d', hd', hp, hw'⟩ := exists_of_firstValue hw
      refine .inr ⟨d, hd, d', hd', hp, v, w, hv, hw', ?_, hissue⟩
      intro hsame
      rw [g.get?_state, hw, hsame] at hkept
      exact hkept rfl
  · intro h
    rcases h with ⟨d, hd, hmalformed⟩ | ⟨d, hd, d', hd', hp, v, v', hv, hv', hne, hissue⟩
    · exact ⟨d, hd, .inl hmalformed⟩
    · -- at most one of the two values is kept
      by_cases hkept : g.state.byPosition.get? d.position = some v
      · refine ⟨d', hd', .inr ⟨v', hv', ?_, hp ▸ hissue⟩⟩
        rw [hp, hkept]
        exact fun hsame => hne (Option.some.inj hsame)
      · exact ⟨d, hd, .inr ⟨v, hv, hkept, hissue⟩⟩

/-! ### Two permutations of a group -/

section Permuted

variable {g g' : Group}

/-- Permuted groups report the same issues. -/
lemma issues_perm_of_perm (h : g.deliveries.Perm g'.deliveries) :
    g.state.issues.keys.Perm g'.state.issues.keys := by
  rw [List.perm_ext_iff_of_nodup (InsertionMap.nodup_keys _) (InsertionMap.nodup_keys _)]
  intro issue
  simp only [Group.mem_issues_state, h.mem_iff]

/-- Permuted groups have the same positions. -/
lemma evaluate_positions_of_perm (h : g.deliveries.Perm g'.deliveries) :
    (evaluate g).positions = (evaluate g').positions := by
  refine List.Pairwise.eq_of_mem_iff (evaluate_positions_pairwise g)
    (evaluate_positions_pairwise g') fun p => ?_
  rw [mem_evaluate_positions, mem_evaluate_positions]
  simp only [h.mem_iff]

/-- The package of a group, field by field. -/
lemma evaluate_eq (g : Group) :
    evaluate g =
      { network := g.scope.network
        contract := g.scope.contract
        name := g.scope.name
        nameText := eventNameText g.scope.name
        transactionHash := g.scope.transactionHash
        segment := g.scope.segment
        status := if g.state.issues.size > 0 then .rejected else .accepted
        positions := (evaluate g).positions
        parts := (evaluate g).parts
        payload := if g.state.issues.size > 0 then none else some (evaluate g).parts.flatten
        deliveries := g.deliveries.length
        issues := if g.state.issues.size > 0 then sortBy compareCodeUnits g.state.issues.keys
          else [] } := rfl

/-- Permuted groups keep values at the same positions. -/
lemma exists_firstValue_of_perm {ds ds' : List Delivery} (h : ds.Perm ds') {p : ℕ} {v : Bytes}
    (hv : firstValue ds p = some v) : ∃ v', firstValue ds' p = some v' := by
  obtain ⟨d, hd, rfl, hvalue⟩ := exists_of_firstValue hv
  exact exists_firstValue (h.mem_iff.mp hd) hvalue

/-- **Permuted groups give the same package when they give the same parts**: every other field is
the same. -/
lemma evaluate_eq_iff_of_perm (hscope : g.scope = g'.scope)
    (h : g.deliveries.Perm g'.deliveries) :
    evaluate g = evaluate g' ↔ ∀ p ∈ (evaluate g).positions, g.partAt p = g'.partAt p := by
  have hpositions := evaluate_positions_of_perm h
  have hissues := issues_perm_of_perm h
  constructor
  · intro heq
    have hparts := congrArg Package.parts heq
    rw [evaluate_parts, evaluate_parts, ← hpositions] at hparts
    exact List.map_inj_left.mp hparts
  · intro hsame
    have hparts : (evaluate g).parts = (evaluate g').parts := by
      rw [evaluate_parts, evaluate_parts, ← hpositions]
      exact List.map_inj_left.mpr hsame
    have hsize : g.state.issues.size = g'.state.issues.size := by
      rw [← InsertionMap.length_keys, ← InsertionMap.length_keys, hissues.length_eq]
    have hsorted : sortBy compareCodeUnits g.state.issues.keys =
        sortBy compareCodeUnits g'.state.issues.keys :=
      @sortBy_eq_of_perm JsString JsString _ compareCodeUnits id (fun a b => ite_lt_eq_cmp a b) _ _
        hissues fun _ _ _ _ hkey => hkey
    rw [evaluate_eq g, evaluate_eq g', hscope, hparts, hpositions, hsize, hsorted, h.length_eq]

end Permuted

/-! ### Contents of a position -/

/-- The event delivers a content at a position of a package: it is a part there and its value has
no more than 288 bytes. -/
structure ReadOptions.Delivers (options : ReadOptions) (e : PartEvent) (s : Scope) (p : ℕ) :
    Prop where
  part : options.IsPart e s
  position : e.position = .int p
  fits : e.value.length ≤ 288

/-- The first content the events deliver at a position of a package. -/
def ReadOptions.FirstContent (options : ReadOptions) (events : List PartEvent) (s : Scope) (p : ℕ)
    (content : Bytes) : Prop :=
  ∃ before e after, events = before ++ e :: after ∧ options.Delivers e s p ∧ content = e.full ∧
    ∀ e' ∈ before, ¬options.Delivers e' s p

/-- No position of a package is delivered with two contents. -/
def ReadOptions.OneContent (options : ReadOptions) (events : List PartEvent) : Prop :=
  ∀ s p, ∀ e ∈ events, ∀ e' ∈ events, options.Delivers e s p → options.Delivers e' s p →
    e.full = e'.full

/-- The reader refuses the input: the options are not valid, there are too many events or
packages, or a source field is not valid. -/
def ReadOptions.Refuses (options : ReadOptions) (events : List PartEvent) : Prop :=
  ∀ maxEvents maxPackages names, options.Accepts maxEvents maxPackages names →
    maxEvents < events.length ∨ (∃ e ∈ events, ¬e.WellFormed) ∨
      maxPackages < (options.packageSet events).ncard

/-- Two runs throw both, or return equal results. -/
def SameOutcome {α : Type} (r r' : Except JsError α) : Prop :=
  (∃ err err', r = .error err ∧ r' = .error err') ∨ ∃ output, r = .ok output ∧ r' = .ok output

section Events

variable {options : ReadOptions} {names : InsertionMap JsString (List Bytes)}
  {events events' : List PartEvent}

/-- The reader returns an output exactly on the inputs it does not refuse. -/
lemma exists_readPackages_iff :
    (∃ output, readPackages events options = .ok output) ↔ ¬options.Refuses events := by
  unfold ReadOptions.Refuses
  constructor
  · intro h hrefuses
    obtain ⟨output, houtput⟩ := h
    obtain ⟨m, m', names, haccepts, hcount, hwell, hsize, -⟩ := readPackages_eq_ok_iff.mp houtput
    rcases hrefuses m m' names haccepts with hmany | ⟨e, he, hill⟩ | hmany
    · omega
    · exact hill (hwell e he)
    · rw [ncard_packageSet haccepts.names hwell] at hmany
      omega
  · intro h
    simp only [not_forall, not_or, not_exists, not_and, not_not, not_lt, exists_prop] at h
    obtain ⟨m, m', names, haccepts, hcount, hwell, hsize⟩ := h
    rw [ncard_packageSet haccepts.names hwell] at hsize
    exact ⟨_, readPackages_eq_ok_iff.mpr ⟨m, m', names, haccepts, hcount, hwell, hsize, rfl⟩⟩

/-- Permuted inputs are refused alike. -/
lemma refuses_iff_of_perm (h : events.Perm events') :
    options.Refuses events ↔ options.Refuses events' := by
  have hset : options.packageSet events = options.packageSet events' := by
    ext s
    simp only [ReadOptions.packageSet, Set.mem_ofPred_eq, h.mem_iff]
  unfold ReadOptions.Refuses
  simp only [h.length_eq, h.mem_iff, hset]

/-- The content a well-formed event delivers at a position of a package, if it does. -/
def contentAt (names : InsertionMap JsString (List Bytes)) (network : Option JsString) (s : Scope)
    (p : ℕ) (e : PartEvent) : Option Bytes :=
  if scopeOf names network e = some s ∧ e.positionNat = p ∧ e.value.length ≤ 288 then some e.full
  else none

/-- The value of a delivery is the content of its event, if that fits. -/
lemma toOption_deliveryOf_value (e : PartEvent) (p : ℕ) :
    (deliveryOf e p).value.toOption = if e.value.length ≤ 288 then some e.full else none := by
  rcases deliveryOf_value e p with ⟨hlen, hvalue⟩ | ⟨hlen, m, hvalue⟩
  · rw [hvalue, if_pos hlen]
    rfl
  · rw [hvalue, if_neg (not_le.mpr hlen)]
    rfl

/-- The value a group keeps at a position is the first content of the events there. -/
lemma firstValue_groupOf (names : InsertionMap JsString (List Bytes)) (network : Option JsString)
    (events : List PartEvent) (s : Scope) (p : ℕ) :
    firstValue (groupOf names network events s).deliveries p =
      events.findSome? (contentAt names network s p) := by
  unfold firstValue groupOf eventsOf
  induction events with
  | nil => rfl
  | cons e events ih =>
    rw [List.findSome?_cons, ← ih]
    by_cases hscope : scopeOf names network e = some s
    · rw [List.filter_cons_of_pos (by simpa using hscope), List.map_cons, List.findSome?_cons,
        toOption_deliveryOf_value]
      have hcontent : contentAt names network s p e =
          if e.positionNat = p then (if e.value.length ≤ 288 then some e.full else none)
          else none := by
        simp only [contentAt, hscope, true_and, ite_and]
      rw [hcontent]
      rfl
    · rw [List.filter_cons_of_neg (by simpa using hscope)]
      simp [contentAt, hscope]

/-- The content read of a well-formed event is the one it delivers. -/
lemma contentAt_eq_some_iff (hnames : optInNames options.optIns = .ok names) {e : PartEvent}
    (he : e.WellFormed) {s : Scope} {p : ℕ} {content : Bytes} :
    contentAt names options.network s p e = some content ↔
      options.Delivers e s p ∧ content = e.full := by
  have hposition : e.position = .int p ↔ e.positionNat = p := by
    rw [he.position_eq, JsNumber.int.injEq]
    exact Int.ofNat_inj
  unfold contentAt
  rw [Option.ite_none_right_eq_some, Option.some.injEq, scopeOf_eq_some_iff hnames he, ← hposition,
    eq_comm (a := content)]
  refine and_congr_left fun _ => ?_
  exact ⟨fun h => ⟨h.1, h.2.1, h.2.2⟩, fun h => ⟨h.part, h.position, h.fits⟩⟩

/-- The first content read is the first one delivered. -/
lemma firstContent_iff (hnames : optInNames options.optIns = .ok names)
    (hwell : ∀ e ∈ events, e.WellFormed) {s : Scope} {p : ℕ} {content : Bytes} :
    events.findSome? (contentAt names options.network s p) = some content ↔
      options.FirstContent events s p content := by
  rw [List.findSome?_eq_some_iff]
  unfold ReadOptions.FirstContent
  refine exists_congr fun before => exists_congr fun e => exists_congr fun after => ?_
  refine and_congr_right fun hevents => ?_
  have hnone : ∀ e' ∈ before, contentAt names options.network s p e' = none ↔
      ¬options.Delivers e' s p := by
    intro e' he'
    rw [Option.eq_none_iff_forall_ne_some]
    have hwell' := hwell e' (by simp [hevents, he'])
    constructor
    · intro h hdelivers
      exact h e'.full ((contentAt_eq_some_iff hnames hwell').mpr ⟨hdelivers, rfl⟩)
    · intro h content hcontent
      exact h ((contentAt_eq_some_iff hnames hwell').mp hcontent).1
  rw [contentAt_eq_some_iff hnames (hwell e (by simp [hevents])), and_assoc]
  refine and_congr_right fun _ => and_congr_right fun _ => ?_
  exact forall₂_congr hnone

/-- The contents delivered to a package all start with its name. -/
lemma ReadOptions.Delivers.take_full {e : PartEvent} {s : Scope} {p : ℕ}
    (h : options.Delivers e s p) : e.full.take 32 = s.name := by
  rw [← h.part.name, PartEvent.full, take_zeroExtend, PartEvent.head]

/-- Two contents of a package with the same payload are the same. -/
lemma eq_of_drop_eq {s : Scope} {p : ℕ} {content content' : Bytes}
    (h : options.FirstContent events s p content)
    (h' : options.FirstContent events' s p content')
    (hpayload : content.drop 32 = content'.drop 32) : content = content' := by
  obtain ⟨-, e, -, -, hdelivers, rfl, -⟩ := h
  obtain ⟨-, e', -, -, hdelivers', rfl, -⟩ := h'
  rw [← List.take_append_drop 32 e.full, ← List.take_append_drop 32 e'.full, hpayload,
    hdelivers.take_full, hdelivers'.take_full]

/-- Two packages of permuted events are equal exactly when the events deliver the same first
contents at its positions. -/
lemma evaluate_groupOf_eq_iff (hnames : optInNames options.optIns = .ok names)
    (hwell : ∀ e ∈ events, e.WellFormed) (h : events.Perm events') (s : Scope) :
    evaluate (groupOf names options.network events s) =
        evaluate (groupOf names options.network events' s) ↔
      ∀ p content, options.FirstContent events s p content ↔
        options.FirstContent events' s p content := by
  have hwell' : ∀ e ∈ events', e.WellFormed := fun e he => hwell e (h.mem_iff.mpr he)
  have hdeliveries : (groupOf names options.network events s).deliveries.Perm
      (groupOf names options.network events' s).deliveries := (h.filter _).map _
  simp only [← firstContent_iff hnames hwell, ← firstContent_iff hnames hwell',
    ← firstValue_groupOf]
  have hscope : (groupOf names options.network events s).scope =
      (groupOf names options.network events' s).scope := rfl
  rw [evaluate_eq_iff_of_perm hscope hdeliveries]
  unfold Group.partAt
  simp only [Group.get?_state]
  constructor
  · intro hparts p
    cases hv : firstValue (groupOf names options.network events s).deliveries p with
    | none =>
      cases hv' : firstValue (groupOf names options.network events' s).deliveries p with
      | none => simp
      | some v' =>
        obtain ⟨v, hsome⟩ := exists_firstValue_of_perm hdeliveries.symm hv'
        rw [hsome] at hv
        cases hv
    | some v =>
      obtain ⟨v', hv'⟩ := exists_firstValue_of_perm hdeliveries hv
      obtain ⟨d, hd, hp, hvalue⟩ := exists_of_firstValue hv
      have hpayload := hparts p (mem_evaluate_positions.mpr ⟨d, hd, hp, v, hvalue⟩)
      rw [hv, hv', Option.getD_some, Option.getD_some] at hpayload
      rw [firstValue_groupOf, firstContent_iff hnames hwell] at hv
      have hfirst' := hv'
      rw [firstValue_groupOf, firstContent_iff hnames hwell'] at hfirst'
      rw [hv', eq_of_drop_eq hv hfirst' hpayload]
      simp
  · intro hsame p _
    have heq : firstValue (groupOf names options.network events s).deliveries p =
        firstValue (groupOf names options.network events' s).deliveries p :=
      Option.ext (hsame p)
    rw [heq]

/-- The outputs for permuted events are equal exactly when the events deliver the same first
contents everywhere. -/
lemma readOutput_eq_iff_of_perm (hnames : optInNames options.optIns = .ok names)
    (hwell : ∀ e ∈ events, e.WellFormed) (h : events.Perm events') :
    readOutput names options.network events = readOutput names options.network events' ↔
      ∀ s p content, options.FirstContent events s p content ↔
        options.FirstContent events' s p content := by
  have hscopes : packageScopes names options.network events =
      packageScopes names options.network events' :=
    packageScopes_congr fun s => by simp only [mem_packageScopes, h.mem_iff]
  have hignored : (readOutput names options.network events).ignored =
      (readOutput names options.network events').ignored := (h.filter _).length_eq
  have hpackages : readOutput names options.network events =
      readOutput names options.network events' ↔
      ∀ s ∈ packageScopes names options.network events,
        evaluate (groupOf names options.network events s) =
          evaluate (groupOf names options.network events' s) := by
    have hlisted : (readOutput names options.network events').packages =
        (packageScopes names options.network events).map fun s =>
          evaluate (groupOf names options.network events' s) := by
      rw [hscopes]
      rfl
    rw [ReadOutput.mk.injEq, and_iff_left hignored, hlisted]
    exact List.map_inj_left
  rw [hpackages]
  constructor
  · intro heq s p content
    by_cases hs : s ∈ packageScopes names options.network events
    · exact (evaluate_groupOf_eq_iff hnames hwell h s).mp (heq s hs) p content
    · -- without a part there is no content
      have hnone : ∀ events'' : List PartEvent, events''.Perm events →
          ¬options.FirstContent events'' s p content := by
        intro events'' hperm hfirst
        obtain ⟨before, e, after, rfl, hdelivers, -, -⟩ := hfirst
        have he : e ∈ events := hperm.mem_iff.mp (by simp)
        apply hs
        rw [mem_packageScopes]
        exact ⟨e, he, (scopeOf_eq_some_iff hnames (hwell e he)).mpr hdelivers.part⟩
      exact iff_of_false (hnone events (.refl _)) (hnone events' h.symm)
  · intro hsame s _
    exact (evaluate_groupOf_eq_iff hnames hwell h s).mpr (hsame s)

/-! ### Order of delivery -/

/-- Two runs on permuted events have the same outcome exactly when the reader refuses them or they
deliver the same first contents. -/
lemma sameOutcome_iff_of_perm (h : events.Perm events') :
    SameOutcome (readPackages events options) (readPackages events' options) ↔
      options.Refuses events ∨ ∀ s p content, options.FirstContent events s p content ↔
        options.FirstContent events' s p content := by
  by_cases hrefuses : options.Refuses events
  · have hthrows : ∀ l : List PartEvent, options.Refuses l →
        ∃ err, readPackages l options = .error err := by
      intro l hl
      cases hread : readPackages l options with
      | error err => exact ⟨err, rfl⟩
      | ok output => exact absurd hl (exists_readPackages_iff.mp ⟨output, hread⟩)
    obtain ⟨err, herr⟩ := hthrows events hrefuses
    obtain ⟨err', herr'⟩ := hthrows events' ((refuses_iff_of_perm h).mp hrefuses)
    exact iff_of_true (.inl ⟨err, err', herr, herr'⟩) (.inl hrefuses)
  · obtain ⟨output, houtput⟩ := exists_readPackages_iff.mpr hrefuses
    obtain ⟨output', houtput'⟩ :=
      exists_readPackages_iff.mpr (mt (refuses_iff_of_perm h).mpr hrefuses)
    have hsame : SameOutcome (readPackages events options) (readPackages events' options) ↔
        output = output' := by
      rw [houtput, houtput']
      constructor
      · intro houtcome
        rcases houtcome with ⟨err, -, herr, -⟩ | ⟨_, heq, heq'⟩
        · cases herr
        · exact (Except.ok.inj heq).trans (Except.ok.inj heq').symm
      · intro heq
        exact .inr ⟨output, rfl, by rw [heq]⟩
    obtain ⟨_, _, names, haccepts, -, hwell, -, rfl⟩ := readPackages_eq_ok_iff.mp houtput
    obtain ⟨_, _, names', haccepts', -, -, -, rfl⟩ := readPackages_eq_ok_iff.mp houtput'
    obtain ⟨-, -, rfl⟩ := haccepts.unique haccepts'
    rw [hsame, readOutput_eq_iff_of_perm haccepts.names hwell h, or_iff_right hrefuses]

/-- An event at the head of the list delivers the first content of its position. -/
lemma firstContent_cons {e : PartEvent} {s : Scope} {p : ℕ} {content : Bytes}
    (h : options.Delivers e s p) :
    options.FirstContent (e :: events) s p content ↔ content = e.full := by
  constructor
  · intro hfirst
    obtain ⟨before, e', after, heq, -, rfl, hnot⟩ := hfirst
    cases before with
    | nil => rw [(List.cons.inj heq).1]
    | cons e'' before =>
      have hhead : e'' = e := (List.cons.inj heq).1.symm
      exact absurd h (hhead ▸ hnot e'' List.mem_cons_self)
  · intro hcontent
    exact ⟨[], e, events, rfl, h, hcontent, by simp⟩

/-- With one content a position the first one is any. -/
lemma firstContent_of_oneContent (hone : options.OneContent events) (h : events.Perm events')
    {s : Scope} {p : ℕ} {content : Bytes} (hfirst : options.FirstContent events s p content) :
    options.FirstContent events' s p content := by
  classical
  obtain ⟨before, e, after, hsplit, hdelivers, rfl, -⟩ := hfirst
  have he : e ∈ events' := h.mem_iff.mp (by simp [hsplit])
  cases hfound : events'.find? (fun e' => options.Delivers e' s p) with
  | none =>
    have hnot := List.find?_eq_none.mp hfound e he
    rw [decide_eq_true_eq] at hnot
    exact absurd hdelivers hnot
  | some e' =>
    obtain ⟨hdelivers', before', after', hsplit', hnot⟩ := List.find?_eq_some_iff_append.mp hfound
    rw [decide_eq_true_eq] at hdelivers'
    have he' : e' ∈ events := h.mem_iff.mpr (by simp [hsplit'])
    have hsame : e.full = e'.full := hone s p e (by simp [hsplit]) e' he' hdelivers hdelivers'
    refine ⟨before', e', after', hsplit', hdelivers', hsame, ?_⟩
    intro d hd hd'
    have hfalse := hnot d hd
    simp [hd'] at hfalse

/-- **What the order of delivery changes.**  The outcome of the reader is that of every permutation
of its input exactly when it refuses the input or no position is delivered with two contents; and
it is that of one given permutation exactly when it refuses the input or the two lists deliver the
same first content at every position. -/
theorem readPackages_order (options : ReadOptions) (events : List PartEvent) :
    ((∀ events', events.Perm events' →
        SameOutcome (readPackages events options) (readPackages events' options)) ↔
      options.Refuses events ∨ options.OneContent events) ∧
    ∀ events', events.Perm events' →
      (SameOutcome (readPackages events options) (readPackages events' options) ↔
        options.Refuses events ∨ ∀ s p content, options.FirstContent events s p content ↔
          options.FirstContent events' s p content) := by
  refine ⟨?_, fun events' h => sameOutcome_iff_of_perm h⟩
  constructor
  · intro hall
    rw [or_iff_not_imp_left]
    intro hrefuses s p e he e' he' hdelivers hdelivers'
    have hfirst : ∀ d ∈ events, options.Delivers d s p →
        ∀ content, options.FirstContent events s p content ↔ content = d.full := by
      intro d hd hd' content
      obtain ⟨before, after, hsplit⟩ := List.append_of_mem hd
      have hperm : events.Perm (d :: (before ++ after)) := hsplit ▸ List.perm_middle
      have hsame := ((sameOutcome_iff_of_perm hperm).mp (hall _ hperm)).resolve_left hrefuses
      rw [hsame s p content, firstContent_cons hd']
    exact (hfirst e' he' hdelivers' e.full).mp ((hfirst e he hdelivers e.full).mpr rfl)
  · intro h events' hperm
    rw [sameOutcome_iff_of_perm hperm]
    refine h.imp_right fun hone s p content => ?_
    have hone' : options.OneContent events' := by
      intro s p e he e' he'
      exact hone s p e (hperm.mem_iff.mpr he) e' (hperm.mem_iff.mpr he')
    exact ⟨firstContent_of_oneContent hone hperm, firstContent_of_oneContent hone' hperm.symm⟩

/-- A part of one package at position 0, with the given last byte. -/
def conflictingPart (byte : Byte) : PartEvent where
  network := js "net"
  contract := List.replicate 64 (hexUnit 10)
  transactionHash := js "h"
  segment := .int 1
  position := .int 0
  value := List.replicate 32 7 ++ [byte]

/-- The options that opt its package in. -/
def conflictingOptions : ReadOptions :=
  ⟨[⟨List.replicate 64 (hexUnit 10), .bytes (List.replicate 32 7)⟩], none, none⟩

/-- Two contents of one position, in both orders: the packages are rejected with different
parts. -/
theorem conflicting_parts_order :
    [conflictingPart 1, conflictingPart 2].Perm [conflictingPart 2, conflictingPart 1] ∧
      ¬SameOutcome (readPackages [conflictingPart 1, conflictingPart 2] conflictingOptions)
        (readPackages [conflictingPart 2, conflictingPart 1] conflictingOptions) := by
  have hfirst :
      (readPackages [conflictingPart 1, conflictingPart 2] conflictingOptions).toOption.map
      (fun output => output.packages.map Package.parts) =
        some [[1 :: List.replicate 255 0]] := by decide +kernel
  have hsecond :
      (readPackages [conflictingPart 2, conflictingPart 1] conflictingOptions).toOption.map
      (fun output => output.packages.map Package.parts) =
        some [[2 :: List.replicate 255 0]] := by decide +kernel
  refine ⟨List.Perm.swap _ _ _, ?_⟩
  intro hsame
  rcases hsame with ⟨err, -, herr, -⟩ | ⟨output, hread, hread'⟩
  · rw [herr] at hfirst
    cases hfirst
  · rw [hread] at hfirst
    rw [hread', hfirst] at hsecond
    exact absurd hsecond (by decide)

end Events

end MultiPartEvent
