import MultiPartEvent.Cli.Verify

/-!
# What the levels of a report mean

The level of a package is read off a list of checks that is built in three pieces, one for each
level, and a piece may be empty.  `le_levelOf_iff` says when a list of checks reaches a level;
the other lemmas say, for each piece, what its checks have established about the source when
all of them passed.
-/

namespace MultiPartEvent

/-! ### Levels of a list of checks -/

/-- The last of the levels before the first that does not pass. -/
lemma le_lastPassed_iff (passes : ℕ → Bool) {level : ℕ} (hlevel : level ≤ 3) :
    level ≤ (([1, 2, 3].takeWhile passes).getLast?).getD 0 ↔
      ∀ k, 1 ≤ k → k ≤ level → passes k = true := by
  have hall : (∀ k, 1 ≤ k → k ≤ level → passes k = true) ↔
      (1 ≤ level → passes 1 = true) ∧ (2 ≤ level → passes 2 = true) ∧
        (3 ≤ level → passes 3 = true) := by
    constructor
    · intro h
      exact ⟨h 1 le_rfl, h 2 (by omega), h 3 (by omega)⟩
    · intro h k hlow hhigh
      obtain ⟨h₁, h₂, h₃⟩ := h
      have hk : k = 1 ∨ k = 2 ∨ k = 3 := by omega
      rcases hk with rfl | rfl | rfl
      exacts [h₁ hhigh, h₂ hhigh, h₃ hhigh]
  rw [hall]
  cases h₁ : passes 1 with
  | false =>
    simp [List.takeWhile, h₁]
    omega
  | true =>
    cases h₂ : passes 2 with
    | false =>
      simp [List.takeWhile, h₁, h₂]
      omega
    | true =>
      cases h₃ : passes 3 with
      | false =>
        simp [List.takeWhile, h₁, h₂, h₃]
        omega
      | true =>
        simp [List.takeWhile, h₁, h₂, h₃]
        omega

/-- A list of checks reaches a level exactly when each level up to it is requested, has checks,
and passes them all. -/
theorem le_levelOf_iff {checks : List Check} {requested level : ℕ} (hlevel : level ≤ 3) :
    level ≤ levelOf checks requested ↔
      ∀ k, 1 ≤ k → k ≤ level → k ≤ requested ∧ passesLevel checks k = true := by
  unfold levelOf
  rw [le_lastPassed_iff _ hlevel]
  simp only [Bool.and_eq_true, decide_eq_true_eq]

/-- A list of checks reaches no level above the requested one. -/
lemma levelOf_le (checks : List Check) (requested : ℕ) : levelOf checks requested ≤ requested := by
  have hthree : levelOf checks requested ≤ 3 := by
    unfold levelOf
    cases hlast : ([1, 2, 3].takeWhile fun candidate =>
        decide (candidate ≤ requested) && passesLevel checks candidate).getLast? with
    | none => simp
    | some last =>
      have hmem := (List.takeWhile_sublist _).subset (List.mem_of_getLast? hlast)
      simp only [List.mem_cons, List.not_mem_nil, or_false] at hmem
      rw [Option.getD_some]
      omega
  rcases Nat.eq_zero_or_pos (levelOf checks requested) with hzero | hpos
  · omega
  · exact ((le_levelOf_iff hthree).mp le_rfl _ hpos le_rfl).1

/-- There are checks and all of them passed. -/
def Passed (checks : List Check) : Prop := checks ≠ [] ∧ ∀ check ∈ checks, check.ok = true

/-- A single check passed. -/
@[simp] lemma passed_singleton {check : Check} : Passed [check] ↔ check.ok = true := by
  simp [Passed]

/-- A level passes exactly when it has checks and all of them passed. -/
lemma passesLevel_eq_true_iff {checks : List Check} {level : ℕ} :
    passesLevel checks level = true ↔ Passed (checks.filter fun check => check.level = level) := by
  unfold passesLevel Passed
  rw [Bool.and_eq_true, Bool.not_eq_true', List.isEmpty_eq_false_iff, List.all_eq_true]

/-- The checks of a level among checks that all have one level. -/
lemma filter_level {checks : List Check} {level : ℕ} (h : ∀ check ∈ checks, check.level = level)
    (other : ℕ) :
    (checks.filter fun check => check.level = other) = if level = other then checks else [] := by
  split_ifs with hlevel
  · exact List.filter_eq_self.mpr fun check hcheck => by simp [h check hcheck, hlevel]
  · exact List.filter_eq_nil_iff.mpr fun check hcheck => by simp [h check hcheck, hlevel]

section Pieces

variable {requested : ℕ} {first : Check} {second third : List Check}
  (hfirst : first.level = 1) (hsecond : ∀ check ∈ second, check.level = 2)
  (hthird : ∀ check ∈ third, check.level = 3)
include hfirst hsecond hthird

/-- The checks of one level among checks in three pieces. -/
lemma filter_pieces (level : ℕ) :
    ((first :: second ++ third).filter fun check => check.level = level) =
      (if 1 = level then [first] else []) ++ (if 2 = level then second else []) ++
        (if 3 = level then third else []) := by
  have hone : ∀ check ∈ [first], check.level = 1 := by simpa using hfirst
  have hsplit : first :: second ++ third = [first] ++ second ++ third := rfl
  rw [hsplit, List.filter_append, List.filter_append, filter_level hone, filter_level hsecond,
    filter_level hthird]

/-- Level 1 of checks in three pieces is decided by the first. -/
lemma passesLevel_one : passesLevel (first :: second ++ third) 1 = true ↔ first.ok = true := by
  rw [passesLevel_eq_true_iff, filter_pieces hfirst hsecond hthird]
  simp

/-- Level 2 of checks in three pieces is decided by the second. -/
lemma passesLevel_two : passesLevel (first :: second ++ third) 2 = true ↔ Passed second := by
  rw [passesLevel_eq_true_iff, filter_pieces hfirst hsecond hthird]
  simp

/-- Level 3 of checks in three pieces is decided by the third. -/
lemma passesLevel_three : passesLevel (first :: second ++ third) 3 = true ↔ Passed third := by
  rw [passesLevel_eq_true_iff, filter_pieces hfirst hsecond hthird]
  simp

/-- When checks in three pieces reach Level 1. -/
theorem one_le_levelOf_iff :
    1 ≤ levelOf (first :: second ++ third) requested ↔ 1 ≤ requested ∧ first.ok = true := by
  rw [le_levelOf_iff (by omega)]
  constructor
  · intro h
    obtain ⟨hrequested, hpasses⟩ := h 1 le_rfl le_rfl
    exact ⟨hrequested, (passesLevel_one hfirst hsecond hthird).mp hpasses⟩
  · intro h k hlow hhigh
    obtain rfl : k = 1 := by omega
    exact ⟨h.1, (passesLevel_one hfirst hsecond hthird).mpr h.2⟩

/-- When checks in three pieces reach Level 2. -/
theorem two_le_levelOf_iff :
    2 ≤ levelOf (first :: second ++ third) requested ↔
      2 ≤ requested ∧ first.ok = true ∧ Passed second := by
  rw [le_levelOf_iff (by omega)]
  constructor
  · intro h
    obtain ⟨hrequested, htwo⟩ := h 2 (by omega) le_rfl
    exact ⟨hrequested, (passesLevel_one hfirst hsecond hthird).mp (h 1 le_rfl (by omega)).2,
      (passesLevel_two hfirst hsecond hthird).mp htwo⟩
  · intro h k hlow hhigh
    obtain ⟨hrequested, hone, htwo⟩ := h
    have hk : k = 1 ∨ k = 2 := by omega
    rcases hk with rfl | rfl
    · exact ⟨by omega, (passesLevel_one hfirst hsecond hthird).mpr hone⟩
    · exact ⟨hrequested, (passesLevel_two hfirst hsecond hthird).mpr htwo⟩

/-- When checks in three pieces reach Level 3. -/
theorem three_le_levelOf_iff :
    3 ≤ levelOf (first :: second ++ third) requested ↔
      3 ≤ requested ∧ first.ok = true ∧ Passed second ∧ Passed third := by
  rw [le_levelOf_iff le_rfl]
  constructor
  · intro h
    obtain ⟨hrequested, hthree⟩ := h 3 (by omega) le_rfl
    exact ⟨hrequested, (passesLevel_one hfirst hsecond hthird).mp (h 1 le_rfl (by omega)).2,
      (passesLevel_two hfirst hsecond hthird).mp (h 2 (by omega) (by omega)).2,
      (passesLevel_three hfirst hsecond hthird).mp hthree⟩
  · intro h k hlow hhigh
    obtain ⟨hrequested, hone, htwo, hthree⟩ := h
    have hk : k = 1 ∨ k = 2 ∨ k = 3 := by omega
    rcases hk with rfl | rfl | rfl
    · exact ⟨by omega, (passesLevel_one hfirst hsecond hthird).mpr hone⟩
    · exact ⟨by omega, (passesLevel_two hfirst hsecond hthird).mpr htwo⟩
    · exact ⟨hrequested, (passesLevel_three hfirst hsecond hthird).mpr hthree⟩

end Pieces

/-- When checks without a third piece reach Level 2, at most Level 2 being requested. -/
lemma levelOf_two_eq_two_iff {first : Check} {second : List Check} (hfirst : first.level = 1)
    (hsecond : ∀ check ∈ second, check.level = 2) :
    levelOf (first :: second) 2 = 2 ↔ first.ok = true ∧ Passed second := by
  have hnone : ∀ check ∈ ([] : List Check), check.level = 3 := by simp
  have hreached : 2 ≤ levelOf (first :: second ++ []) 2 ↔ 2 ≤ 2 ∧ first.ok = true ∧ Passed second :=
    two_le_levelOf_iff hfirst hsecond hnone
  rw [List.append_nil] at hreached
  constructor
  · intro h
    exact (hreached.mp h.ge).2
  · intro h
    exact le_antisymm (levelOf_le _ _) (hreached.mpr ⟨le_rfl, h⟩)

/-! ### Level 1: the package -/

lemma packageCheck_level (env : VerifyEnv) (entry : Entry) (conversion : List JsString) :
    (packageCheck env entry conversion).level = 1 := by
  unfold packageCheck
  cases entry.fromEvents with
  | none => rfl
  | some pkg =>
    dsimp only
    split_ifs <;> rfl

/-- Level 1 holds exactly of an accepted package from the events, in a transaction whose events
could all be read. -/
theorem packageCheck_ok_iff {env : VerifyEnv} {entry : Entry} {conversion : List JsString} :
    (packageCheck env entry conversion).ok = true ↔
      (∃ pkg, entry.fromEvents = some pkg ∧ pkg.status = .accepted) ∧ conversion = [] := by
  unfold packageCheck
  cases entry.fromEvents with
  | none => simp
  | some pkg =>
    simp only [Option.some.injEq, exists_eq_left', gt_iff_lt, List.length_pos_iff]
    split_ifs with hstatus hconversion
    · simp [hstatus]
    · simp [hconversion]
    · rw [not_not] at hstatus hconversion
      simp [hstatus, hconversion]

/-! ### Level 2: the transaction and the placement -/

section LevelTwo

variable {env : VerifyEnv} {source : VerifySource} {request : VerifyRequest} {hash : JsString}

/-- The source has the transaction, included, with raw bytes that decode and, when they have a
hash of their own, hash to it; the node holds them when it is asked. -/
structure IncludedBy (env : VerifyEnv) (source : VerifySource) (request : VerifyRequest)
    (hash : JsString) (transaction : SourceTransaction) (decoded : Transaction) : Prop where
  found : source.transaction hash = .ok (some transaction)
  decodes : deserializeTransaction env.ledger transaction.raw = .ok decoded
  included : transaction.status ∈ includedStatuses
  ownHash : ∀ ownHash, transactionHashOf decoded = some ownHash → ownHash = hash
  /-- The node reported the extrinsic of the transaction's block that holds the bytes. -/
  node : request.crossCheckNode = some true → ∃ nodeHolds block index,
    source.nodeHolds = some nodeHolds ∧ transaction.block = some block ∧
      nodeHolds block.hash transaction.raw = .ok (some index)

/-- The check of the status passes exactly for an included transaction. -/
lemma statusCheck_ok_iff {transaction : SourceTransaction} :
    (statusCheck transaction).ok = true ↔ transaction.status ∈ includedStatuses := by
  unfold statusCheck
  split_ifs with h <;> simp [h]

lemma statusCheck_level (transaction : SourceTransaction) :
    (statusCheck transaction).level = 2 := by
  unfold statusCheck
  split_ifs <;> rfl

/-- The check of the hash passes exactly unless the bytes hash to another one. -/
lemma hashCheck_ok_iff {decoded : Transaction} :
    (hashCheck decoded hash).ok = true ↔
      ∀ ownHash, transactionHashOf decoded = some ownHash → ownHash = hash := by
  unfold hashCheck
  cases transactionHashOf decoded with
  | none => simp
  | some ownHash =>
    dsimp only
    split_ifs with h
    · simpa using h
    · simpa using h

lemma hashCheck_level (decoded : Transaction) (hash : JsString) :
    (hashCheck decoded hash).level = 2 := by
  unfold hashCheck
  cases transactionHashOf decoded with
  | none => rfl
  | some ownHash =>
    dsimp only
    split_ifs <;> rfl

/-- The cross-check passes exactly when it is not asked for or the node holds the bytes. -/
lemma nodeChecks_ok_iff {transaction : SourceTransaction} {checks : List Check}
    (h : nodeChecks source request transaction = .ok checks) :
    (∀ check ∈ checks, check.ok = true) ↔
      (request.crossCheckNode = some true → ∃ nodeHolds block index,
        source.nodeHolds = some nodeHolds ∧ transaction.block = some block ∧
          nodeHolds block.hash transaction.raw = .ok (some index)) := by
  unfold nodeChecks at h
  split_ifs at h with hasked
  · cases h
    simp [hasked]
  · rw [not_not] at hasked
    cases hholds : source.nodeHolds with
    | none =>
      rw [hholds] at h
      cases h
      simp [hasked]
    | some nodeHolds =>
      cases hblock : transaction.block with
      | none =>
        rw [hholds, hblock] at h
        cases h
        simp [hasked]
      | some block =>
        rw [hholds, hblock] at h
        obtain ⟨index, hindex, h⟩ := bind_eq_ok_iff.mp h
        cases index with
        | none =>
          rw [pure_eq_ok_iff] at h
          subst h
          simp [hasked, hindex]
        | some index =>
          rw [pure_eq_ok_iff] at h
          subst h
          simp [hasked, hindex]

/-- Every check of the node is a Level 2 check. -/
lemma nodeChecks_level {transaction : SourceTransaction} {checks : List Check}
    (h : nodeChecks source request transaction = .ok checks) :
    ∀ check ∈ checks, check.level = 2 := by
  unfold nodeChecks at h
  split_ifs at h with hasked
  · cases h
    simp
  · split at h
    · cases h
      simp
    · cases h
      simp
    · obtain ⟨index, -, h⟩ := bind_eq_ok_iff.mp h
      cases index <;> (rw [pure_eq_ok_iff] at h; subst h; simp)

/-- What the facts of a transaction record. -/
structure TransactionFacts.Records (env : VerifyEnv) (source : VerifySource)
    (request : VerifyRequest) (hash : JsString) (fact : TransactionFacts) : Prop where
  transaction : source.transaction hash = .ok fact.transaction
  /-- The bytes of the transaction, when it is there and they decode. -/
  decoded : fact.decoded = fact.transaction.bind fun transaction =>
    (deserializeTransaction env.ledger transaction.raw).toOption
  levels : ∀ check ∈ fact.checks, check.level = 2
  nonempty : fact.checks ≠ []
  /-- All checks pass exactly for an included transaction. -/
  passed : (∀ check ∈ fact.checks, check.ok = true) ↔
    ∃ transaction decoded, IncludedBy env source request hash transaction decoded

/-- The facts of an included transaction hold it and its decoded bytes. -/
lemma TransactionFacts.Records.eq_of_includedBy {fact : TransactionFacts}
    {transaction : SourceTransaction} {decoded : Transaction}
    (hfact : fact.Records env source request hash)
    (h : IncludedBy env source request hash transaction decoded) :
    fact.transaction = some transaction ∧ fact.decoded = some decoded := by
  have hsome : fact.transaction = some transaction :=
    Except.ok.inj (hfact.transaction.symm.trans h.found)
  refine ⟨hsome, ?_⟩
  rw [hfact.decoded, hsome, Option.bind_some, h.decodes]
  rfl

/-- The facts of a transaction record what the source says about it. -/
theorem transactionFacts_records {fact : TransactionFacts}
    (h : transactionFacts env source request hash = .ok fact) :
    fact.Records env source request hash := by
  unfold transactionFacts at h
  obtain ⟨found, hfound, h⟩ := bind_eq_ok_iff.mp h
  cases found with
  | none =>
    rw [pure_eq_ok_iff] at h
    subst h
    refine ⟨hfound, rfl, by simp, by simp, ?_⟩
    constructor
    · intro hall
      simp at hall
    · intro hincluded
      obtain ⟨transaction, decoded, hincluded⟩ := hincluded
      have hnone := hfound.symm.trans hincluded.found
      cases hnone
  | some transaction =>
    dsimp only at h
    cases hdecode : deserializeTransaction env.ledger transaction.raw with
    | error err =>
      rw [hdecode] at h
      cases h
      refine ⟨hfound, by simp [hdecode, Except.toOption], by simp, by simp, ?_⟩
      constructor
      · intro hall
        simp at hall
      · intro hincluded
        obtain ⟨transaction', decoded, hincluded⟩ := hincluded
        cases hfound.symm.trans hincluded.found
        have herror := hdecode.symm.trans hincluded.decodes
        cases herror
    | ok decoded =>
      rw [hdecode] at h
      obtain ⟨node, hnode, h⟩ := bind_eq_ok_iff.mp h
      rw [pure_eq_ok_iff] at h
      subst h
      refine ⟨hfound, by simp [hdecode, Except.toOption], ?_, by simp, ?_⟩
      · rw [List.forall_mem_cons, List.forall_mem_cons]
        exact ⟨statusCheck_level transaction, hashCheck_level decoded hash, nodeChecks_level hnode⟩
      · simp only [List.forall_mem_cons, statusCheck_ok_iff, hashCheck_ok_iff,
          nodeChecks_ok_iff hnode]
        constructor
        · intro hall
          obtain ⟨hstatus, hown, hholds⟩ := hall
          exact ⟨transaction, decoded, hfound, hdecode, hstatus, hown, hholds⟩
        · intro hincluded
          obtain ⟨transaction', decoded', hincluded⟩ := hincluded
          cases hfound.symm.trans hincluded.found
          cases hdecode.symm.trans hincluded.decodes
          exact ⟨hincluded.included, hincluded.ownHash, hincluded.node⟩

/-- The checks of the placement are Level 2 checks, and all of them pass exactly when no problem
was found. -/
lemma placementChecks_spec {target : VerifyTarget} {pkg : Package} {decoded : Transaction}
    {checks : List Check} (h : placementChecks target pkg decoded = .ok checks) :
    (∀ check ∈ checks, check.level = 2) ∧ ((∀ check ∈ checks, check.ok = true) ↔
      checkPlacement decoded target.toPlacementTarget pkg.segment pkg.parts = .ok []) := by
  unfold placementChecks at h
  obtain ⟨placement, hplacement, h⟩ := bind_eq_ok_iff.mp h
  rw [hplacement]
  split_ifs at h with hclean
  · rw [pure_eq_ok_iff] at h
    subst h
    have hnil : placement = [] := List.length_eq_zero_iff.mp hclean
    simp [hnil]
  · rw [pure_eq_ok_iff] at h
    subst h
    have hne : placement ≠ [] := fun hnil => hclean (List.length_eq_zero_iff.mpr hnil)
    obtain ⟨issue, hissue⟩ := List.exists_mem_of_ne_nil _ hne
    refine ⟨by simp, ?_⟩
    constructor
    · intro hall
      have hok := hall _ (List.mem_map_of_mem hissue)
      cases hok
    · intro hnil
      exact absurd (Except.ok.inj hnil) hne

variable {target : VerifyTarget} {pkg : Package} {fact : Option TransactionFacts}
  {checks : List Check}

/-- The second piece of the checks: none without facts, those of the facts, or these and those of
the placement in the transaction that was decoded. -/
lemma levelTwoChecks_cases (h : levelTwoChecks target pkg fact = .ok checks) :
    (fact = none ∧ checks = []) ∨ ∃ f, fact = some f ∧
      ((f.decoded = none ∧ checks = f.checks) ∨ ∃ decoded placement, f.decoded = some decoded ∧
        placementChecks target pkg decoded = .ok placement ∧ checks = f.checks ++ placement) := by
  unfold levelTwoChecks at h
  cases fact with
  | none =>
    cases h
    exact Or.inl ⟨rfl, rfl⟩
  | some f =>
    refine Or.inr ⟨f, rfl, ?_⟩
    dsimp only at h
    cases hdecoded : f.decoded with
    | none =>
      rw [hdecoded] at h
      cases h
      exact Or.inl ⟨rfl, rfl⟩
    | some decoded =>
      rw [hdecoded] at h
      obtain ⟨placement, hplacement, h⟩ := bind_eq_ok_iff.mp h
      rw [pure_eq_ok_iff] at h
      exact Or.inr ⟨decoded, placement, rfl, hplacement, h.symm⟩

/-- The second piece of the checks is of Level 2. -/
lemma levelTwoChecks_level
    (hfact : ∀ f, fact = some f → f.Records env source request hash)
    (h : levelTwoChecks target pkg fact = .ok checks) : ∀ check ∈ checks, check.level = 2 := by
  rcases levelTwoChecks_cases h with ⟨-, rfl⟩ | ⟨f, hf, ⟨-, rfl⟩ | ⟨_, _, -, hplacement, rfl⟩⟩
  · simp
  · exact (hfact f hf).levels
  · rw [List.forall_mem_append]
    exact ⟨(hfact f hf).levels, (placementChecks_spec hplacement).1⟩

/-- Level 2 holds exactly when the facts of the transaction were collected, it is included, and
the placement of the package in it is clean. -/
theorem levelTwoChecks_passed_iff
    (hfact : ∀ f, fact = some f → f.Records env source request hash)
    (h : levelTwoChecks target pkg fact = .ok checks) :
    Passed checks ↔ fact ≠ none ∧ ∃ transaction decoded,
      IncludedBy env source request hash transaction decoded ∧
        checkPlacement decoded target.toPlacementTarget pkg.segment pkg.parts = .ok [] := by
  rcases levelTwoChecks_cases h with ⟨rfl, rfl⟩ |
      ⟨f, rfl, ⟨hdecoded, rfl⟩ | ⟨decoded, placement, hdecoded, hplacement, rfl⟩⟩
  · simp [Passed]
  · have hrecords := hfact f rfl
    have hnot :
        ¬∃ transaction decoded, IncludedBy env source request hash transaction decoded := by
      intro hincluded
      obtain ⟨transaction, decoded, hincluded⟩ := hincluded
      have hsome := (hrecords.eq_of_includedBy hincluded).2
      rw [hdecoded] at hsome
      cases hsome
    unfold Passed
    rw [hrecords.passed]
    constructor
    · intro hpassed
      exact absurd hpassed.2 hnot
    · intro hclean
      obtain ⟨-, transaction, decoded, hincluded, -⟩ := hclean
      exact absurd ⟨transaction, decoded, hincluded⟩ hnot
  · have hrecords := hfact f rfl
    have hsame : ∀ transaction decoded',
        IncludedBy env source request hash transaction decoded' → decoded' = decoded := by
      intro transaction decoded' hincluded
      have hsome := (hrecords.eq_of_includedBy hincluded).2
      rw [hdecoded] at hsome
      exact (Option.some.inj hsome).symm
    unfold Passed
    rw [List.forall_mem_append, hrecords.passed, (placementChecks_spec hplacement).2]
    constructor
    · intro hpassed
      obtain ⟨-, ⟨transaction, decoded', hincluded⟩, hclean⟩ := hpassed
      obtain rfl := hsame transaction decoded' hincluded
      exact ⟨by simp, transaction, decoded', hincluded, hclean⟩
    · intro hclean
      obtain ⟨-, transaction, decoded', hincluded, hclean⟩ := hclean
      obtain rfl := hsame transaction decoded' hincluded
      exact ⟨by simp [hrecords.nonempty], ⟨transaction, decoded', hincluded⟩, hclean⟩

end LevelTwo

/-! ### Level 3: the code -/

lemma verifierKeyCheck_level (env : VerifyEnv) (entryPoint : JsString) (expected : Bytes)
    (block : Option BlockRef) (state : Option Bytes) :
    (verifierKeyCheck env entryPoint expected block state).level = 3 := by
  unfold verifierKeyCheck
  split
  · rfl
  · split
    · rfl
    · split
      · rfl
      · split_ifs <;> rfl

/-- Level 3 holds exactly when the state stores the expected verifier key for the circuit. -/
theorem verifierKeyCheck_ok_iff {env : VerifyEnv} {entryPoint : JsString} {expected : Bytes}
    {block : Option BlockRef} {state : Option Bytes} :
    (verifierKeyCheck env entryPoint expected block state).ok = true ↔
      ∃ bytes, state = some bytes ∧
        deployedVerifierKey env.ledger bytes entryPoint = .ok (some expected) := by
  unfold verifierKeyCheck
  cases state with
  | none => simp
  | some bytes =>
    simp only [Option.some.injEq, exists_eq_left', compareDeployedVerifierKey]
    cases hkey : deployedVerifierKey env.ledger bytes entryPoint with
    | error err => simp [bind, Except.bind]
    | ok key =>
      cases key with
      | none => simp [pure, Except.pure]
      | some deployed =>
        simp only [ok_bind, pure, Except.pure, Except.ok.injEq, Option.some.injEq]
        split_ifs with hequal
        · have hne : deployed ≠ expected := by
            intro heq
            rw [bytesEqual_iff.mpr heq] at hequal
            cases hequal
          simp [hne]
        · rw [Bool.not_eq_false] at hequal
          simp [bytesEqual_iff.mp hequal]

end MultiPartEvent
