import MultiPartEvent.DeployTools.ProofRequests

/-!
# No proof request is stranded

Whatever the order in which calls, completions and resumptions occur, the limiter wakes its callers
in the order in which they wait, and never leaves one waiting with nothing to wake it.  Every call
makes its attempts up to the first that succeeds or fails for good, or up to the limit, and gives
the outcome of the last (`proof_requests_served`).

That a call settles holds of the runs in which everything due happens at some time: requests settle,
delays end and continuations run.  Calls may be made without end.  A call that waits has so many
others before it, and there are fewer each time a slot is freed.
-/

namespace MultiPartEvent

variable {ρ : Type*}

section Steps

variable {max maxAttempts : ℕ} {endpoint : ℕ → ℕ → Answer ρ} {s s' t : ProverState ρ} {call : ℕ}

/-! ### One step -/

/-- No step leaves a call more to do. -/
lemma left_le_of_step (hattempts : 1 ≤ maxAttempts) (call : ℕ) (s : ProverState ρ)
    (action : ProverAction) (s' : ProverState ρ)
    (h : Reaches (proverStep max maxAttempts endpoint) (fun _ _ => True) .start s)
    (hstep : proverStep max maxAttempts endpoint s action = some s') :
    s'.left maxAttempts call ≤ s.left maxAttempts call := by
  have hinv := proverInv_of_reaches hattempts h
  have hadvances := proverStep_advances hattempts hinv hstep
  by_cases hself : call = action.subject s
  · rw [hself]
    exact hadvances.less.le
  · exact hadvances.left_le hself

/-- A call that has been made stays made. -/
lemma requests_of_step (hattempts : 1 ≤ maxAttempts) (call : ℕ) (s : ProverState ρ)
    (action : ProverAction) (s' : ProverState ρ)
    (h : Reaches (proverStep max maxAttempts endpoint) (fun _ _ => True) .start s)
    (hstep : proverStep max maxAttempts endpoint s action = some s')
    (hmade : s.requests[call]? ≠ none) : s'.requests[call]? ≠ none := by
  have hadvances := proverStep_advances hattempts (proverInv_of_reaches hattempts h) hstep
  by_cases hself : call = action.subject s
  · obtain ⟨request, hrequest, _⟩ := hadvances.self
    rw [hself, hrequest]
    exact Option.some_ne_none request
  · rw [hadvances.others call hself]
    exact hmade

/-- The place of a waiting call in the queue gets no worse, until the call has less to do. -/
lemma ahead_of_step (hattempts : 1 ≤ maxAttempts) (call before : ℕ) (s : ProverState ρ)
    (action : ProverAction) (s' : ProverState ρ)
    (h : Reaches (proverStep max maxAttempts endpoint) (fun _ _ => True) .start s)
    (hstep : proverStep max maxAttempts endpoint s action = some s')
    (hahead : s.slots.Ahead call before) :
    s'.left maxAttempts call < s.left maxAttempts call ∨ s'.slots.Ahead call before := by
  have hinv := proverInv_of_reaches hattempts h
  have hadvances := proverStep_advances hattempts hinv hstep
  by_cases hself : call = action.subject s
  · rw [hself]
    exact Or.inl hadvances.less
  · rcases hadvances.moves.ahead call before hself hahead with hwoken | hahead'
    · exact Or.inl (hadvances.left_lt hinv hself hwoken)
    · exact Or.inr hahead'

/-- Whenever a slot is freed, a waiting call gets a place further, or has less to do. -/
lemma ahead_of_leave (h : ProverInv max maxAttempts endpoint s) {other : ℕ}
    (hadvances : Advances max maxAttempts endpoint other s s') {slots : Semaphore ℕ}
    (hqueue : slots.waiting = s.slots.waiting) (hslots : s'.slots = slots.leave other) {before : ℕ}
    (hahead : s.slots.Ahead call before) :
    s'.left maxAttempts call < s.left maxAttempts call ∨
      ∃ fewer < before, s'.slots.Ahead call fewer := by
  by_cases hself : call = other
  · rw [hself]
    exact Or.inl hadvances.less
  · have hahead' : slots.Ahead call before := by
      obtain ⟨front, back, hwaiting, hfront⟩ := hahead
      exact ⟨front, back, hqueue.trans hwaiting, hfront⟩
    rcases hahead'.leave other with hwoken | hfewer
    · rw [← hslots, hqueue] at hwoken
      exact Or.inl (hadvances.left_lt h hself hwoken)
    · rw [← hslots] at hfewer
      exact Or.inr hfewer

/-- A call that has a slot keeps it until its request settles, or frees it at once. -/
lemma begin_slots (endpoint : ℕ → ℕ → Answer ρ) (t : ProverState ρ) (call : ℕ)
    (request : ProofRequest ρ) :
    (t.begin endpoint call request).slots = (t.slots.take call).leave call ∨
      call ∈ (t.begin endpoint call request).slots.holding := by
  unfold ProverState.begin
  simp only
  split
  next => exact Or.inl rfl
  next => exact Or.inr (by simp [Semaphore.take])

/-- While a call waits, some call can complete or resume. -/
lemma exists_step_of_ahead (hmax : 1 ≤ max) (h : ProverInv max maxAttempts endpoint s)
    {before : ℕ} (hahead : s.slots.Ahead call before) :
    ∃ other, other ∈ s.slots.holding ∨ other ∈ s.slots.woken := by
  obtain ⟨front, back, hwaiting, _⟩ := hahead
  have hoccupied := h.fair.occupied (by rw [hwaiting]; simp)
  rcases Nat.eq_zero_or_pos s.slots.holding.length with hnone | hsome
  · obtain ⟨other, hother⟩ := List.exists_mem_of_length_pos (l := s.slots.woken) (by omega)
    exact ⟨other, Or.inr hother⟩
  · obtain ⟨other, hother⟩ := List.exists_mem_of_length_pos hsome
    exact ⟨other, Or.inl hother⟩

/-- A call that holds a slot can complete. -/
lemma isSome_complete (h : ProverInv max maxAttempts endpoint s)
    (hholding : call ∈ s.slots.holding) :
    (proverStep max maxAttempts endpoint s (.complete call)).isSome = true := by
  have hpos := List.count_pos_iff.mpr hholding
  have hinside : s.slots.inside call ≠ 0 := by
    unfold Semaphore.inside
    omega
  obtain ⟨request, hrequest, _⟩ := h.limited_of_inside hinside
  simp only [proverStep, if_pos hholding, hrequest, Option.map_some, Option.isSome_some]

/-- A woken call can resume. -/
lemma isSome_resume (h : ProverInv max maxAttempts endpoint s) (hwoken : call ∈ s.slots.woken) :
    (proverStep max maxAttempts endpoint s (.resume call)).isSome = true := by
  have hpos := List.count_pos_iff.mpr hwoken
  have hinside : s.slots.inside call ≠ 0 := by
    unfold Semaphore.inside
    omega
  obtain ⟨request, hrequest, _⟩ := h.limited_of_inside hinside
  simp only [proverStep, if_pos hwoken, hrequest, Option.map_some, Option.isSome_some]

end Steps

/-! ### Runs -/

section Runs

variable {max maxAttempts : ℕ} {endpoint : ℕ → ℕ → Answer ρ} {call : ℕ}
  (run : FairRun (proverStep max maxAttempts endpoint) (· ≠ .call) .start)

/-- The call is done, or has less to do than at the moment `n`. -/
def HasLess (maxAttempts : ℕ) (state : ℕ → ProverState ρ) (call n m : ℕ) : Prop :=
  n ≤ m ∧ (state m).left maxAttempts call < (state n).left maxAttempts call

/-- A call that can take a step of its own has less to do later. -/
lemma hasLess_of_possible (hattempts : 1 ≤ maxAttempts) {n : ℕ} {action : ProverAction}
    (hdue : action ≠ .call) (hsubject : ∀ s : ProverState ρ, action.subject s = call)
    (hpossible : (proverStep max maxAttempts endpoint (run.state n) action).isSome = true) :
    ∃ m, HasLess maxAttempts run.state call n m := by
  obtain ⟨m, hm, haction⟩ := run.fair n action hdue hpossible
  have hinv := proverInv_of_reaches hattempts (run.reaches m)
  have hadvances := proverStep_advances hattempts hinv (run.steps m action haction)
  rw [hsubject] at hadvances
  have hle := run.measure_le (left_le_of_step hattempts call) hm
  exact ⟨m + 1, by omega, hadvances.less.trans_le hle⟩

/-- When an action has been taken at some later moment, a waiting call has kept its place until
then, if it has not less to do. -/
lemma exists_ahead_of_possible (hattempts : 1 ≤ maxAttempts) {n before : ℕ} {action : ProverAction}
    (hdue : action ≠ .call)
    (hpossible : (proverStep max maxAttempts endpoint (run.state n) action).isSome = true)
    (hahead : (run.state n).slots.Ahead call before) :
    ∃ m, HasLess maxAttempts run.state call n m ∨
      n ≤ m ∧ proverStep max maxAttempts endpoint (run.state m) action = some (run.state (m + 1)) ∧
        (run.state m).left maxAttempts call ≤ (run.state n).left maxAttempts call ∧
        (run.state m).slots.Ahead call before := by
  obtain ⟨m, hm, haction⟩ := run.fair n action hdue hpossible
  refine ⟨m, ?_⟩
  rcases run.kept_until (left_le_of_step hattempts call) (ahead_of_step hattempts call before) hm
    hahead with hlower | hahead'
  · exact Or.inl ⟨hm, hlower⟩
  · exact Or.inr ⟨hm, run.steps m action haction,
      run.measure_le (left_le_of_step hattempts call) hm, hahead'⟩

/-- The request of a call that holds a slot settles at some time, and a waiting call then gets a
place further. -/
lemma place_of_holding (hattempts : 1 ≤ maxAttempts) {n before other : ℕ}
    (hholding : other ∈ (run.state n).slots.holding)
    (hahead : (run.state n).slots.Ahead call before) :
    ∃ m, HasLess maxAttempts run.state call n m ∨
      n ≤ m ∧ (run.state m).left maxAttempts call ≤ (run.state n).left maxAttempts call ∧
        ∃ fewer < before, (run.state m).slots.Ahead call fewer := by
  have hpossible := isSome_complete (proverInv_of_reaches hattempts (run.reaches n)) hholding
  obtain ⟨m, hless | ⟨hm, hstep, hle, hahead'⟩⟩ :=
    exists_ahead_of_possible run hattempts (by simp) hpossible hahead
  · exact ⟨m, Or.inl hless⟩
  · have hinv := proverInv_of_reaches hattempts (run.reaches m)
    have hadvances := advances_complete hinv hstep
    have hslots : (run.state (m + 1)).slots = (run.state m).slots.leave other := by
      simp only [proverStep, Option.ite_none_right_eq_some, Option.map_eq_some_iff] at hstep
      obtain ⟨_, request, _, hnext⟩ := hstep
      rw [← hnext]
    rcases ahead_of_leave hinv hadvances rfl hslots hahead' with hlower | hfewer
    · exact ⟨m + 1, Or.inl ⟨by omega, hlower.trans_le hle⟩⟩
    · have hfalls := left_le_of_step hattempts call _ _ _ (run.reaches m) hstep
      exact ⟨m + 1, Or.inr ⟨by omega, hfalls.trans hle, hfewer⟩⟩

/-- A woken call resumes at some time, and its request settles. -/
lemma place_of_woken (hattempts : 1 ≤ maxAttempts) {n before other : ℕ}
    (hwoken : other ∈ (run.state n).slots.woken)
    (hahead : (run.state n).slots.Ahead call before) :
    ∃ m, HasLess maxAttempts run.state call n m ∨
      n ≤ m ∧ (run.state m).left maxAttempts call ≤ (run.state n).left maxAttempts call ∧
        ∃ fewer < before, (run.state m).slots.Ahead call fewer := by
  have hpossible := isSome_resume (proverInv_of_reaches hattempts (run.reaches n)) hwoken
  obtain ⟨m, hless | ⟨hm, hstep, hle, hahead'⟩⟩ :=
    exists_ahead_of_possible run hattempts (by simp) hpossible hahead
  · exact ⟨m, Or.inl hless⟩
  · have hinv := proverInv_of_reaches hattempts (run.reaches m)
    have hadvances := advances_resume hinv hstep
    have hfalls := left_le_of_step hattempts call _ _ _ (run.reaches m) hstep
    have hnext := hstep
    simp only [proverStep, Option.ite_none_right_eq_some, Option.map_eq_some_iff] at hnext
    obtain ⟨_, request, _, hnext⟩ := hnext
    have hqueue : (((run.state m).slots.resumed other).take other).waiting =
        (run.state m).slots.waiting := rfl
    rcases begin_slots endpoint { run.state m with slots := (run.state m).slots.resumed other }
      other request with hslots | hholding
    · -- its endpoint throws at once
      rw [hnext] at hslots
      rcases ahead_of_leave hinv hadvances hqueue hslots hahead' with hlower | hfewer
      · exact ⟨m + 1, Or.inl ⟨by omega, hlower.trans_le hle⟩⟩
      · exact ⟨m + 1, Or.inr ⟨by omega, hfalls.trans hle, hfewer⟩⟩
    · rw [hnext] at hholding
      rcases ahead_of_step hattempts call before _ _ _ (run.reaches m) hstep hahead' with
        hlower | hahead''
      · exact ⟨m + 1, Or.inl ⟨by omega, hlower.trans_le hle⟩⟩
      · obtain ⟨last, hless | ⟨hlast, hle', hfewer⟩⟩ :=
          place_of_holding run hattempts hholding hahead''
        · exact ⟨last, Or.inl ⟨by have := hless.1; omega, hless.2.trans_le (hfalls.trans hle)⟩⟩
        · exact ⟨last, Or.inr ⟨by omega, hle'.trans (hfalls.trans hle), hfewer⟩⟩

/-- **A waiting call is woken.** -/
lemma hasLess_of_ahead (hmax : 1 ≤ max) (hattempts : 1 ≤ maxAttempts) {n before : ℕ}
    (hahead : (run.state n).slots.Ahead call before) :
    ∃ m, HasLess maxAttempts run.state call n m := by
  induction before using Nat.strong_induction_on generalizing n with
  | _ before ih =>
    have hinv := proverInv_of_reaches hattempts (run.reaches n)
    have hfreed : ∃ m, HasLess maxAttempts run.state call n m ∨
        n ≤ m ∧ (run.state m).left maxAttempts call ≤ (run.state n).left maxAttempts call ∧
          ∃ fewer < before, (run.state m).slots.Ahead call fewer := by
      obtain ⟨other, hholding | hwoken⟩ := exists_step_of_ahead hmax hinv hahead
      · exact place_of_holding run hattempts hholding hahead
      · exact place_of_woken run hattempts hwoken hahead
    obtain ⟨m, hless | ⟨hm, hle, fewer, hfewer, hahead'⟩⟩ := hfreed
    · exact ⟨m, hless⟩
    · obtain ⟨last, hlast, hlower⟩ := ih fewer hfewer hahead'
      exact ⟨last, hm.trans hlast, hlower.trans_le hle⟩

/-- A call that is not settled has less to do later. -/
lemma hasLess_of_unsettled (hmax : 1 ≤ max) (hattempts : 1 ≤ maxAttempts) {n : ℕ}
    (hmade : (run.state n).requests[call]? ≠ none)
    (hleft : (run.state n).left maxAttempts call ≠ 0) :
    ∃ m, HasLess maxAttempts run.state call n m := by
  have hinv := proverInv_of_reaches hattempts (run.reaches n)
  obtain ⟨request, hrequest⟩ := Option.ne_none_iff_exists'.mp hmade
  cases hprogress : request.progress with
  | limited =>
    have honce := hinv.inside call request hrequest
    simp only [ProofRequest.limited, hprogress] at honce
    have hplace : call ∈ (run.state n).slots.waiting ∨ call ∈ (run.state n).slots.woken ∨
        call ∈ (run.state n).slots.holding := by
      simp only [← List.count_pos_iff]
      unfold Semaphore.inside at honce
      omega
    rcases hplace with hwaiting | hwoken | hholding
    · obtain ⟨before, hahead⟩ := Semaphore.exists_ahead hwaiting
      exact hasLess_of_ahead run hmax hattempts hahead
    · exact hasLess_of_possible run hattempts (by simp) (fun _ => rfl) (isSome_resume hinv hwoken)
    · exact hasLess_of_possible run hattempts (by simp) (fun _ => rfl)
        (isSome_complete hinv hholding)
  | returned outcome =>
    have hpossible :
        (proverStep max maxAttempts endpoint (run.state n) (.proceed call)).isSome = true := by
      simp only [proverStep, hrequest, Option.bind_some, hprogress, Option.isSome_some]
    exact hasLess_of_possible run hattempts (by simp) (fun _ => rfl) hpossible
  | sleeping =>
    have hpossible :
        (proverStep max maxAttempts endpoint (run.state n) (.slept call)).isSome = true := by
      simp only [proverStep, hrequest, Option.bind_some, hprogress, Option.isSome_some]
    exact hasLess_of_possible run hattempts (by simp) (fun _ => rfl) hpossible
  | settled outcome =>
    refine absurd ?_ hleft
    simp only [ProverState.left, hrequest, ProofRequest.left, hprogress]

/-- **Every call settles.** -/
lemma settles_eventually (hmax : 1 ≤ max) (hattempts : 1 ≤ maxAttempts) {n : ℕ}
    (hmade : (run.state n).requests[call]? ≠ none) :
    ∃ m, n ≤ m ∧ ∃ request outcome, (run.state m).requests[call]? = some request ∧
      request.progress = .settled outcome := by
  have hstays : ∀ m, n ≤ m → (run.state m).requests[call]? ≠ none := fun m hm =>
    run.kept (P := fun s => s.requests[call]? ≠ none) (requests_of_step hattempts call) hm hmade
  have hlower : ∀ k, n ≤ k → (run.state k).left maxAttempts call ≠ 0 →
      ∃ m, k ≤ m ∧ (run.state m).left maxAttempts call < (run.state k).left maxAttempts call :=
    fun k hk hleft => hasLess_of_unsettled run hmax hattempts (hstays k hk) hleft
  obtain ⟨m, hm, hzero⟩ := run.measure_eventually_zero
    (fun s => s.left maxAttempts call) hlower (le_refl n)
  refine ⟨m, hm, ?_⟩
  obtain ⟨request, hrequest⟩ := Option.ne_none_iff_exists'.mp (hstays m hm)
  simp only [ProverState.left, hrequest, ProofRequest.left] at hzero
  cases hprogress : request.progress with
  | settled outcome => exact ⟨request, outcome, hrequest, hprogress⟩
  | limited =>
    rw [hprogress] at hzero
    simp at hzero
  | returned outcome =>
    rw [hprogress] at hzero
    simp at hzero
  | sleeping =>
    rw [hprogress] at hzero
    simp at hzero

end Runs

/-- **No proof request is stranded.**  In every reached state, while callers wait, the calls that
hold a slot and the woken ones come to the limit; callers are woken in the order of their waits,
once for each; nobody waits when nobody holds a slot or is woken; a call that sleeps holds no slot;
and a call has invoked its endpoint at most as often as it has attempts, exactly so if it has
settled, with the outcome of the last.  In every fair run every call settles. -/
theorem proof_requests_served {max maxAttempts : ℕ} (hmax : 1 ≤ max) (hattempts : 1 ≤ maxAttempts)
    (endpoint : ℕ → ℕ → Answer ρ) :
    (∀ s, Reaches (proverStep max maxAttempts endpoint) (fun _ _ => True) .start s →
      s.slots.active = s.slots.holding.length ∧
      (s.slots.waiting ≠ [] → max ≤ s.slots.holding.length + s.slots.woken.length) ∧
      s.slots.waits = s.slots.wakes ++ s.slots.waiting ∧
      (s.slots.holding = [] → s.slots.woken = [] → s.slots.waiting = []) ∧
      ∀ call request, s.requests[call]? = some request →
        (request.progress = .sleeping → call ∉ s.slots.holding) ∧
        ∀ k, LastAttempt (fun n => (endpoint call n).Retryable) 1 maxAttempts k →
          request.invocations ≤ k ∧
          ∀ outcome, request.progress = .settled outcome →
            request.invocations = k ∧ outcome = (endpoint call k).outcome) ∧
    ∀ (run : FairRun (proverStep max maxAttempts endpoint) (· ≠ .call) .start) (n call : ℕ),
      (run.state n).requests[call]? ≠ none →
        ∃ m, n ≤ m ∧ ∃ k, LastAttempt (fun n => (endpoint call n).Retryable) 1 maxAttempts k ∧
          (run.state m).requests[call]? = some ⟨k, k, .settled (endpoint call k).outcome⟩ := by
  constructor
  · intro s hreached
    have hinv := proverInv_of_reaches hattempts hreached
    refine ⟨hinv.fair.counts, hinv.fair.occupied, hinv.fair.order, ?_, ?_⟩
    · intro hholding hwoken
      by_contra hwaiting
      have hoccupied := hinv.fair.occupied hwaiting
      rw [hholding, hwoken, List.length_nil] at hoccupied
      omega
    · intro call request hrequest
      have hserved := hinv.served call request hrequest
      refine ⟨hinv.sleeping_outside hrequest, fun k hk => ⟨?_, fun outcome hsettled => ?_⟩⟩
      · exact (hinv.invocations_le hrequest).trans (hserved.attempt_le hk)
      · obtain ⟨hlast, hinvocations, houtcome⟩ := hserved.lastAttempt hsettled
        rw [hk.unique hlast]
        exact ⟨hinvocations, houtcome⟩
  · intro run n call hmade
    obtain ⟨m, hm, request, outcome, hrequest, hsettled⟩ :=
      settles_eventually run hmax hattempts hmade
    have hinv := proverInv_of_reaches hattempts (run.reaches m)
    obtain ⟨hlast, hinvocations, houtcome⟩ :=
      (hinv.served call request hrequest).lastAttempt hsettled
    refine ⟨m, hm, request.attempt, hlast, ?_⟩
    rw [hrequest, ← houtcome, ← hsettled]
    exact congrArg some (by rw [ProofRequest.mk.injEq]; exact ⟨rfl, hinvocations, rfl⟩)

/-- One call, whose request succeeds. -/
def oneCall : FairRun (proverStep 1 1 fun _ _ => .resolves ()) (· ≠ .call) .start where
  state
    | 0 => .start
    | 1 => ⟨⟨1, [], [], [0], [], []⟩, [⟨1, 1, .limited⟩]⟩
    | 2 => ⟨⟨0, [], [], [], [], []⟩, [⟨1, 1, .returned (.ok ())⟩]⟩
    | _ + 3 => ⟨⟨0, [], [], [], [], []⟩, [⟨1, 1, .settled (.ok ())⟩]⟩
  action
    | 0 => some .call
    | 1 => some (.complete 0)
    | 2 => some (.proceed 0)
    | _ + 3 => none
  starts := rfl
  pauses
    | _ + 3, _ => rfl
  steps
    | 0, _, h => by cases h; rfl
    | 1, _, h => by cases h; rfl
    | 2, _, h => by cases h; rfl
  fair := by
    -- the only action possible at each moment is the one taken
    intro n action hdue hpossible
    match n with
    | 0 =>
      cases action <;> simp [proverStep, ProverState.start, Semaphore.empty] at hdue hpossible
    | 1 =>
      cases action with
      | call => exact absurd rfl hdue
      | complete call =>
        obtain rfl : call = 0 := by
          by_contra hother
          simp [proverStep, hother] at hpossible
        exact ⟨1, le_refl 1, rfl⟩
      | resume call => simp [proverStep] at hpossible
      | proceed call => cases call <;> simp [proverStep] at hpossible
      | slept call => cases call <;> simp [proverStep] at hpossible
    | 2 =>
      cases action with
      | call => exact absurd rfl hdue
      | proceed call =>
        obtain rfl : call = 0 := by
          by_contra hother
          obtain ⟨before, rfl⟩ := Nat.exists_eq_succ_of_ne_zero hother
          simp [proverStep] at hpossible
        exact ⟨2, le_refl 2, rfl⟩
      | resume call => simp [proverStep] at hpossible
      | complete call => simp [proverStep] at hpossible
      | slept call => cases call <;> simp [proverStep] at hpossible
    | n + 3 =>
      cases action with
      | call => exact absurd rfl hdue
      | resume call => simp [proverStep] at hpossible
      | complete call => simp [proverStep] at hpossible
      | proceed call => cases call <;> simp [proverStep] at hpossible
      | slept call => cases call <;> simp [proverStep] at hpossible

/-- A second call waits while the first holds the slot; and a call made settles. -/
theorem proof_requests_served_once :
    (∃ s, Reaches (proverStep 1 1 fun _ _ => Answer.resolves ()) (fun _ _ => True) .start s ∧
      s.slots.waiting = [1] ∧ 1 ≤ s.slots.holding.length + s.slots.woken.length) ∧
    ∃ m, 1 ≤ m ∧ ∃ k, (oneCall.state m).requests[0]? = some ⟨k, k, .settled (.ok ())⟩ := by
  have hserved := proof_requests_served (le_refl 1) (le_refl 1) fun _ _ => Answer.resolves ()
  constructor
  · have hreached : Reaches (proverStep 1 1 fun _ _ => Answer.resolves ()) (fun _ _ => True) .start
        ⟨⟨1, [1], [], [0], [1], []⟩, [⟨1, 1, .limited⟩, ⟨1, 0, .limited⟩]⟩ :=
      Reaches.of_actions [.call, .call] .start rfl
    exact ⟨_, hreached, rfl, (hserved.1 _ hreached).2.1 (by simp)⟩
  · obtain ⟨m, hm, k, _, hsettled⟩ := hserved.2 oneCall 1 0 (by simp [oneCall])
    exact ⟨m, hm, k, hsettled⟩

end MultiPartEvent
