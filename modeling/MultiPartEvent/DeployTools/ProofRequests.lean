import MultiPartEvent.DeployTools.Prover
import MultiPartEvent.Retrying

/-!
# What the requests to the proof server have done

In every state the slots taken are those of the calls whose request runs, a call is in the limiter
exactly once while it awaits it, and it is at an attempt before which all could be retried
(`proverInv_of_reaches`).

Every step advances one call (`Advances`): it leaves the other calls where they are, keeps the state
of its own sound, and lowers what is left for it to do.
-/

namespace MultiPartEvent

variable {ρ : Type*}

/-! ### The state of a call -/

/-- One if the call is in the limiter. -/
def ProofRequest.limited (request : ProofRequest ρ) : ℕ :=
  match request.progress with
  | .limited => 1
  | _ => 0

/-- The invocations so far, and what the progress of a call says of its attempt.  The call holds
`held` slots. -/
def ProofRequest.Sound (maxAttempts : ℕ) (answers : ℕ → Answer ρ) (held : ℕ)
    (request : ProofRequest ρ) : Prop :=
  match request.progress with
  | .limited => request.invocations + 1 = request.attempt + held
  | .returned outcome =>
    request.invocations = request.attempt ∧ outcome = (answers request.attempt).outcome
  | .sleeping =>
    request.invocations = request.attempt ∧ request.attempt < maxAttempts ∧
      (answers request.attempt).Retryable
  | .settled outcome =>
    request.invocations = request.attempt ∧ outcome = (answers request.attempt).outcome ∧
      (request.attempt < maxAttempts → ¬(answers request.attempt).Retryable)

/-- A call is at an attempt within the limit, after attempts that could be retried. -/
structure Served (maxAttempts : ℕ) (answers : ℕ → Answer ρ) (held : ℕ) (request : ProofRequest ρ) :
    Prop where
  started : 1 ≤ request.attempt
  within : request.attempt ≤ maxAttempts
  before : ∀ n, 1 ≤ n → n < request.attempt → (answers n).Retryable
  sound : request.Sound maxAttempts answers held

/-- What is left for a call to do, when the places in the limiter count so much. -/
def ProofRequest.left (maxAttempts queued : ℕ) (request : ProofRequest ρ) : ℕ :=
  match request.progress with
  | .limited => 5 * (maxAttempts - request.attempt) + 3 + queued
  | .returned _ => 5 * (maxAttempts - request.attempt) + 2
  | .sleeping => 5 * (maxAttempts - request.attempt) + 1
  | .settled _ => 0

/-- What is left for a call to do; most for one that has not been made. -/
def ProverState.left (maxAttempts : ℕ) (s : ProverState ρ) (call : ℕ) : ℕ :=
  match s.requests[call]? with
  | none => 5 * maxAttempts + 1
  | some request =>
    request.left maxAttempts (s.slots.woken.count call + 2 * s.slots.waiting.count call)

/-- Every call is sound, and in the limiter exactly once while it awaits it. -/
structure ProverInv (max maxAttempts : ℕ) (endpoint : ℕ → ℕ → Answer ρ) (s : ProverState ρ) :
    Prop where
  fair : s.slots.Fair max
  outside : ∀ call, s.requests[call]? = none → s.slots.inside call = 0
  inside : ∀ call request, s.requests[call]? = some request →
    s.slots.inside call = request.limited
  served : ∀ call request, s.requests[call]? = some request →
    Served maxAttempts (endpoint call) (s.slots.holding.count call) request

/-- What every step does: it advances one call. -/
structure Advances (max maxAttempts : ℕ) (endpoint : ℕ → ℕ → Answer ρ) (call : ℕ)
    (s s' : ProverState ρ) : Prop where
  moves : Semaphore.Moves call s.slots s'.slots
  others : ∀ other, other ≠ call → s'.requests[other]? = s.requests[other]?
  fair : s'.slots.Fair max
  self : ∃ request, s'.requests[call]? = some request ∧
    s'.slots.inside call = request.limited ∧
    Served maxAttempts (endpoint call) (s'.slots.holding.count call) request
  less : s'.left maxAttempts call < s.left maxAttempts call

section Steps

variable {max maxAttempts : ℕ} {endpoint : ℕ → ℕ → Answer ρ} {s s' t : ProverState ρ} {call : ℕ}

/-- **The invariant is kept** by what advances a call. -/
lemma ProverInv.advance (h : ProverInv max maxAttempts endpoint s)
    (hadvances : Advances max maxAttempts endpoint call s s') :
    ProverInv max maxAttempts endpoint s' := by
  obtain ⟨now, hnow, hinside, hserved⟩ := hadvances.self
  constructor
  · exact hadvances.fair
  · intro other hother
    have hne : other ≠ call := by
      rintro rfl
      rw [hnow] at hother
      cases hother
    rw [hadvances.moves.inside_eq other hne]
    rw [hadvances.others other hne] at hother
    exact h.outside other hother
  · intro other request hother
    by_cases hne : other = call
    · subst hne
      obtain rfl := Option.some.inj (hnow.symm.trans hother)
      exact hinside
    · rw [hadvances.moves.inside_eq other hne]
      rw [hadvances.others other hne] at hother
      exact h.inside other request hother
  · intro other request hother
    by_cases hne : other = call
    · subst hne
      obtain rfl := Option.some.inj (hnow.symm.trans hother)
      exact hserved
    · rw [hadvances.moves.holding_eq other hne]
      rw [hadvances.others other hne] at hother
      exact h.served other request hother

/-- What a call awaits in the limiter, by its place there. -/
lemma left_of_limited {request : ProofRequest ρ} (hrequest : s.requests[call]? = some request)
    (hlimited : request.progress = .limited) :
    s.left maxAttempts call = 5 * (maxAttempts - request.attempt) + 3 +
      (s.slots.woken.count call + 2 * s.slots.waiting.count call) := by
  simp only [ProverState.left, hrequest, ProofRequest.left, hlimited]

/-- A call that is in the limiter awaits it. -/
lemma ProverInv.limited_of_inside (h : ProverInv max maxAttempts endpoint s)
    (hinside : s.slots.inside call ≠ 0) :
    ∃ request, s.requests[call]? = some request ∧ request.progress = .limited := by
  cases hrequest : s.requests[call]? with
  | none => exact absurd (h.outside call hrequest) hinside
  | some request =>
    refine ⟨request, rfl, ?_⟩
    have hlimited := h.inside call request hrequest
    unfold ProofRequest.limited at hlimited
    split at hlimited
    next hprogress => exact hprogress
    next => exact absurd hlimited hinside

/-- The step of another call leaves a call no more to do. -/
lemma Advances.left_le
    (hadvances : Advances max maxAttempts endpoint call s s') {other : ℕ} (hne : other ≠ call) :
    s'.left maxAttempts other ≤ s.left maxAttempts other := by
  have hinside := hadvances.moves.inside_eq other hne
  have hholding := hadvances.moves.holding_eq other hne
  have hwaiting := hadvances.moves.waiting_le other hne
  unfold Semaphore.inside at hinside
  unfold ProverState.left
  rw [hadvances.others other hne]
  cases s.requests[other]? with
  | none => exact le_refl _
  | some request =>
    simp only [ProofRequest.left]
    cases request.progress with
    | limited =>
      simp only
      omega
    | returned outcome => exact le_refl _
    | sleeping => exact le_refl _
    | settled outcome => exact le_refl _

/-- A call that is woken has less left to do. -/
lemma Advances.left_lt (h : ProverInv max maxAttempts endpoint s)
    (hadvances : Advances max maxAttempts endpoint call s s') {other : ℕ} (hne : other ≠ call)
    (hwoken : s'.slots.waiting.count other < s.slots.waiting.count other) :
    s'.left maxAttempts other < s.left maxAttempts other := by
  have hinside := hadvances.moves.inside_eq other hne
  have hholding := hadvances.moves.holding_eq other hne
  have hcounted : s.slots.inside other ≠ 0 := by
    unfold Semaphore.inside
    omega
  obtain ⟨request, hrequest, hlimited⟩ := h.limited_of_inside hcounted
  have hrequest' := hrequest
  rw [← hadvances.others other hne] at hrequest'
  rw [left_of_limited hrequest hlimited, left_of_limited hrequest' hlimited]
  unfold Semaphore.inside at hinside
  omega

/-- The request of a call that has a slot starts: it takes the slot, and frees it again if the
endpoint throws. -/
lemma advances_begin {request : ProofRequest ρ} (hmoves : Semaphore.Moves call s.slots t.slots)
    (hothers : ∀ other, other ≠ call → t.requests[other]? = s.requests[other]?)
    (hcall : call < t.requests.length) (hfair : (t.slots.take call).Fair max)
    (houtside : t.slots.inside call = 0) (hlimited : request.progress = .limited)
    (hserved : Served maxAttempts (endpoint call) 0 request)
    (hless : 5 * (maxAttempts - request.attempt) + 3 < s.left maxAttempts call) :
    Advances max maxAttempts endpoint call s (t.begin endpoint call request) := by
  obtain ⟨htake, hinside, hholding⟩ := t.slots.take_spec call
  have hzero : t.slots.waiting.count call = 0 ∧ t.slots.woken.count call = 0 ∧
      t.slots.holding.count call = 0 := by
    unfold Semaphore.inside at houtside
    omega
  have hinvocations : request.invocations + 1 = request.attempt := by
    have hsound := hserved.sound
    simpa only [ProofRequest.Sound, hlimited, add_zero] using hsound
  have hothers' : ∀ request' : ProofRequest ρ, ∀ other, other ≠ call →
      (t.requests.set call request')[other]? = s.requests[other]? := by
    intro request' other hne
    rw [List.getElem?_set_ne (Ne.symm hne)]
    exact hothers other hne
  have hself : ∀ request' : ProofRequest ρ,
      (t.requests.set call request')[call]? = some request' :=
    fun _ => List.getElem?_set_self hcall
  unfold ProverState.begin
  simp only
  split
  next error hanswer =>
    have hmem : call ∈ (t.slots.take call).holding := by simp [Semaphore.take]
    obtain ⟨hleave, hinside', hholding'⟩ := Semaphore.leave_spec hmem
    refine ⟨(hmoves.trans htake).trans hleave, hothers' _, hfair.leave hmem,
      ⟨_, hself _, ?_, ?_⟩, ?_⟩
    · simp only [ProofRequest.limited]
      omega
    · refine ⟨hserved.started, hserved.within, hserved.before, hinvocations, ?_⟩
      simp only [hanswer, Answer.outcome]
    · refine lt_of_le_of_lt ?_ hless
      simp only [ProverState.left, hself, ProofRequest.left]
      omega
  next =>
    refine ⟨hmoves.trans htake, hothers' _, hfair, ⟨_, hself _, ?_, ?_⟩, ?_⟩
    · simp only [ProofRequest.limited, hlimited]
      omega
    · refine ⟨hserved.started, hserved.within, hserved.before, ?_⟩
      simp only [ProofRequest.Sound, hlimited]
      omega
    · have hqueue : (t.slots.take call).woken.count call = 0 ∧
          (t.slots.take call).waiting.count call = 0 := ⟨hzero.2.1, hzero.1⟩
      refine lt_of_le_of_lt ?_ hless
      simp only [ProverState.left, hself, ProofRequest.left, hlimited]
      omega

/-- A call that comes to the limiter waits for a slot, or has one. -/
lemma advances_run {request : ProofRequest ρ} (hslots : t.slots = s.slots)
    (hothers : ∀ other, other ≠ call → t.requests[other]? = s.requests[other]?)
    (hcall : call < t.requests.length) (hfair : s.slots.Fair max)
    (houtside : s.slots.inside call = 0) (hlimited : request.progress = .limited)
    (hserved : Served maxAttempts (endpoint call) 0 request)
    (hless : 5 * (maxAttempts - request.attempt) + 5 < s.left maxAttempts call) :
    Advances max maxAttempts endpoint call s (t.run max endpoint call request) := by
  rw [← hslots] at hfair houtside
  have hstays : Semaphore.Moves call s.slots t.slots := by
    rw [hslots]
    exact .refl _ _
  unfold ProverState.run
  split
  next hfull =>
    obtain ⟨hwait, hinside, hwaiting⟩ := t.slots.wait_spec call
    have hself : (t.requests.set call request)[call]? = some request :=
      List.getElem?_set_self hcall
    have hzero : t.slots.waiting.count call = 0 ∧ t.slots.woken.count call = 0 ∧
        t.slots.holding.count call = 0 := by
      unfold Semaphore.inside at houtside
      omega
    refine ⟨hstays.trans hwait, ?_, hfair.wait hfull call, ⟨request, hself, ?_, ?_⟩, ?_⟩
    · intro other hne
      rw [List.getElem?_set_ne (Ne.symm hne)]
      exact hothers other hne
    · simp only [ProofRequest.limited, hlimited]
      omega
    · have hholding : (t.slots.wait call).holding.count call = 0 := hzero.2.2
      rw [hholding]
      exact hserved
    · have hwoken : (t.slots.wait call).woken.count call = 0 := hzero.2.1
      refine lt_of_le_of_lt ?_ hless
      simp only [ProverState.left, hself, ProofRequest.left, hlimited]
      omega
  next =>
    exact advances_begin hstays hothers hcall (hfair.take call) houtside hlimited hserved (by omega)

/-- The loop after the limiter: the call is settled with its outcome, or sleeps before an attempt
that it may make. -/
lemma caught_spec {answers : ℕ → Answer ρ} {held : ℕ} {request : ProofRequest ρ}
    {outcome : Except ProofError ρ} (hprogress : request.progress = .returned outcome)
    (hserved : Served maxAttempts answers held request) :
    Served maxAttempts answers held (request.caught maxAttempts outcome) ∧
      (request.caught maxAttempts outcome).limited = 0 ∧
      ∀ queued, (request.caught maxAttempts outcome).left maxAttempts queued <
        request.left maxAttempts queued := by
  have hsound := hserved.sound
  simp only [ProofRequest.Sound, hprogress] at hsound
  obtain ⟨hinvocations, houtcome⟩ := hsound
  have hleft : ∀ queued, request.left maxAttempts queued =
      5 * (maxAttempts - request.attempt) + 2 := by
    intro queued
    simp only [ProofRequest.left, hprogress]
  unfold ProofRequest.caught
  cases outcome with
  | ok result =>
    refine ⟨⟨hserved.started, hserved.within, hserved.before, hinvocations, houtcome, ?_⟩, rfl, ?_⟩
    · intro _ hretryable
      obtain ⟨error, herror, _⟩ := hretryable
      exact absurd (houtcome.trans herror) (by simp)
    · intro queued
      rw [hleft]
      exact Nat.succ_pos _
  | error error =>
    by_cases hends : retryableProofError error = none ∨ request.attempt ≥ maxAttempts
    · simp only [if_pos hends]
      refine ⟨⟨hserved.started, hserved.within, hserved.before, hinvocations, houtcome, ?_⟩, rfl,
        ?_⟩
      · intro hmore hretryable
        obtain ⟨error', herror', hagain⟩ := hretryable
        obtain rfl := Except.error.inj (houtcome.trans herror')
        rcases hends with hfinal | hlimit
        · exact hagain hfinal
        · exact absurd hmore (Nat.not_lt.mpr hlimit)
      · intro queued
        rw [hleft]
        exact Nat.succ_pos _
    · simp only [if_neg hends]
      rw [not_or, not_le] at hends
      refine ⟨⟨hserved.started, hserved.within, hserved.before, hinvocations, hends.2, error,
        houtcome.symm, hends.1⟩, rfl, ?_⟩
      intro queued
      rw [hleft]
      exact Nat.lt_succ_self _

/-- A call in the limiter is there once, and awaits it. -/
lemma ProverInv.once (h : ProverInv max maxAttempts endpoint s) {request : ProofRequest ρ}
    (hrequest : s.requests[call]? = some request) (hinside : s.slots.inside call ≠ 0) :
    request.progress = .limited ∧ s.slots.inside call = 1 ∧
      request.invocations + 1 = request.attempt + s.slots.holding.count call := by
  obtain ⟨request', hrequest', hlimited⟩ := h.limited_of_inside hinside
  obtain rfl := Option.some.inj (hrequest.symm.trans hrequest')
  have honce := h.inside call request hrequest
  have hsound := (h.served call request hrequest).sound
  simp only [ProofRequest.limited, hlimited] at honce
  simp only [ProofRequest.Sound, hlimited] at hsound
  exact ⟨hlimited, honce, hsound⟩

/-- A new call comes to the limiter. -/
lemma advances_call (hattempts : 1 ≤ maxAttempts) (h : ProverInv max maxAttempts endpoint s)
    (hstep : proverStep max maxAttempts endpoint s .call = some s') :
    Advances max maxAttempts endpoint s.requests.length s s' := by
  simp only [proverStep, Option.some.injEq] at hstep
  subst hstep
  refine advances_run rfl ?_ ?_ h.fair ?_ rfl ?_ ?_
  · intro other hne
    rcases Nat.lt_or_gt_of_ne hne with hlt | hgt
    · exact List.getElem?_append_left hlt
    · rw [List.getElem?_eq_none (by simpa using hgt), List.getElem?_eq_none (by omega)]
  · simp
  · exact h.outside _ (List.getElem?_eq_none (le_refl _))
  · refine ⟨le_refl _, hattempts, ?_, rfl⟩
    intro n hfirst hlast
    exact absurd hlast (Nat.not_lt.mpr hfirst)
  · have hleft : s.left maxAttempts s.requests.length = 5 * maxAttempts + 1 := by
      simp only [ProverState.left, List.getElem?_eq_none (le_refl _)]
    rw [hleft]
    change 5 * (maxAttempts - 1) + 5 < _
    omega

/-- A woken call takes a slot. -/
lemma advances_resume (h : ProverInv max maxAttempts endpoint s)
    (hstep : proverStep max maxAttempts endpoint s (.resume call) = some s') :
    Advances max maxAttempts endpoint call s s' := by
  simp only [proverStep, Option.ite_none_right_eq_some, Option.map_eq_some_iff] at hstep
  obtain ⟨hwoken, request, hrequest, rfl⟩ := hstep
  obtain ⟨hmoves, hinside⟩ := Semaphore.resumed_spec hwoken
  have hpos := List.count_pos_iff.mpr hwoken
  obtain ⟨hlimited, honce, _⟩ := h.once hrequest (by omega)
  have hholding : s.slots.holding.count call = 0 := by
    unfold Semaphore.inside at honce
    omega
  have hserved := h.served call request hrequest
  rw [hholding] at hserved
  refine advances_begin hmoves (fun _ _ => rfl) ?_ (h.fair.resume hwoken) ?_ hlimited hserved ?_
  · exact (List.getElem?_eq_some_iff.mp hrequest).1
  · simp only
    omega
  · rw [left_of_limited hrequest hlimited]
    omega

/-- A call whose request has settled frees its slot. -/
lemma advances_complete (h : ProverInv max maxAttempts endpoint s)
    (hstep : proverStep max maxAttempts endpoint s (.complete call) = some s') :
    Advances max maxAttempts endpoint call s s' := by
  simp only [proverStep, Option.ite_none_right_eq_some, Option.map_eq_some_iff] at hstep
  obtain ⟨hholding, request, hrequest, rfl⟩ := hstep
  obtain ⟨hmoves, hinside, hheld⟩ := Semaphore.leave_spec hholding
  obtain ⟨hlimited, honce, hinvocations⟩ := h.once hrequest (by omega)
  have hserved := h.served call request hrequest
  have hself : ∀ request' : ProofRequest ρ,
      (s.requests.set call request')[call]? = some request' :=
    fun _ => List.getElem?_set_self (List.getElem?_eq_some_iff.mp hrequest).1
  refine ⟨hmoves, ?_, h.fair.leave hholding, ⟨_, hself _, ?_, ?_⟩, ?_⟩
  · intro other hne
    exact List.getElem?_set_ne (Ne.symm hne)
  · simp only [ProofRequest.limited]
    omega
  · refine ⟨hserved.started, hserved.within, hserved.before, ?_, rfl⟩
    simp only
    unfold Semaphore.inside at honce
    omega
  · rw [left_of_limited hrequest hlimited]
    simp only [ProverState.left, hself, ProofRequest.left]
    omega

/-- A call goes on after the limiter. -/
lemma advances_proceed (h : ProverInv max maxAttempts endpoint s)
    (hstep : proverStep max maxAttempts endpoint s (.proceed call) = some s') :
    Advances max maxAttempts endpoint call s s' := by
  simp only [proverStep, Option.bind_eq_some_iff] at hstep
  obtain ⟨request, hrequest, hstep⟩ := hstep
  have hserved := h.served call request hrequest
  have honce := h.inside call request hrequest
  split at hstep
  next outcome hprogress =>
    cases hstep
    obtain ⟨hcaught, hlimited, hleft⟩ := caught_spec hprogress hserved
    have hself : (s.requests.set call (request.caught maxAttempts outcome))[call]? =
        some (request.caught maxAttempts outcome) :=
      List.getElem?_set_self (List.getElem?_eq_some_iff.mp hrequest).1
    simp only [ProofRequest.limited, hprogress] at honce
    refine ⟨.refl _ _, ?_, h.fair, ⟨_, hself, honce.trans hlimited.symm, hcaught⟩, ?_⟩
    · intro other hne
      exact List.getElem?_set_ne (Ne.symm hne)
    · simp only [ProverState.left, hself, hrequest]
      exact hleft _
  next => cases hstep

/-- A call that has slept comes to the limiter once more. -/
lemma advances_slept (h : ProverInv max maxAttempts endpoint s)
    (hstep : proverStep max maxAttempts endpoint s (.slept call) = some s') :
    Advances max maxAttempts endpoint call s s' := by
  simp only [proverStep, Option.bind_eq_some_iff] at hstep
  obtain ⟨request, hrequest, hstep⟩ := hstep
  have hserved := h.served call request hrequest
  have hsound := hserved.sound
  have honce := h.inside call request hrequest
  split at hstep
  next hprogress =>
    cases hstep
    simp only [ProofRequest.Sound, hprogress] at hsound
    obtain ⟨hinvocations, hmore, hretryable⟩ := hsound
    simp only [ProofRequest.limited, hprogress] at honce
    refine advances_run rfl (fun _ _ => rfl) ?_ h.fair honce rfl ?_ ?_
    · exact (List.getElem?_eq_some_iff.mp hrequest).1
    · refine ⟨by simp, hmore, ?_, ?_⟩
      · intro n hfirst hlast
        rcases Nat.lt_succ_iff_lt_or_eq.mp hlast with hearlier | rfl
        · exact hserved.before n hfirst hearlier
        · exact hretryable
      · simp only [ProofRequest.Sound]
        omega
    · simp only [ProverState.left, hrequest, ProofRequest.left, hprogress]
      omega
  next => cases hstep

/-- The call that an action is about. -/
def ProverAction.subject (s : ProverState ρ) : ProverAction → ℕ
  | .call => s.requests.length
  | .resume call => call
  | .complete call => call
  | .proceed call => call
  | .slept call => call

/-- **The step lemma**: every step advances the call it is about. -/
lemma proverStep_advances (hattempts : 1 ≤ maxAttempts) (h : ProverInv max maxAttempts endpoint s)
    {action : ProverAction} (hstep : proverStep max maxAttempts endpoint s action = some s') :
    Advances max maxAttempts endpoint (action.subject s) s s' := by
  cases action with
  | call => exact advances_call hattempts h hstep
  | resume call => exact advances_resume h hstep
  | complete call => exact advances_complete h hstep
  | proceed call => exact advances_proceed h hstep
  | slept call => exact advances_slept h hstep

/-! ### Every reached state -/

/-- The invariant holds of every reached state. -/
lemma proverInv_of_reaches (hattempts : 1 ≤ maxAttempts)
    (h : Reaches (proverStep max maxAttempts endpoint) (fun _ _ => True) .start s) :
    ProverInv max maxAttempts endpoint s := by
  have hnone : ∀ call : ℕ, (ProverState.start (ρ := ρ)).requests[call]? = none := fun _ => rfl
  have hstart : ProverInv max maxAttempts endpoint ProverState.start := by
    refine ⟨Semaphore.fair_empty, fun _ _ => rfl, ?_, ?_⟩
    · intro call request hrequest
      cases (hnone call).symm.trans hrequest
    · intro call request hrequest
      cases (hnone call).symm.trans hrequest
  exact h.invariant hstart fun _ _ _ hbefore _ hstep =>
    hbefore.advance (proverStep_advances hattempts hbefore hstep)

/-- The slots of a call are at most one, and its invocations at most its attempts. -/
lemma ProverInv.invocations_le (h : ProverInv max maxAttempts endpoint s)
    {request : ProofRequest ρ} (hrequest : s.requests[call]? = some request) :
    request.invocations ≤ request.attempt := by
  have hsound := (h.served call request hrequest).sound
  unfold ProofRequest.Sound at hsound
  split at hsound
  next hprogress =>
    have honce := h.inside call request hrequest
    simp only [ProofRequest.limited, hprogress] at honce
    unfold Semaphore.inside at honce
    omega
  next => exact hsound.1.le
  next => exact hsound.1.le
  next => exact hsound.1.le

/-- The attempt a call is at is no later than its last. -/
lemma Served.attempt_le {answers : ℕ → Answer ρ} {held k : ℕ} {request : ProofRequest ρ}
    (h : Served maxAttempts answers held request)
    (hlast : LastAttempt (fun n => (answers n).Retryable) 1 maxAttempts k) :
    request.attempt ≤ k := by
  by_contra hlater
  rw [not_le] at hlater
  have hwithin := h.within
  exact hlast.ends (by omega) (h.before k hlast.started hlater)

/-- A call that has settled is at its last attempt. -/
lemma Served.lastAttempt {answers : ℕ → Answer ρ} {held : ℕ} {request : ProofRequest ρ}
    {outcome : Except ProofError ρ} (h : Served maxAttempts answers held request)
    (hsettled : request.progress = .settled outcome) :
    LastAttempt (fun n => (answers n).Retryable) 1 maxAttempts request.attempt ∧
      request.invocations = request.attempt ∧ outcome = (answers request.attempt).outcome := by
  have hsound := h.sound
  simp only [ProofRequest.Sound, hsettled] at hsound
  obtain ⟨hinvocations, houtcome, hends⟩ := hsound
  exact ⟨⟨h.started, h.within, h.before, hends⟩, hinvocations, houtcome⟩

/-- A call that sleeps holds no slot. -/
lemma ProverInv.sleeping_outside (h : ProverInv max maxAttempts endpoint s)
    {request : ProofRequest ρ} (hrequest : s.requests[call]? = some request)
    (hsleeping : request.progress = .sleeping) : call ∉ s.slots.holding := by
  intro hholding
  have hpos := List.count_pos_iff.mpr hholding
  have honce := h.inside call request hrequest
  simp only [ProofRequest.limited, hsleeping] at honce
  unfold Semaphore.inside at honce
  omega

end Steps

end MultiPartEvent
