import Mathlib.Tactic.Ring
import MultiPartEvent.Transitions

/-!
# The concurrency limit of the proof server

`limiter` counts the requests in flight and makes callers wait while there are `max` of them.  It is
a transition system over the microtask queue: environment code runs in a macrotask or in a microtask
of its own, and there it makes calls, settles requests and queues further microtasks; the
continuations of the limiter itself are the microtasks of a settled request and of a woken caller.

A slot is freed when the continuation of a settled request runs, and the caller it wakes takes the
slot only when its own microtask runs.  A call made by a microtask between the two finds the slot
free and takes it as well, so that `max` is exceeded (`limiter_overtaken`).  It is not in the runs
without such a call (`limiter_bound`).
-/

namespace MultiPartEvent

/-- A queued microtask. -/
inductive Job where
  /-- The continuation of `await task()` of a call whose request has settled. -/
  | settled (call : ℕ)
  /-- The continuation of the slot promise of a woken caller. -/
  | resume (call : ℕ)
  /-- Code outside the limiter. -/
  | external
  deriving DecidableEq

/-- The variables of the limiter, the requests and the microtask queue. -/
structure LimiterState where
  /-- `active`. -/
  active : ℤ
  /-- `waiting`, by the numbers of the calls. -/
  waiting : List ℕ
  /-- The requests started and not settled, by the numbers of their calls. -/
  inFlight : List ℕ
  queue : List Job
  /-- Code outside the limiter is running. -/
  running : Bool
  /-- The number of calls made. -/
  calls : ℕ
  deriving DecidableEq

/-- Nothing has been called. -/
def LimiterState.start : LimiterState := ⟨0, [], [], [], false, 0⟩

/-- What happens next. -/
inductive LimiterAction where
  /-- A macrotask starts. -/
  | macrotask
  /-- A microtask of code outside the limiter starts. -/
  | external
  /-- The running code queues a microtask of its own. -/
  | enqueue
  /-- The running code ends. -/
  | finish
  /-- The running code makes a call; its request may throw at once. -/
  | call (throws : Bool)
  /-- The running code settles a request, with success or failure. -/
  | settle (call : ℕ)
  /-- The continuation of a settled request runs. -/
  | proceed
  /-- A woken caller resumes; its request may throw at once. -/
  | resume (throws : Bool)
  deriving DecidableEq

/-- The `finally` block: free the slot and wake the first waiting caller. -/
def LimiterState.release (s : LimiterState) : LimiterState :=
  match s.waiting with
  | [] => { s with active := s.active - 1 }
  | call :: rest =>
    { s with active := s.active - 1, waiting := rest, queue := s.queue ++ [.resume call] }

/-- `active += 1` and the start of the request; one that throws at once goes through the `finally`
block. -/
def LimiterState.begin (s : LimiterState) (call : ℕ) (throws : Bool) : LimiterState :=
  let taken := { s with active := s.active + 1 }
  if throws then taken.release else { taken with inFlight := s.inFlight ++ [call] }

/-- Code outside the limiter queues a microtask: it runs after all that are queued. -/
def LimiterState.enqueue (s : LimiterState) (job : Job) : LimiterState :=
  { s with queue := s.queue ++ [job] }

/-- One call of the limited function. -/
def LimiterState.call (max : ℕ) (s : LimiterState) (throws : Bool) : LimiterState :=
  let made := { s with calls := s.calls + 1 }
  if s.active ≥ max then { made with waiting := s.waiting ++ [s.calls] }
  else made.begin s.calls throws

/-- The state after an action, where it is possible. -/
def limiterStep (max : ℕ) (s : LimiterState) : LimiterAction → Option LimiterState
  | .macrotask =>
    if s.running = false ∧ s.queue = [] then some { s with running := true } else none
  | .external =>
    match s.running, s.queue with
    | false, .external :: rest => some { s with queue := rest, running := true }
    | _, _ => none
  | .enqueue => if s.running then some (s.enqueue .external) else none
  | .finish => if s.running then some { s with running := false } else none
  | .call throws => if s.running then some (s.call max throws) else none
  | .settle call =>
    if s.running ∧ call ∈ s.inFlight then
      some ({ s with inFlight := s.inFlight.erase call }.enqueue (.settled call))
    else none
  | .proceed =>
    match s.running, s.queue with
    -- the caller goes on in a microtask of its own, after the one it wakes
    | false, .settled _ :: rest => some ({ s with queue := rest }.release.enqueue .external)
    | _, _ => none
  | .resume throws =>
    match s.running, s.queue with
    | false, .resume call :: rest =>
      some { { s with queue := rest }.begin call throws with running := true }
    | _, _ => none

/-! ### The bound -/

/-- The microtask of a woken caller. -/
def Job.wakes : Job → Bool
  | .resume _ => true
  | _ => false

/-- The microtask of a settled request. -/
def Job.releases : Job → Bool
  | .settled _ => true
  | _ => false

/-- The number of woken callers that have not resumed. -/
def LimiterState.woken (s : LimiterState) : ℕ := s.queue.countP Job.wakes

/-- The number of settled requests whose continuation has not run. -/
def LimiterState.unreleased (s : LimiterState) : ℕ := s.queue.countP Job.releases

/-- The call does not overtake: it does not take at once a slot that a woken caller is about to
take. -/
def DoesNotOvertake (max : ℕ) (s : LimiterState) (action : LimiterAction) : Prop :=
  action = .call true ∨ action = .call false → ¬(s.active < max ∧ max ≤ s.active + s.woken)

instance (max : ℕ) (s : LimiterState) (action : LimiterAction) :
    Decidable (DoesNotOvertake max s action) :=
  inferInstanceAs (Decidable (_ → _))

/-- `active` counts the requests in flight and those whose continuation has not run, and with the
woken callers it stays within the limit. -/
structure LimiterInv (max : ℕ) (s : LimiterState) : Prop where
  counts : s.active = s.inFlight.length + s.unreleased
  bounded : s.active + s.woken ≤ max

variable {max : ℕ} {s s' : LimiterState}

/-- Freeing a slot may wake a caller in its place. -/
lemma release_spec (s : LimiterState) :
    s.release.active = s.active - 1 ∧ s.release.inFlight = s.inFlight ∧
      s.release.unreleased = s.unreleased ∧ s.release.woken ≤ s.woken + 1 := by
  unfold LimiterState.release LimiterState.woken LimiterState.unreleased
  cases s.waiting with
  | nil => exact ⟨rfl, rfl, rfl, Nat.le_succ _⟩
  | cons call rest =>
    refine ⟨rfl, rfl, ?_, ?_⟩
    · simp [Job.releases]
    · simp [Job.wakes]

/-- What is left of the queue after its first microtask. -/
lemma pop_spec {job : Job} {rest : List Job} (h : s.queue = job :: rest) :
    s.unreleased = LimiterState.unreleased { s with queue := rest } + job.releases.toNat ∧
      s.woken = LimiterState.woken { s with queue := rest } + job.wakes.toNat := by
  unfold LimiterState.unreleased LimiterState.woken
  rw [h, List.countP_cons, List.countP_cons]
  cases job <;> exact ⟨rfl, rfl⟩

/-- A request that starts takes a slot; one that throws at once frees it again. -/
lemma begin_inv {call : ℕ} {throws : Bool} (hcounts : s.active = s.inFlight.length + s.unreleased)
    (hroom : s.active + s.woken + 1 ≤ max) : LimiterInv max (s.begin call throws) := by
  unfold LimiterState.begin
  cases throws with
  | true =>
    obtain ⟨hactive, hinFlight, hunreleased, hwoken⟩ :=
      release_spec { s with active := s.active + 1 }
    have hqueue : LimiterState.unreleased { s with active := s.active + 1 } = s.unreleased ∧
        LimiterState.woken { s with active := s.active + 1 } = s.woken := ⟨rfl, rfl⟩
    rw [hqueue.1] at hunreleased
    rw [hqueue.2] at hwoken
    simp only [if_true] at hactive hinFlight ⊢
    constructor
    · rw [hactive, hinFlight, hunreleased]
      omega
    · rw [hactive]
      omega
  | false =>
    have hqueue : ∀ inFlight,
        LimiterState.unreleased { s with active := s.active + 1, inFlight := inFlight } =
          s.unreleased ∧
        LimiterState.woken { s with active := s.active + 1, inFlight := inFlight } = s.woken :=
      fun _ => ⟨rfl, rfl⟩
    constructor
    · simp only [Bool.false_eq_true, if_false, (hqueue _).1, List.length_append,
        List.length_singleton]
      omega
    · simp only [Bool.false_eq_true, if_false, (hqueue _).2]
      omega

/-- A queued microtask of other code changes no count. -/
lemma enqueue_inv (h : LimiterInv max s) : LimiterInv max (s.enqueue .external) := by
  have hunreleased : (s.enqueue .external).unreleased = s.unreleased := by
    simp [LimiterState.enqueue, LimiterState.unreleased, Job.releases]
  have hwoken : (s.enqueue .external).woken = s.woken := by
    simp [LimiterState.enqueue, LimiterState.woken, Job.wakes]
  constructor
  · rw [hunreleased]
    exact h.counts
  · rw [hwoken]
    exact h.bounded

/-- A call waits, or takes a slot that no woken caller is about to take. -/
lemma call_inv (h : LimiterInv max s) {throws : Bool}
    (hallowed : DoesNotOvertake max s (.call throws)) : LimiterInv max (s.call max throws) := by
  unfold LimiterState.call
  split_ifs with hfull
  · exact ⟨h.counts, h.bounded⟩
  · have hnot : ¬(s.active < max ∧ max ≤ s.active + s.woken) := by
      apply hallowed
      cases throws <;> simp
    have hroom : s.active + s.woken + 1 ≤ max := by omega
    have hmade : LimiterState.woken { s with calls := s.calls + 1 } = s.woken := rfl
    exact begin_inv h.counts (hmade ▸ hroom)

/-- **The step lemma.** -/
lemma limiterStep_inv (h : LimiterInv max s) {action : LimiterAction}
    (hallowed : DoesNotOvertake max s action) (hstep : limiterStep max s action = some s') :
    LimiterInv max s' := by
  obtain ⟨hcounts, hbounded⟩ := h
  cases action with
  | macrotask =>
    simp only [limiterStep, Option.ite_none_right_eq_some, Option.some.injEq] at hstep
    rw [← hstep.2]
    exact ⟨hcounts, hbounded⟩
  | external =>
    simp only [limiterStep] at hstep
    split at hstep
    · rename_i rest hrunning hqueue
      cases hstep
      obtain ⟨hunreleased, hwoken⟩ := pop_spec hqueue
      rw [hunreleased] at hcounts
      rw [hwoken] at hbounded
      exact ⟨hcounts, hbounded⟩
    · cases hstep
  | enqueue =>
    simp only [limiterStep, Option.ite_none_right_eq_some, Option.some.injEq] at hstep
    rw [← hstep.2]
    exact enqueue_inv ⟨hcounts, hbounded⟩
  | finish =>
    simp only [limiterStep, Option.ite_none_right_eq_some, Option.some.injEq] at hstep
    rw [← hstep.2]
    exact ⟨hcounts, hbounded⟩
  | call throws =>
    simp only [limiterStep, Option.ite_none_right_eq_some, Option.some.injEq] at hstep
    rw [← hstep.2]
    exact call_inv ⟨hcounts, hbounded⟩ hallowed
  | settle call =>
    simp only [limiterStep, Option.ite_none_right_eq_some, Option.some.injEq] at hstep
    obtain ⟨⟨-, hmem⟩, rfl⟩ := hstep
    have hlength := List.length_erase_of_mem hmem
    have hpos := List.length_pos_of_mem hmem
    constructor
    · simp only [LimiterState.enqueue, LimiterState.unreleased, List.countP_append, hlength] at *
      simp [Job.releases]
      omega
    · simpa [LimiterState.enqueue, LimiterState.woken, Job.wakes] using hbounded
  | proceed =>
    simp only [limiterStep] at hstep
    split at hstep
    · rename_i call rest hrunning hqueue
      cases hstep
      apply enqueue_inv
      obtain ⟨hunreleased, hwoken⟩ := pop_spec hqueue
      obtain ⟨hactive, hinFlight, hunreleased', hwoken'⟩ := release_spec { s with queue := rest }
      simp only [Job.releases, Job.wakes, Bool.toNat_true, Bool.toNat_false] at hunreleased hwoken
      constructor
      · rw [hactive, hinFlight, hunreleased']
        simp only
        omega
      · rw [hactive]
        simp only
        omega
    · cases hstep
  | resume throws =>
    simp only [limiterStep] at hstep
    split at hstep
    · rename_i call rest hrunning hqueue
      cases hstep
      obtain ⟨hunreleased, hwoken⟩ := pop_spec hqueue
      simp only [Job.releases, Job.wakes, Bool.toNat_true, Bool.toNat_false] at hunreleased hwoken
      have hbegun : LimiterInv max (LimiterState.begin { s with queue := rest } call throws) := by
        apply begin_inv
        · simp only
          omega
        · simp only
          omega
      exact ⟨hbegun.counts, hbegun.bounded⟩
    · cases hstep

/-- **The limit holds in the runs without an overtaking call.**  In every state of a run in which no
call takes at once a slot that a woken caller is about to take, at most `max` requests are in
flight. -/
theorem limiter_bound
    (h : Reaches (limiterStep max) (DoesNotOvertake max) LimiterState.start s) :
    s.inFlight.length ≤ max := by
  have hstart : LimiterInv max LimiterState.start :=
    ⟨rfl, Int.natCast_nonneg max⟩
  have hinv : LimiterInv max s :=
    h.invariant hstart fun _ _ _ hbefore hallowed hstep => limiterStep_inv hbefore hallowed hstep
  have hcounts := hinv.counts
  have hbounded := hinv.bounded
  omega

/-- The limit is one, a second call waits, and resumes when the request of the first has settled. -/
theorem limiter_bound_resumed :
    ∃ s, Reaches (limiterStep 1) (DoesNotOvertake 1) LimiterState.start s ∧
      s.inFlight = [1] ∧ s.inFlight.length ≤ 1 := by
  let actions := [LimiterAction.macrotask, .call false, .call false, .finish, .macrotask,
    .settle 0, .finish, .proceed, .resume false]
  have hreached : Reaches (limiterStep 1) (DoesNotOvertake 1) LimiterState.start
      ⟨1, [], [1], [.external], true, 2⟩ :=
    Reaches.of_actions actions .start (by decide)
  exact ⟨_, hreached, rfl, limiter_bound hreached⟩

/-- The limit is one, and a call in a microtask between the continuation of the settled request and
the resumption of the caller it wakes takes the slot too: two requests are in flight. -/
theorem limiter_overtaken :
    ¬∀ max : ℕ, 1 ≤ max → ∀ s,
      Reaches (limiterStep max) (fun _ _ => True) LimiterState.start s →
        s.inFlight.length ≤ max := by
  intro hlimit
  let actions := [LimiterAction.macrotask, .call false, .call false, .finish, .macrotask,
    .settle 0, .enqueue, .finish, .proceed, .external, .call false, .finish, .resume false]
  have hreached : Reaches (limiterStep 1) (fun _ _ => True) LimiterState.start
      ⟨2, [], [2, 1], [.external], true, 3⟩ :=
    Reaches.of_actions actions .start (by decide)
  exact absurd (hlimit 1 le_rfl _ hreached) (by decide)

end MultiPartEvent
