import MultiPartEvent.Actions
import Mathlib.Logic.Relation
import Mathlib.Tactic.Common

/-!
# Polling until time is up

A loop that looks for something and, unless it finds it or time is up, sleeps and looks again.
What it comes to is told by the rounds before its last one (`Waits`), and the last round alone
decides: it finds something, or time is up after it, or the look throws.

Against a clock that every sleep moves on, the loop comes to an end (`pollUntil_ends`).  And if no
round is longer than `longest`, it cannot miss what is there to be found one such round before the
deadline (`pollUntil_finds`): the round that spans that moment ends before time is up, so there is a
next one, and that one looks late enough.
-/

namespace MultiPartEvent

/-- How far polling has come. -/
inductive Polled (α : Type) where
  | found (a : α)
  | timedOut
  /-- The fuel is used up before the loop has ended. -/
  | polling

namespace Action

variable {ε σ α : Type}

/-- Change the state. -/
def change (f : σ → σ) : Action ε σ Unit := fun s => (.ok (), f s)

/-- `for (;;) { look; if (isOver) return; sleep }`, for at most so many rounds. -/
def pollUntil (look : Action ε σ (Option α)) (isOver : σ → Bool) (sleep : σ → σ) :
    ℕ → Action ε σ (Polled α)
  | 0 => pure .polling
  | rounds + 1 => do
    match ← look with
    | some a => return .found a
    | none =>
      if ← Action.look isOver then return .timedOut
      else do
        change sleep
        pollUntil look isOver sleep rounds

section Rounds

variable {look : Action ε σ (Option α)} {isOver : σ → Bool} {sleep : σ → σ} {s s' start middle : σ}
  {a : α} {err : ε} {rounds : ℕ}

/-- One round that finds nothing before time is up, and sleeps. -/
def Waits (look : Action ε σ (Option α)) (isOver : σ → Bool) (sleep : σ → σ) (s s' : σ) : Prop :=
  ∃ middle, look.Returns s none middle ∧ isOver middle = false ∧ s' = sleep middle

/-- A round that finds something ends the loop. -/
lemma pollUntil_of_found (h : look.Returns s (some a) s') :
    (pollUntil look isOver sleep (rounds + 1)).Returns s (.found a) s' :=
  returns_bind_iff.mpr ⟨some a, s', h, rfl⟩

/-- A round that throws ends the loop. -/
lemma pollUntil_of_throws (h : look.Throws s err s') :
    (pollUntil look isOver sleep (rounds + 1)).Throws s err s' :=
  throws_bind_iff.mpr (Or.inl h)

/-- After a round that finds nothing the loop looks at the clock. -/
lemma pollUntil_of_none (h : look.Returns s none middle) :
    pollUntil look isOver sleep (rounds + 1) s =
      if isOver middle then (.ok .timedOut, middle)
      else pollUntil look isOver sleep rounds (sleep middle) := by
  rw [pollUntil, h.bind]
  change (Action.look isOver >>= _) middle = _
  have hover : (Action.look isOver : Action ε σ Bool).Returns middle (isOver middle) middle := rfl
  rw [hover.bind]
  by_cases hup : isOver middle = true
  · rw [if_pos hup, if_pos hup]
    rfl
  · rw [if_neg hup, if_neg hup]
    rfl

/-- A round that finds nothing when time is up ends the loop. -/
lemma pollUntil_of_over (h : look.Returns s none middle) (hover : isOver middle = true) :
    (pollUntil look isOver sleep (rounds + 1)).Returns s .timedOut middle := by
  unfold Returns
  rw [pollUntil_of_none h, hover, if_pos rfl]

/-- A round that waits is followed by the others. -/
lemma pollUntil_of_waits (h : Waits look isOver sleep s s') :
    pollUntil look isOver sleep (rounds + 1) s = pollUntil look isOver sleep rounds s' := by
  obtain ⟨middle, hnone, hover, rfl⟩ := h
  rw [pollUntil_of_none hnone, hover, if_neg (by simp)]

/-- A round waits, or it is the last: it finds something, time is up after it, or it throws. -/
lemma waits_or_last (look : Action ε σ (Option α)) (isOver : σ → Bool) (sleep : σ → σ) (s : σ) :
    (∃ s', Waits look isOver sleep s s') ∨ (∃ a s', look.Returns s (some a) s') ∨
      (∃ s', look.Returns s none s' ∧ isOver s' = true) ∨ ∃ err s', look.Throws s err s' := by
  rcases returns_or_throws look s with ⟨found, s', h⟩ | hthrows
  · cases found with
    | some a => exact Or.inr (Or.inl ⟨a, s', h⟩)
    | none =>
      by_cases hover : isOver s' = true
      · exact Or.inr (Or.inr (Or.inl ⟨s', h, hover⟩))
      · exact Or.inl ⟨sleep s', s', h, by simpa using hover, rfl⟩
  · exact Or.inr (Or.inr (Or.inr hthrows))

/-- What the loop returns from the last round on, it returns from the first. -/
lemma pollUntil_of_rounds (h : Relation.ReflTransGen (Waits look isOver sleep) s start) :
    ∃ more, ∀ rounds,
      pollUntil look isOver sleep (rounds + more) s = pollUntil look isOver sleep rounds start := by
  induction h using Relation.ReflTransGen.head_induction_on with
  | refl => exact ⟨0, fun rounds => rfl⟩
  | head hwaits _ ih =>
    obtain ⟨more, hmore⟩ := ih
    refine ⟨more + 1, fun rounds => ?_⟩
    rw [← Nat.add_assoc, pollUntil_of_waits hwaits, hmore]

/-- A loop that ends has a last round, before which every round waits. -/
lemma exists_last_round {result : Except ε (Polled α)}
    (h : pollUntil look isOver sleep rounds s = (result, s')) (hended : result ≠ .ok .polling) :
    ∃ start, Relation.ReflTransGen (Waits look isOver sleep) s start ∧
      ((∃ a, result = .ok (.found a) ∧ look.Returns start (some a) s') ∨
        (result = .ok .timedOut ∧ look.Returns start none s' ∧ isOver s' = true) ∨
        ∃ err, result = .error err ∧ look.Throws start err s') := by
  induction rounds generalizing s with
  | zero =>
    cases h
    exact absurd rfl hended
  | succ rounds ih =>
    rcases waits_or_last look isOver sleep s with
      ⟨next, hwaits⟩ | ⟨a, found, hfound⟩ | ⟨later, hnone, hover⟩ | ⟨err, later, hthrows⟩
    · rw [pollUntil_of_waits hwaits] at h
      obtain ⟨start, hrounds, hlast⟩ := ih h
      exact ⟨start, .head hwaits hrounds, hlast⟩
    · have hends : (.ok (.found a), found) = (result, s') :=
        (pollUntil_of_found hfound).symm.trans h
      cases hends
      exact ⟨s, .refl, Or.inl ⟨a, rfl, hfound⟩⟩
    · have hends : (.ok .timedOut, later) = (result, s') :=
        (pollUntil_of_over hnone hover).symm.trans h
      cases hends
      exact ⟨s, .refl, Or.inr (Or.inl ⟨rfl, hnone, hover⟩)⟩
    · have hends : (.error err, later) = (result, s') :=
        (pollUntil_of_throws hthrows).symm.trans h
      cases hends
      exact ⟨s, .refl, Or.inr (Or.inr ⟨err, rfl, hthrows⟩)⟩

end Rounds

/-! ### Against a clock -/

section Clock

variable {look : Action ε σ (Option α)} {sleep : σ → σ} {now : σ → ℕ} {deadline longest : ℕ}
  {s s' : σ}

/-- The clock moves on while the loop waits: looking never turns it back, and every sleep takes
time. -/
structure MovesOnClock (now : σ → ℕ) (look : Action ε σ (Option α)) (sleep : σ → σ) : Prop where
  look : ∀ s s', look.Returns s none s' → now s ≤ now s'
  sleep : ∀ s, now s < now (sleep s)

/-- A round that waits takes time, and ends before the deadline. -/
lemma MovesOnClock.waits (h : MovesOnClock now look sleep)
    (hwaits : Waits look (fun s => decide (deadline ≤ now s)) sleep s s') :
    now s < now s' ∧ now s < deadline := by
  obtain ⟨middle, hnone, hover, rfl⟩ := hwaits
  have hlook := h.look s middle hnone
  have hsleep := h.sleep middle
  have hbefore : now middle < deadline := by simpa using hover
  exact ⟨by omega, by omega⟩

/-- The loop ends: there is a last round, before which every round waits. -/
lemma MovesOnClock.exists_last (h : MovesOnClock now look sleep) (deadline : ℕ) (s : σ) :
    ∃ start, Relation.ReflTransGen (Waits look (fun s => decide (deadline ≤ now s)) sleep) s start ∧
      ¬∃ next, Waits look (fun s => decide (deadline ≤ now s)) sleep start next := by
  -- each round that waits leaves less time until the deadline
  induction hleft : deadline - now s using Nat.strongRecOn generalizing s with
  | ind left ih =>
    by_cases hwaits : ∃ next, Waits look (fun s => decide (deadline ≤ now s)) sleep s next
    · obtain ⟨next, hnext⟩ := hwaits
      have hclock := h.waits hnext
      obtain ⟨start, hrounds, hlast⟩ := ih (deadline - now next) (by omega) next rfl
      exact ⟨start, .head hnext hrounds, hlast⟩
    · exact ⟨s, .refl, hwaits⟩

/-- **Polling ends.**  When every sleep takes time, enough rounds end the loop. -/
theorem pollUntil_ends (h : MovesOnClock now look sleep) (deadline : ℕ) (s : σ) :
    ∃ rounds, ∀ s', ¬(pollUntil look (fun s => decide (deadline ≤ now s)) sleep rounds).Returns s
      .polling s' := by
  obtain ⟨start, hrounds, hlast⟩ := h.exists_last deadline s
  obtain ⟨more, hmore⟩ := pollUntil_of_rounds hrounds
  refine ⟨1 + more, fun s' hpolling => ?_⟩
  unfold Returns at hpolling
  rw [hmore] at hpolling
  rcases waits_or_last look (fun s => decide (deadline ≤ now s)) sleep start with
    hwaits | ⟨a, found, hfound⟩ | ⟨later, hnone, hover⟩ | ⟨err, later, hthrows⟩
  · exact hlast hwaits
  · have hends := (pollUntil_of_found hfound).symm.trans hpolling
    cases hends
  · have hends := (pollUntil_of_over hnone hover).symm.trans hpolling
    cases hends
  · have hends := (pollUntil_of_throws hthrows).symm.trans hpolling
    cases hends

/-- **Polling does not miss what is there early enough.**  When no round is longer than `longest`,
a look from `known` on finds something or throws, and `known` is at least such a round before the
deadline, the loop does not time out. -/
theorem pollUntil_finds (h : MovesOnClock now look sleep)
    (hlongest : ∀ s middle, look.Returns s none middle → now (sleep middle) ≤ now s + longest)
    {known : ℕ} (hknown : ∀ s s', known ≤ now s → ¬look.Returns s none s')
    (hearly : known + longest ≤ deadline) (rounds : ℕ) (s s' : σ) :
    ¬(pollUntil look (fun s => decide (deadline ≤ now s)) sleep rounds).Returns s
      .timedOut s' := by
  intro htimedOut
  obtain ⟨start, -, hlast⟩ := exists_last_round htimedOut (by simp)
  rcases hlast with ⟨a, heq, -⟩ | ⟨-, hnone, hover⟩ | ⟨err, heq, -⟩
  · cases heq
  · -- the last round began before `known`, so it ends before the deadline
    have hbegan : now start < known := by
      by_contra hlate
      exact hknown start s' (by omega) hnone
    have hend : deadline ≤ now s' := by simpa using hover
    have hround := hlongest start s' hnone
    have hsleep := h.sleep s'
    omega
  · cases heq

end Clock

end Action

end MultiPartEvent
