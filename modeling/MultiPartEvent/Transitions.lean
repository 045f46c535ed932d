import Mathlib.Data.List.Basic
import Mathlib.Order.Nat

/-!
# Runs of a transition system

A transition system is a partial step function: `step s a` is the state after the action `a`, or
`none` where the action is not possible.  `Reaches` are the states of the runs whose steps all meet
a condition on the state before the step and the action.  A `FairRun` goes on for ever, and takes
every action that is due at some time after it is possible.
-/

namespace MultiPartEvent

/-- The states reached from `start` by steps that are allowed. -/
inductive Reaches {σ α : Type*} (step : σ → α → Option σ) (allowed : σ → α → Prop) (start : σ) :
    σ → Prop
  | start : Reaches step allowed start start
  | step {s s' : σ} {a : α} (before : Reaches step allowed start s) (allows : allowed s a)
      (steps : step s a = some s') : Reaches step allowed start s'

section Reaches

variable {σ α : Type*} {step : σ → α → Option σ} {allowed : σ → α → Prop} {start : σ}

/-- What holds at the start and is kept by every allowed step holds in every state reached. -/
theorem Reaches.invariant {I : σ → Prop} (hstart : I start)
    (hstep : ∀ s a s', I s → allowed s a → step s a = some s' → I s') {s : σ}
    (h : Reaches step allowed start s) : I s := by
  induction h with
  | start => exact hstart
  | step _ hallowed hsteps ih => exact hstep _ _ _ ih hallowed hsteps

/-- A run goes on where another has come to. -/
theorem Reaches.trans {s s' : σ} (h : Reaches step allowed start s)
    (hlater : Reaches step allowed s s') : Reaches step allowed start s' := by
  induction hlater with
  | start => exact h
  | step _ hallowed hsteps ih => exact ih.step hallowed hsteps

/-- A list of actions that are allowed and possible, one after the other, reaches its last state. -/
theorem Reaches.of_actions [∀ s a, Decidable (allowed s a)] {s s' : σ} (actions : List α)
    (h : Reaches step allowed start s)
    (hrun : actions.foldlM (fun s a => if allowed s a then step s a else none) s = some s') :
    Reaches step allowed start s' := by
  induction actions generalizing s with
  | nil =>
    rw [List.foldlM_nil] at hrun
    cases hrun
    exact h
  | cons a actions ih =>
    rw [List.foldlM_cons] at hrun
    obtain ⟨next, hnext, hrest⟩ := Option.bind_eq_some_iff.mp hrun
    rw [Option.ite_none_right_eq_some] at hnext
    exact ih (h.step hnext.1 hnext.2) hrest

end Reaches

/-- A run without end.  At each moment there is a step or a pause, and an action that is due is
taken at some moment after each one at which it is possible. -/
structure FairRun {σ α : Type*} (step : σ → α → Option σ) (due : α → Prop) (start : σ) where
  state : ℕ → σ
  /-- The action at a moment, or `none` for a pause. -/
  action : ℕ → Option α
  starts : state 0 = start
  pauses : ∀ n, action n = none → state (n + 1) = state n
  steps : ∀ n a, action n = some a → step (state n) a = some (state (n + 1))
  fair : ∀ n a, due a → (step (state n) a).isSome = true → ∃ m, n ≤ m ∧ action m = some a

namespace FairRun

variable {σ α : Type*} {step : σ → α → Option σ} {due : α → Prop} {start : σ}
  (run : FairRun step due start)

/-- The states of the run are reached. -/
lemma reaches (n : ℕ) : Reaches step (fun _ _ => True) start (run.state n) := by
  induction n with
  | zero =>
    rw [run.starts]
    exact .start
  | succ n ih =>
    cases haction : run.action n with
    | none =>
      rw [run.pauses n haction]
      exact ih
    | some a => exact ih.step trivial (run.steps n a haction)

/-- What every step keeps is kept. -/
lemma kept {P : σ → Prop}
    (hkept : ∀ s a s', Reaches step (fun _ _ => True) start s → step s a = some s' → P s → P s')
    {n m : ℕ} (h : n ≤ m) (hP : P (run.state n)) : P (run.state m) := by
  induction m, h using Nat.le_induction with
  | base => exact hP
  | succ m _ ih =>
    cases haction : run.action m with
    | none =>
      rw [run.pauses m haction]
      exact ih
    | some a => exact hkept _ a _ (run.reaches m) (run.steps m a haction) ih

section Measure

variable {measure : σ → ℕ}
  (hfalls : ∀ s a s', Reaches step (fun _ _ => True) start s → step s a = some s' →
    measure s' ≤ measure s)

include hfalls

/-- A measure that no step raises does not rise. -/
lemma measure_le {n m : ℕ} (h : n ≤ m) : measure (run.state m) ≤ measure (run.state n) :=
  run.kept (fun _ a _ hreaches hstep hle => (hfalls _ a _ hreaches hstep).trans hle) h (le_refl _)

/-- What every step keeps unless it lowers the measure is kept until the measure is lower. -/
lemma kept_until {P : σ → Prop}
    (hkept : ∀ s a s', Reaches step (fun _ _ => True) start s → step s a = some s' → P s →
      measure s' < measure s ∨ P s')
    {n m : ℕ} (h : n ≤ m) (hP : P (run.state n)) :
    measure (run.state m) < measure (run.state n) ∨ P (run.state m) := by
  have hstill : measure (run.state m) < measure (run.state n) ∨
      measure (run.state m) ≤ measure (run.state n) ∧ P (run.state m) := by
    refine run.kept (P := fun s => measure s < measure (run.state n) ∨
      measure s ≤ measure (run.state n) ∧ P s) ?_ h (Or.inr ⟨le_refl _, hP⟩)
    intro s a s' hreaches hstep hbefore
    have hle := hfalls s a s' hreaches hstep
    rcases hbefore with hlower | ⟨hsame, hPs⟩
    · exact Or.inl (hle.trans_lt hlower)
    · rcases hkept s a s' hreaches hstep hPs with hlower | hPs'
      · exact Or.inl (hlower.trans_le hsame)
      · exact Or.inr ⟨hle.trans hsame, hPs'⟩
  rcases hstill with hlower | ⟨_, hPm⟩
  · exact Or.inl hlower
  · exact Or.inr hPm

end Measure

/-- A measure that gets lower again from every later moment comes to zero. -/
lemma measure_eventually_zero (measure : σ → ℕ) {start : ℕ}
    (hlower : ∀ n, start ≤ n → measure (run.state n) ≠ 0 →
      ∃ m, n ≤ m ∧ measure (run.state m) < measure (run.state n)) {n : ℕ} (hn : start ≤ n) :
    ∃ m, n ≤ m ∧ measure (run.state m) = 0 := by
  induction hvalue : measure (run.state n) using Nat.strong_induction_on generalizing n with
  | _ value ih =>
    by_cases hzero : value = 0
    · exact ⟨n, le_refl n, hvalue.trans hzero⟩
    · obtain ⟨m, hm, hless⟩ := hlower n hn (by rw [hvalue]; exact hzero)
      rw [hvalue] at hless
      obtain ⟨last, hlast, hdone⟩ := ih _ hless (hn.trans hm) rfl
      exact ⟨last, hm.trans hlast, hdone⟩

end FairRun

end MultiPartEvent
