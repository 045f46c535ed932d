import Mathlib.Logic.Function.Basic
import MultiPartEvent.Actions
import MultiPartEvent.Transitions

/-!
# Processes that share a state

A `Process` is code in steps: between two of them, others may change what they share with it.  Run
alone it is an `Action` (`Process.alone`), and an action is a process of one step.

A process `Guards` when each of its steps does what it guarantees, whatever interference it relies
on has come before.  Processes that guarantee what the others rely on can be followed one by one
(`guards_of_reaches`): in every interleaving each step of each process does what the process
guarantees.
-/

namespace MultiPartEvent

/-- Code in steps: it has ended, or its next step changes the state, and what comes after it depends
on the state that the step has found. -/
inductive Process (ε σ α : Type) where
  | done (outcome : Except ε α)
  | step (change : σ → σ) (next : σ → Process ε σ α)

namespace Process

variable {ε σ α β : Type}

/-- One process after another; a process that throws ends the sequence. -/
def andThen : Process ε σ α → (α → Process ε σ β) → Process ε σ β
  | done (.ok a), f => f a
  | done (.error err), _ => done (.error err)
  | step change next, f => step change fun s => (next s).andThen f

instance : Monad (Process ε σ) where
  pure a := done (.ok a)
  bind := andThen

/-- An action in one step. -/
def atomic (x : Action ε σ α) : Process ε σ α := step (fun s => (x s).2) fun s => done (x s).1

instance : MonadLift (Action ε σ) (Process ε σ) := ⟨atomic⟩

/-- The process without interference. -/
def alone : Process ε σ α → Action ε σ α
  | done outcome => fun s => (outcome, s)
  | step change next => fun s => (next s).alone (change s)

/-- A sequence of three processes, by its first process. -/
lemma bind_assoc {γ : Type} (p : Process ε σ α) (f : α → Process ε σ β) (g : β → Process ε σ γ) :
    (p >>= f) >>= g = p >>= fun a => f a >>= g := by
  change (p.andThen f).andThen g = p.andThen fun a => (f a).andThen g
  induction p with
  | done outcome =>
    cases outcome with
    | ok a => rfl
    | error err => rfl
  | step change next ih =>
    simp only [andThen, ih]

/-! ### Without interference -/

/-- A sequence of processes runs as the sequence of their actions. -/
@[simp] lemma alone_bind (p : Process ε σ α) (f : α → Process ε σ β) :
    (p >>= f).alone = p.alone >>= fun a => (f a).alone := by
  change (p.andThen f).alone = p.alone.andThen fun a => (f a).alone
  induction p with
  | done outcome =>
    cases outcome with
    | ok a => rfl
    | error err => rfl
  | step change next ih =>
    funext s
    exact congrFun (ih s) (change s)

/-- An action in one step runs as the action. -/
@[simp] lemma alone_lift (x : Action ε σ α) :
    (MonadLiftT.monadLift x : Process ε σ α).alone = x := rfl

/-- Code that leaves the state alone, in one step. -/
@[simp] lemma alone_lift_except (result : Except ε α) :
    (MonadLiftT.monadLift result : Process ε σ α).alone = MonadLiftT.monadLift result := rfl

/-- Returning a value. -/
@[simp] lemma alone_pure (a : α) : (pure a : Process ε σ α).alone = pure a := rfl

/-! ### Guarantees -/

section Guards

/-- Every step of the process does what it guarantees, after any interference that it relies on. -/
def Guards (rely guarantee : σ → σ → Prop) : Process ε σ α → σ → Prop
  | done _, _ => True
  | step change next, s =>
    ∀ t, rely s t → guarantee t (change t) ∧ (next t).Guards rely guarantee (change t)

/-- The process guards from every state with `P`. -/
def Obeys (rely guarantee : σ → σ → Prop) (P : σ → Prop) (p : Process ε σ α) : Prop :=
  ∀ s, P s → p.Guards rely guarantee s

variable {rely guarantee : σ → σ → Prop} {P : σ → Prop} {x : Action ε σ α} {f : α → Process ε σ β}

/-- A process goes on guarding after interference. -/
lemma Guards.of_rely (htrans : ∀ s t u, rely s t → rely t u → rely s u) {p : Process ε σ α}
    {s t : σ} (h : p.Guards rely guarantee s) (hrely : rely s t) : p.Guards rely guarantee t := by
  cases p with
  | done outcome => exact trivial
  | step change next => exact fun u hu => h u (htrans _ _ _ hrely hu)

/-- What guards from less guards from more. -/
lemma Obeys.of_imp {P' : σ → Prop} {p : Process ε σ α} (h : Obeys rely guarantee P' p)
    (himp : ∀ s, P s → P' s) : Obeys rely guarantee P p :=
  fun s hs => h s (himp s hs)

/-- Returning a value takes no step. -/
lemma obeys_pure (a : α) : Obeys rely guarantee P (pure a : Process ε σ α) := fun _ _ => trivial

/-- A process guards whatever is done with its result without a step. -/
lemma Obeys.bind_pure {p : Process ε σ α} (h : Obeys rely guarantee P p) (g : α → β) :
    Obeys rely guarantee P (p >>= fun a => pure (g a)) := by
  intro s hs
  have hguards := h s hs
  change (p.andThen fun a => done (.ok (g a))).Guards rely guarantee s
  clear h hs
  induction p generalizing s with
  | done outcome =>
    cases outcome with
    | ok a => exact trivial
    | error err => exact trivial
  | step change next ih =>
    intro t ht
    obtain ⟨hdone, hnext⟩ := hguards t ht
    exact ⟨hdone, ih t _ hnext⟩

/-- An action in one step does what the process guarantees, and the rest guards from the states in
which the action has returned. -/
lemma obeys_lift_bind (hstable : ∀ s t, P s → rely s t → P t)
    (hstep : ∀ s, P s → guarantee s (x s).2)
    (hnext : ∀ a, Obeys rely guarantee (fun s' => ∃ s, P s ∧ x.Returns s a s') (f a)) :
    Obeys rely guarantee P ((MonadLiftT.monadLift x : Process ε σ α) >>= f) := by
  intro s hs t ht
  have hPt := hstable s t hs ht
  refine ⟨hstep t hPt, ?_⟩
  change ((done (x t).1 : Process ε σ α).andThen f).Guards rely guarantee (x t).2
  rcases Action.returns_or_throws x t with ⟨a, t', hx⟩ | ⟨err, t', hx⟩
  · rw [hx]
    exact hnext a t' ⟨t, hPt, hx⟩
  · rw [hx]
    exact trivial

/-- After an action in one step that keeps `P`, the rest goes on from `P`. -/
lemma obeys_keeps_bind (hstable : ∀ s t, P s → rely s t → P t)
    (hstep : ∀ s, P s → guarantee s (x s).2) (hkeeps : Action.Keeps P x)
    (hnext : ∀ a, Obeys rely guarantee P (f a)) :
    Obeys rely guarantee P ((MonadLiftT.monadLift x : Process ε σ α) >>= f) := by
  refine obeys_lift_bind hstable hstep fun a => (hnext a).of_imp ?_
  intro s' h
  obtain ⟨s, hs, hreturns⟩ := h
  exact hkeeps.of_returns hs hreturns

end Guards

end Process

/-! ### Interleavings -/

/-- A state is what is shared and what a process has of its own. -/
structure Sharing (σ φ η : Type) where
  join : φ → η → σ
  shared : σ → φ
  own : σ → η
  shared_join : ∀ x h, shared (join x h) = x
  own_join : ∀ x h, own (join x h) = h
  join_self : ∀ s, join (shared s) (own s) = s

/-- Processes over a shared state, each with a state of its own. -/
structure Interleaved (ι ε σ φ η α : Type) where
  shared : φ
  own : ι → η
  code : ι → Process ε σ α

section Interleavings

variable {ι ε σ φ η α : Type} (sharing : Sharing σ φ η)

/-- The state as a process sees it. -/
def Interleaved.seen (s : Interleaved ι ε σ φ η α) (i : ι) : σ := sharing.join s.shared (s.own i)

variable [DecidableEq ι]

/-- One process takes a step, if it has not ended. -/
def interleavedStep (s : Interleaved ι ε σ φ η α) (i : ι) : Option (Interleaved ι ε σ φ η α) :=
  match s.code i with
  | .done _ => none
  | .step change next =>
    some {
      shared := sharing.shared (change (s.seen sharing i))
      own := Function.update s.own i (sharing.own (change (s.seen sharing i)))
      code := Function.update s.code i (next (s.seen sharing i)) }

variable {sharing} {rely guarantee : ι → σ → σ → Prop} {s s' : Interleaved ι ε σ φ η α} {i : ι}

/-- Every process guards from what it sees. -/
def AllGuard (sharing : Sharing σ φ η) (rely guarantee : ι → σ → σ → Prop)
    (s : Interleaved ι ε σ φ η α) : Prop :=
  ∀ i, (s.code i).Guards (rely i) (guarantee i) (s.seen sharing i)

/-- What the others have is not changed by a step. -/
lemma own_of_step (hstep : interleavedStep sharing s i = some s') {j : ι} (hne : j ≠ i) :
    s'.own j = s.own j := by
  unfold interleavedStep at hstep
  split at hstep
  · cases hstep
  · cases hstep
    exact Function.update_of_ne hne _ _

/-- **A step does what its process guarantees**, and the process goes on guarding. -/
lemma guards_of_step (hrefl : ∀ i s, rely i s s) (h : AllGuard sharing rely guarantee s)
    (hstep : interleavedStep sharing s i = some s') :
    guarantee i (s.seen sharing i) (s'.seen sharing i) ∧
      (s'.code i).Guards (rely i) (guarantee i) (s'.seen sharing i) := by
  have hguards := h i
  unfold interleavedStep at hstep
  split at hstep
  · cases hstep
  · next change next hcode =>
    cases hstep
    rw [hcode] at hguards
    obtain ⟨hdone, hnext⟩ := hguards _ (hrefl i _)
    simp only [Interleaved.seen, Function.update_self, sharing.join_self]
    exact ⟨hdone, hnext⟩

/-- **Processes that guarantee what the others rely on guard in every interleaving.** -/
theorem guards_of_reaches {start : Interleaved ι ε σ φ η α}
    {allowed : Interleaved ι ε σ φ η α → ι → Prop} (hrefl : ∀ i s, rely i s s)
    (htrans : ∀ i s t u, rely i s t → rely i t u → rely i s u)
    (hcompatible : ∀ i j s s' h, j ≠ i → guarantee i s s' →
      rely j (sharing.join (sharing.shared s) h) (sharing.join (sharing.shared s') h))
    (hstart : AllGuard sharing rely guarantee start)
    (h : Reaches (interleavedStep sharing) allowed start s) :
    AllGuard sharing rely guarantee s := by
  refine h.invariant hstart ?_
  intro s i s' hbefore _ hstep j
  have hguards := guards_of_step hrefl hbefore hstep
  by_cases hne : j = i
  · rw [hne]
    exact hguards.2
  · have hrely := hcompatible i j _ _ (s.own j) hne hguards.1
    simp only [Interleaved.seen, sharing.shared_join] at hrely
    have hcode : s'.code j = s.code j := by
      unfold interleavedStep at hstep
      split at hstep
      · cases hstep
      · cases hstep
        exact Function.update_of_ne hne _ _
    rw [hcode, Interleaved.seen, own_of_step hstep hne]
    exact (hbefore j).of_rely (htrans j) hrely

end Interleavings

end MultiPartEvent
