import Mathlib.Logic.Basic

/-!
# Code with a state that may throw

An `Action` reads and changes a state, and returns or throws; what it changed before it throws
stays changed.  `Returns` and `Throws` are its two outcomes on a state, and their rules take
sequences, `catch` and `finally` apart.  `Keeps` is the rule for invariants: they hold after the
code whatever its outcome.  `Leaves` goes from what holds before the code to what holds after it,
again whatever its outcome; its rules follow a sequence step by step and carry along what the steps
that returned have shown.
-/

namespace MultiPartEvent

/-- Code that reads and changes a state and may throw: its result and the state it leaves. -/
def Action (ε σ α : Type) := σ → Except ε α × σ

namespace Action

variable {ε σ α β : Type}

/-- Return a value. -/
def ret (a : α) : Action ε σ α := fun s => (.ok a, s)

/-- Throw an error. -/
def fail (err : ε) : Action ε σ α := fun s => (.error err, s)

/-- One action after another; an action that throws ends the sequence. -/
def andThen (x : Action ε σ α) (f : α → Action ε σ β) : Action ε σ β := fun s =>
  match x s with
  | (.ok a, s') => f a s'
  | (.error err, s') => (.error err, s')

instance : Monad (Action ε σ) where
  pure := ret
  bind := andThen

/-- `try … catch`. -/
def catching (x : Action ε σ α) (handler : ε → Action ε σ α) : Action ε σ α := fun s =>
  match x s with
  | (.ok a, s') => (.ok a, s')
  | (.error err, s') => handler err s'

/-- `try … finally`: the last action runs in any case, and its own error is the one thrown. -/
def ending (x : Action ε σ α) (last : Action ε σ Unit) : Action ε σ α := fun s =>
  match last (x s).2 with
  | (.ok _, s') => ((x s).1, s')
  | (.error err, s') => (.error err, s')

/-- Code that returns or throws and leaves the state alone. -/
def lift (result : Except ε α) : Action ε σ α := fun s => (result, s)

instance : MonadLift (Except ε) (Action ε σ) := ⟨lift⟩

/-- Read the state. -/
def look (f : σ → α) : Action ε σ α := fun s => (.ok (f s), s)

/-- `if (condition) throw error`. -/
def failIf (condition : Prop) [Decidable condition] (err : ε) : Action ε σ Unit :=
  if condition then fail err else ret ()

/-- `if (!skipped) …`. -/
def runUnless (skipped : Bool) (x : Action ε σ Unit) : Action ε σ Unit :=
  if skipped then ret () else x

/-! ### Outcomes -/

/-- On `s` the action returns `a` and leaves `s'`. -/
def Returns (x : Action ε σ α) (s : σ) (a : α) (s' : σ) : Prop := x s = (.ok a, s')

/-- On `s` the action throws `err` and leaves `s'`. -/
def Throws (x : Action ε σ α) (s : σ) (err : ε) (s' : σ) : Prop := x s = (.error err, s')

variable {x : Action ε σ α} {f : α → Action ε σ β} {s s' : σ} {a b : α} {c : β} {err err' : ε}

/-- An action returns or throws. -/
lemma returns_or_throws (x : Action ε σ α) (s : σ) :
    (∃ a s', x.Returns s a s') ∨ ∃ err s', x.Throws s err s' := by
  unfold Returns Throws
  rcases hx : x s with ⟨result, s'⟩
  cases result with
  | error err => exact Or.inr ⟨err, s', rfl⟩
  | ok a => exact Or.inl ⟨a, s', rfl⟩

/-- An action whose result is a value returns it. -/
lemma returns_of_result (h : (x s).1 = .ok a) : x.Returns s a (x s).2 := Prod.ext h rfl

/-- An action that returns does not throw. -/
lemma Returns.not_throws (h : x.Returns s a s') {s'' : σ} : ¬x.Throws s err s'' := by
  intro hthrows
  unfold Returns at h
  unfold Throws at hthrows
  rw [h] at hthrows
  cases hthrows

/-- After an action that returns, the sequence goes on. -/
lemma Returns.bind (h : x.Returns s a s') (f : α → Action ε σ β) : (x >>= f) s = f a s' := by
  change x.andThen f s = _
  unfold andThen
  rw [h]

/-- After an action that throws, the sequence ends. -/
lemma Throws.bind (h : x.Throws s err s') (f : α → Action ε σ β) :
    (x >>= f) s = (.error err, s') := by
  change x.andThen f s = _
  unfold andThen
  rw [h]

/-- After a body that throws, the handler goes on. -/
lemma Throws.catching (h : x.Throws s err s') (handler : ε → Action ε σ α) :
    x.catching handler s = handler err s' := by
  unfold Action.catching
  rw [h]

/-- A sequence of three actions, by its first action. -/
lemma bind_assoc {γ : Type} {g : β → Action ε σ γ} :
    (x >>= f) >>= g = x >>= fun a => f a >>= g := by
  funext s
  rcases returns_or_throws x s with ⟨a, s', hx⟩ | ⟨err, s', hx⟩
  · rw [hx.bind]
    change (x >>= f).andThen g s = (f a).andThen g s'
    unfold andThen
    rw [hx.bind]
  · rw [hx.bind]
    have hthrows : (x >>= f).Throws s err s' := hx.bind f
    exact hthrows.bind g

/-- A sequence returns exactly when both actions do. -/
lemma returns_bind_iff : (x >>= f).Returns s c s' ↔
    ∃ a middle, x.Returns s a middle ∧ (f a).Returns middle c s' := by
  change x.andThen f s = _ ↔ _
  unfold andThen Returns
  rcases hx : x s with ⟨result, middle⟩
  cases result with
  | error err => simp
  | ok a =>
    constructor
    · intro h
      exact ⟨a, middle, rfl, h⟩
    · intro h
      obtain ⟨_, _, heq, h⟩ := h
      cases heq
      exact h

/-- A sequence throws exactly when one of the actions does. -/
lemma throws_bind_iff : (x >>= f).Throws s err s' ↔
    x.Throws s err s' ∨ ∃ a middle, x.Returns s a middle ∧ (f a).Throws middle err s' := by
  change x.andThen f s = _ ↔ _
  unfold andThen Returns Throws
  rcases hx : x s with ⟨result, middle⟩
  cases result with
  | error err => simp
  | ok a =>
    constructor
    · intro h
      exact Or.inr ⟨a, middle, rfl, h⟩
    · intro h
      rcases h with heq | ⟨_, _, heq, h⟩
      · cases heq
      · cases heq
        exact h

/-- Returning a value. -/
@[simp] lemma returns_pure_iff : (pure a : Action ε σ α).Returns s b s' ↔ a = b ∧ s = s' := by
  change ret a s = _ ↔ _
  simp [ret]

/-- Returning a value does not throw. -/
@[simp] lemma not_throws_pure : ¬(pure a : Action ε σ α).Throws s err s' := by
  change ¬ret a s = _
  simp [ret]

/-- Throwing an error does not return. -/
@[simp] lemma not_returns_fail : ¬(fail err : Action ε σ α).Returns s a s' := by
  simp [Returns, fail]

/-- Throwing an error. -/
@[simp] lemma throws_fail_iff :
    (fail err : Action ε σ α).Throws s err' s' ↔ err = err' ∧ s = s' := by
  simp [Throws, fail]

/-- Code that leaves the state alone returns what it computes. -/
@[simp] lemma returns_lift_iff {result : Except ε α} :
    (MonadLiftT.monadLift result : Action ε σ α).Returns s a s' ↔ result = .ok a ∧ s = s' := by
  change (result, s) = _ ↔ _
  simp

/-- Code that leaves the state alone throws what it throws. -/
@[simp] lemma throws_lift_iff {result : Except ε α} :
    (MonadLiftT.monadLift result : Action ε σ α).Throws s err s' ↔
      result = .error err ∧ s = s' := by
  change (result, s) = _ ↔ _
  simp

/-- Reading the state. -/
@[simp] lemma returns_look_iff {g : σ → α} :
    (look g : Action ε σ α).Returns s a s' ↔ g s = a ∧ s = s' := by
  simp [Returns, look]

/-- Reading the state does not throw. -/
@[simp] lemma not_throws_look {g : σ → α} : ¬(look g : Action ε σ α).Throws s err s' := by
  simp [Throws, look]

/-- A guard returns exactly when its condition fails. -/
@[simp] lemma returns_failIf_iff {condition : Prop} [Decidable condition] {u : Unit} :
    (failIf condition err : Action ε σ Unit).Returns s u s' ↔ ¬condition ∧ s = s' := by
  unfold failIf
  by_cases h : condition <;> simp [h, Returns, fail, ret]

/-- A guard throws its error exactly when its condition holds. -/
@[simp] lemma throws_failIf_iff {condition : Prop} [Decidable condition] :
    (failIf condition err : Action ε σ Unit).Throws s err' s' ↔
      condition ∧ err = err' ∧ s = s' := by
  unfold failIf
  by_cases h : condition <;> simp [h, Throws, fail, ret]

/-- Code that is skipped returns, and other code returns when it does. -/
lemma returns_runUnless_iff {skipped : Bool} {y : Action ε σ Unit} {u : Unit} :
    (runUnless skipped y).Returns s u s' ↔
      skipped = true ∧ s = s' ∨ skipped = false ∧ y.Returns s u s' := by
  unfold runUnless
  cases skipped <;> simp [Returns, ret]

/-- Code that is skipped does not throw. -/
lemma throws_runUnless_iff {skipped : Bool} {y : Action ε σ Unit} :
    (runUnless skipped y).Throws s err s' ↔ skipped = false ∧ y.Throws s err s' := by
  unfold runUnless
  cases skipped <;> simp [Throws, ret]

/-- A `try … catch` returns when its body does or its handler. -/
lemma returns_catching_iff {handler : ε → Action ε σ α} : (x.catching handler).Returns s a s' ↔
    x.Returns s a s' ∨ ∃ err middle, x.Throws s err middle ∧ (handler err).Returns middle a s' := by
  unfold catching Returns Throws
  rcases hx : x s with ⟨result, middle⟩
  cases result with
  | ok b => simp [hx]
  | error cause =>
    simp only [hx]
    constructor
    · intro h
      exact Or.inr ⟨cause, middle, rfl, h⟩
    · intro h
      rcases h with heq | ⟨_, _, heq, h⟩
      · cases heq
      · cases heq
        exact h

/-- A `try … finally` returns when its body does and its last action. -/
lemma returns_ending_iff {last : Action ε σ Unit} : (x.ending last).Returns s a s' ↔
    ∃ middle, x.Returns s a middle ∧ last.Returns middle () s' := by
  unfold ending Returns
  rcases hx : x s with ⟨result, middle⟩
  rcases hlast : last middle with ⟨ended, s''⟩
  simp only [hx, hlast]
  constructor
  · intro h
    cases ended with
    | error err => cases h
    | ok u =>
      cases h
      exact ⟨middle, rfl, hlast⟩
  · intro h
    obtain ⟨_, heq, h⟩ := h
    cases heq
    rw [hlast] at h
    cases h
    rfl

/-! ### Invariants -/

/-- The action keeps an invariant, whether it returns or throws. -/
def Keeps (I : σ → Prop) (x : Action ε σ α) : Prop := ∀ s, I s → I (x s).2

variable {I : σ → Prop}

/-- What an action that returns leaves keeps the invariant. -/
lemma Keeps.of_returns (h : Keeps I x) (hs : I s) (hx : x.Returns s a s') : I s' := by
  have hkept := h s hs
  rw [hx] at hkept
  exact hkept

/-- What an action that throws leaves keeps the invariant. -/
lemma Keeps.of_throws (h : Keeps I x) (hs : I s) (hx : x.Throws s err s') : I s' := by
  have hkept := h s hs
  rw [hx] at hkept
  exact hkept

/-- Code that leaves the state alone keeps every invariant. -/
lemma keeps_lift (result : Except ε α) : Keeps I (MonadLiftT.monadLift result : Action ε σ α) :=
  fun _ hs => hs

/-- Returning a value keeps every invariant. -/
lemma keeps_pure (a : α) : Keeps I (pure a : Action ε σ α) := fun _ hs => hs

/-- Throwing keeps every invariant. -/
lemma keeps_fail (err : ε) : Keeps I (fail err : Action ε σ α) := fun _ hs => hs

/-- Reading the state keeps every invariant. -/
lemma keeps_look (g : σ → α) : Keeps I (look g : Action ε σ α) := fun _ hs => hs

/-- A guard keeps every invariant. -/
lemma keeps_failIf (condition : Prop) [Decidable condition] (err : ε) :
    Keeps I (failIf condition err : Action ε σ Unit) := by
  intro s hs
  unfold failIf
  by_cases h : condition
  · rw [if_pos h]
    exact hs
  · rw [if_neg h]
    exact hs

/-- Code that may be skipped keeps what it keeps. -/
lemma Keeps.runUnless {y : Action ε σ Unit} (hy : Keeps I y) (skipped : Bool) :
    Keeps I (runUnless skipped y) := by
  intro s hs
  unfold Action.runUnless
  cases skipped with
  | false => exact hy s hs
  | true => exact hs

/-- A sequence keeps what both actions keep. -/
lemma Keeps.bind (hx : Keeps I x) (hf : ∀ a, Keeps I (f a)) : Keeps I (x >>= f) := by
  intro s hs
  change I (x.andThen f s).2
  have hkept := hx s hs
  unfold andThen
  rcases hxs : x s with ⟨result, middle⟩
  rw [hxs] at hkept
  cases result with
  | error err => exact hkept
  | ok a => exact hf a middle hkept

/-- A `try … catch` keeps what its body and its handler keep. -/
lemma Keeps.catching {handler : ε → Action ε σ α} (hx : Keeps I x)
    (hhandler : ∀ err, Keeps I (handler err)) : Keeps I (x.catching handler) := by
  intro s hs
  have hkept := hx s hs
  unfold Action.catching
  rcases hxs : x s with ⟨result, middle⟩
  rw [hxs] at hkept
  cases result with
  | error err => exact hhandler err middle hkept
  | ok a => exact hkept

/-- A `try … finally` keeps what its body and its last action keep. -/
lemma Keeps.ending {last : Action ε σ Unit} (hx : Keeps I x) (hlast : Keeps I last) :
    Keeps I (x.ending last) := by
  intro s hs
  have hkept := hlast _ (hx s hs)
  unfold Action.ending
  rcases hend : last (x s).2 with ⟨ended, s'⟩
  rw [hend] at hkept
  cases ended <;> exact hkept

/-! ### What code leaves -/

/-- From a state with `P` the action leaves a state with `Q`, whether it returns or throws. -/
def Leaves (P Q : σ → Prop) (x : Action ε σ α) : Prop := ∀ s, P s → Q (x s).2

variable {P Q : σ → Prop}

/-- What follows from less is left from more. -/
lemma Leaves.of_imp {P' : σ → Prop} (h : Leaves P' Q x) (himp : ∀ s, P s → P' s) : Leaves P Q x :=
  fun s hs => h s (himp s hs)

/-- A sequence leaves `Q` if its first action does where it throws, and the rest does from the
states in which the first action has returned. -/
lemma Leaves.bind (hthrows : ∀ s err s', P s → x.Throws s err s' → Q s')
    (hnext : ∀ a, Leaves (fun s' => ∃ s, P s ∧ x.Returns s a s') Q (f a)) :
    Leaves P Q (x >>= f) := by
  intro s hs
  rcases returns_or_throws x s with ⟨a, s', hx⟩ | ⟨err, s', hx⟩
  · rw [hx.bind f]
    exact hnext a s' ⟨s, hs, hx⟩
  · rw [hx.bind f]
    exact hthrows s err s' hs hx

/-- After an action that keeps `P`, the rest goes on from `P`. -/
lemma Keeps.bind_leaves (hx : Keeps P x) (hweaken : ∀ s, P s → Q s)
    (hnext : ∀ a, Leaves P Q (f a)) :
    Leaves P Q (x >>= f) := by
  apply Leaves.bind
  · intro s err s' hs hthrows
    exact hweaken s' (hx.of_throws hs hthrows)
  · intro a
    apply (hnext a).of_imp
    intro s' h
    obtain ⟨s, hs, hreturns⟩ := h
    exact hx.of_returns hs hreturns

/-- After code that leaves the state alone, the rest goes on with what the code has returned. -/
lemma Leaves.lift_bind {result : Except ε α} (hweaken : ∀ s, P s → Q s)
    (hnext : ∀ a, result = .ok a → Leaves P Q (f a)) :
    Leaves P Q ((MonadLiftT.monadLift result : Action ε σ α) >>= f) := by
  apply Leaves.bind
  · intro s err s' hs hthrows
    rw [throws_lift_iff] at hthrows
    exact hweaken s' (hthrows.2 ▸ hs)
  · intro a s' h
    obtain ⟨s, hs, hreturns⟩ := h
    rw [returns_lift_iff] at hreturns
    exact hnext a hreturns.1 s' (hreturns.2 ▸ hs)

/-- After a guard, the rest goes on where its condition fails. -/
lemma Leaves.failIf_bind {condition : Prop} [Decidable condition] {g : Unit → Action ε σ β}
    (hweaken : ∀ s, P s → Q s) (hnext : ¬condition → Leaves P Q (g ())) :
    Leaves P Q (failIf condition err >>= g) := by
  apply Leaves.bind
  · intro s err' s' hs hthrows
    rw [throws_failIf_iff] at hthrows
    exact hweaken s' (hthrows.2.2 ▸ hs)
  · intro u s' h
    obtain ⟨s, hs, hreturns⟩ := h
    rw [returns_failIf_iff] at hreturns
    exact hnext hreturns.1 s' (hreturns.2 ▸ hs)

end Action

end MultiPartEvent
