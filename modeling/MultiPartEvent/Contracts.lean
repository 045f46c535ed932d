import MultiPartEvent.Actions

/-!
# What actions meet

`Meets P x Q E` says of an action what it leaves when it starts in a state with `P`: a result and a
state with `Q` where it returns, an error and a state with `E` where it throws.  There is one rule
for each way of composing actions, `try … finally` among them, so that a fact about a long action is
proved along its text.
-/

namespace MultiPartEvent

namespace Action

variable {ε σ α β : Type}

/-! ### How compositions throw -/

section Throws

variable {x : Action ε σ α} {s s' : σ} {err : ε}

/-- A `try … catch` throws when its body does and then its handler. -/
lemma throws_catching_iff {handler : ε → Action ε σ α} : (x.catching handler).Throws s err s' ↔
    ∃ cause middle, x.Throws s cause middle ∧ (handler cause).Throws middle err s' := by
  unfold catching Throws
  rcases hx : x s with ⟨result, middle⟩
  cases result with
  | ok a => simp [hx]
  | error cause =>
    simp only [hx]
    constructor
    · intro h
      exact ⟨cause, middle, rfl, h⟩
    · intro h
      obtain ⟨_, _, heq, h⟩ := h
      cases heq
      exact h

/-- A `try … finally` throws the error of its last action, or that of its body. -/
lemma throws_ending_iff {last : Action ε σ Unit} : (x.ending last).Throws s err s' ↔
    ∃ middle, (∃ result, x s = (result, middle) ∧ last.Throws middle err s') ∨
      (x.Throws s err middle ∧ last.Returns middle () s') := by
  unfold ending Throws Returns
  rcases hx : x s with ⟨result, middle⟩
  rcases hlast : last middle with ⟨ended, s''⟩
  simp only [hx, hlast]
  constructor
  · intro h
    cases ended with
    | ok u =>
      cases h
      exact ⟨middle, Or.inr ⟨rfl, hlast⟩⟩
    | error cause =>
      cases h
      exact ⟨middle, Or.inl ⟨result, rfl, hlast⟩⟩
  · rintro ⟨_, ⟨_, heq, h⟩ | ⟨heq, h⟩⟩
    · cases heq
      rw [hlast] at h
      cases h
      rfl
    · cases heq
      rw [hlast] at h
      cases h
      rfl

end Throws

/-! ### Contracts -/

/-- From a state with `P` the action returns with `Q` or throws with `E`. -/
structure Meets (P : σ → Prop) (x : Action ε σ α) (Q : α → σ → Prop) (E : ε → σ → Prop) : Prop where
  returns : ∀ s a s', P s → x.Returns s a s' → Q a s'
  throws : ∀ s err s', P s → x.Throws s err s' → E err s'

variable {P P' : σ → Prop} {x : Action ε σ α} {f : α → Action ε σ β} {Q Q' : α → σ → Prop}
  {R : β → σ → Prop} {E E' : ε → σ → Prop}

/-- What is met from less is met from more, and so is whatever follows from it. -/
lemma Meets.weaken (h : Meets P x Q E) (hP : ∀ s, P' s → P s) (hQ : ∀ a s, Q a s → Q' a s)
    (hE : ∀ err s, E err s → E' err s) : Meets P' x Q' E' :=
  ⟨fun s a s' hs hx => hQ a s' (h.returns s a s' (hP s hs) hx),
    fun s err s' hs hx => hE err s' (h.throws s err s' (hP s hs) hx)⟩

/-- A fact that holds in every state with `P` may be used. -/
lemma Meets.of_fact {C : Prop} (hC : ∀ s, P s → C) (h : C → Meets P x Q E) : Meets P x Q E :=
  ⟨fun s a s' hs hx => (h (hC s hs)).returns s a s' hs hx,
    fun s err s' hs hx => (h (hC s hs)).throws s err s' hs hx⟩

/-- A sequence goes on from what its first action returns with. -/
lemma Meets.bind (hx : Meets P x Q E) (hf : ∀ a, Meets (Q a) (f a) R E) :
    Meets P (x >>= f) R E := by
  constructor
  · intro s b s' hs h
    obtain ⟨a, middle, hfirst, hrest⟩ := returns_bind_iff.mp h
    exact (hf a).returns middle b s' (hx.returns s a middle hs hfirst) hrest
  · intro s err s' hs h
    rcases throws_bind_iff.mp h with hfirst | ⟨a, middle, hfirst, hrest⟩
    · exact hx.throws s err s' hs hfirst
    · exact (hf a).throws middle err s' (hx.returns s a middle hs hfirst) hrest

/-- What a sequence returns with is said by its last actions, whatever its first action does. -/
lemma Meets.after (hf : ∀ a, Meets (fun _ => True) (f a) R fun _ _ => True) :
    Meets P (x >>= f) R fun _ _ => True := by
  have hx : Meets P x (fun _ _ => True) fun _ _ => True :=
    ⟨fun _ _ _ _ _ => trivial, fun _ _ _ _ _ => trivial⟩
  exact hx.bind hf

/-- Returning a value leaves the state alone. -/
lemma meets_pure (a : α) (h : ∀ s, P s → Q a s) : Meets P (pure a : Action ε σ α) Q E := by
  constructor
  · intro s b s' hs hx
    obtain ⟨rfl, rfl⟩ := returns_pure_iff.mp hx
    exact h s hs
  · intro s err s' _ hx
    exact absurd hx not_throws_pure

/-- Throwing leaves the state alone. -/
lemma meets_fail (err : ε) (h : ∀ s, P s → E err s) : Meets P (fail err : Action ε σ α) Q E := by
  constructor
  · intro s a s' _ hx
    exact absurd hx not_returns_fail
  · intro s err' s' hs hx
    obtain ⟨rfl, rfl⟩ := throws_fail_iff.mp hx
    exact h s hs

/-- Code that leaves the state alone returns or throws its result. -/
lemma meets_lift (result : Except ε α) (hQ : ∀ a s, result = .ok a → P s → Q a s)
    (hE : ∀ err s, result = .error err → P s → E err s) :
    Meets P (MonadLiftT.monadLift result : Action ε σ α) Q E := by
  constructor
  · intro s a s' hs hx
    obtain ⟨hresult, rfl⟩ := returns_lift_iff.mp hx
    exact hQ a s hresult hs
  · intro s err s' hs hx
    obtain ⟨hresult, rfl⟩ := throws_lift_iff.mp hx
    exact hE err s hresult hs

/-- A guard leaves the state alone. -/
lemma meets_failIf {condition : Prop} [Decidable condition] {err : ε}
    (hE : ∀ s, condition → P s → E err s) :
    Meets P (failIf condition err : Action ε σ Unit) (fun _ s => P s ∧ ¬condition) E := by
  constructor
  · intro s u s' hs hx
    obtain ⟨hcondition, rfl⟩ := returns_failIf_iff.mp hx
    exact ⟨hs, hcondition⟩
  · intro s err' s' hs hx
    obtain ⟨hcondition, rfl, rfl⟩ := throws_failIf_iff.mp hx
    exact hE s hcondition hs

/-- Reading the state leaves it alone. -/
lemma meets_look (g : σ → α) (h : ∀ s, P s → Q (g s) s) : Meets P (look g : Action ε σ α) Q E := by
  constructor
  · intro s a s' hs hx
    obtain ⟨rfl, rfl⟩ := returns_look_iff.mp hx
    exact h s hs
  · intro s err s' _ hx
    exact absurd hx not_throws_look

/-- An action that keeps an invariant meets it. -/
lemma Keeps.meets (h : Keeps P x) : Meets P x (fun _ => P) fun _ => P :=
  ⟨fun _ _ _ hs hx => h.of_returns hs hx, fun _ _ _ hs hx => h.of_throws hs hx⟩

/-- A `try … catch` goes on from what its body throws with. -/
lemma Meets.catching {handler : ε → Action ε σ α} (hx : Meets P x Q E)
    (hhandler : ∀ err, Meets (E err) (handler err) Q E') : Meets P (x.catching handler) Q E' := by
  constructor
  · intro s a s' hs h
    rcases returns_catching_iff.mp h with hbody | ⟨err, middle, hbody, hrest⟩
    · exact hx.returns s a s' hs hbody
    · exact (hhandler err).returns middle a s' (hx.throws s err middle hs hbody) hrest
  · intro s err s' hs h
    obtain ⟨cause, middle, hbody, hrest⟩ := throws_catching_iff.mp h
    exact (hhandler cause).throws middle err s' (hx.throws s cause middle hs hbody) hrest

/-- A `try … finally` does its last action after either end of its body; an error of the last action
takes the place of the result. -/
lemma Meets.ending {last : Action ε σ Unit} {E' : ε → σ → Prop} (hx : Meets P x Q E)
    (hreturned : ∀ a, Meets (Q a) last (fun _ => Q' a) E')
    (hthrown : ∀ err, Meets (E err) last (fun _ => E' err) E') :
    Meets P (x.ending last) Q' E' := by
  constructor
  · intro s a s' hs h
    obtain ⟨middle, hbody, hlast⟩ := returns_ending_iff.mp h
    exact (hreturned a).returns middle () s' (hx.returns s a middle hs hbody) hlast
  · intro s err s' hs h
    obtain ⟨middle, ⟨result, hbody, hlast⟩ | ⟨hbody, hlast⟩⟩ := throws_ending_iff.mp h
    · cases result with
      | ok a => exact (hreturned a).throws middle err s' (hx.returns s a middle hs hbody) hlast
      | error cause =>
        exact (hthrown cause).throws middle err s' (hx.throws s cause middle hs hbody) hlast
    · exact (hthrown err).returns middle () s' (hx.throws s err middle hs hbody) hlast

end Action

end MultiPartEvent
