import MultiPartEvent.Errors

/-!
# Runs that call out

Code with side effects is a `Run`: the calls it makes, in order, and what it returns or throws.
A call that has been made stays made when a later step throws.  `Returns` and `Throws` are the
two outcomes of a run together with its calls; their rules take a sequence of steps apart.
-/

namespace MultiPartEvent

/-- The calls a run makes, in order, and its result. -/
structure Run (κ α : Type) where
  calls : List κ
  result : Except JsError α

namespace Run

variable {κ α β : Type}

/-- Code that calls nobody. -/
def lift (result : Except JsError α) : Run κ α := ⟨[], result⟩

/-- One call and its answer. -/
def call (c : κ) (answer : Except JsError α) : Run κ α := ⟨[c], answer⟩

/-- One run after another; a run that throws ends the sequence. -/
def andThen (x : Run κ α) (f : α → Run κ β) : Run κ β :=
  match x.result with
  | .error err => ⟨x.calls, .error err⟩
  | .ok a => ⟨x.calls ++ (f a).calls, (f a).result⟩

instance : Monad (Run κ) where
  pure a := lift (.ok a)
  bind := andThen

instance : MonadLift (Except JsError) (Run κ) := ⟨lift⟩

/-- The run makes exactly these calls and returns. -/
structure Returns (x : Run κ α) (calls : List κ) (a : α) : Prop where
  calls : x.calls = calls
  result : x.result = .ok a

/-- The run makes exactly these calls and throws. -/
structure Throws (x : Run κ α) (calls : List κ) (err : JsError) : Prop where
  calls : x.calls = calls
  result : x.result = .error err

/-- A sequence returns exactly when both runs do, and makes the calls of both. -/
lemma returns_bind_iff {x : Run κ α} {f : α → Run κ β} {calls : List κ} {b : β} :
    (x >>= f).Returns calls b ↔ ∃ first second a, calls = first ++ second ∧
      x.Returns first a ∧ (f a).Returns second b := by
  change (x.andThen f).Returns calls b ↔ _
  obtain ⟨made, result⟩ := x
  constructor
  · intro h
    obtain ⟨hcalls, hresult⟩ := h
    cases result with
    | error err => simp [andThen] at hresult
    | ok a => exact ⟨made, (f a).calls, a, hcalls.symm, ⟨rfl, rfl⟩, rfl, hresult⟩
  · intro h
    obtain ⟨first, second, a, rfl, ⟨hfirst, hx⟩, hsecond, hf⟩ := h
    cases hfirst
    cases hx
    exact ⟨congrArg (made ++ ·) hsecond, hf⟩

/-- A sequence throws exactly when one of the runs does; the calls made until then stay made. -/
lemma throws_bind_iff {x : Run κ α} {f : α → Run κ β} {calls : List κ} {err : JsError} :
    (x >>= f).Throws calls err ↔ x.Throws calls err ∨ ∃ first second a, calls = first ++ second ∧
      x.Returns first a ∧ (f a).Throws second err := by
  change (x.andThen f).Throws calls err ↔ _
  obtain ⟨made, result⟩ := x
  constructor
  · intro h
    obtain ⟨hcalls, hresult⟩ := h
    cases result with
    | error err' => exact Or.inl ⟨hcalls, by simpa [andThen] using hresult⟩
    | ok a => exact Or.inr ⟨made, (f a).calls, a, hcalls.symm, ⟨rfl, rfl⟩, rfl, hresult⟩
  · intro h
    rcases h with ⟨hcalls, hresult⟩ | ⟨first, second, a, rfl, ⟨hfirst, hx⟩, hsecond, hf⟩
    · cases hresult
      exact ⟨hcalls, rfl⟩
    · cases hfirst
      cases hx
      exact ⟨congrArg (made ++ ·) hsecond, hf⟩

/-- Code that calls nobody returns what it computes. -/
@[simp] lemma returns_lift_iff {result : Except JsError α} {calls : List κ} {a : α} :
    (MonadLiftT.monadLift result : Run κ α).Returns calls a ↔ calls = [] ∧ result = .ok a := by
  constructor
  · intro h
    exact ⟨h.calls.symm, h.result⟩
  · intro h
    exact ⟨h.1.symm, h.2⟩

/-- Code that calls nobody throws what it throws, without a call. -/
@[simp] lemma throws_lift_iff {result : Except JsError α} {calls : List κ} {err : JsError} :
    (MonadLiftT.monadLift result : Run κ α).Throws calls err ↔
      calls = [] ∧ result = .error err := by
  constructor
  · intro h
    exact ⟨h.calls.symm, h.result⟩
  · intro h
    exact ⟨h.1.symm, h.2⟩

/-- After code that throws, nothing is called. -/
lemma lift_error_bind {err : JsError} {f : α → Run κ β} :
    (MonadLiftT.monadLift (Except.error err : Except JsError α) : Run κ α) >>= f =
      ⟨[], .error err⟩ := rfl

/-- After code that returns, the sequence goes on. -/
lemma lift_ok_bind {a : α} {f : α → Run κ β} :
    (MonadLiftT.monadLift (Except.ok a : Except JsError α) : Run κ α) >>= f = f a := rfl

/-- A call that is answered. -/
@[simp] lemma returns_call_iff {c : κ} {answer : Except JsError α} {calls : List κ} {a : α} :
    (call c answer).Returns calls a ↔ calls = [c] ∧ answer = .ok a := by
  constructor
  · intro h
    exact ⟨h.calls.symm, h.result⟩
  · intro h
    exact ⟨h.1.symm, h.2⟩

/-- A call that fails has been made. -/
@[simp] lemma throws_call_iff {c : κ} {answer : Except JsError α} {calls : List κ}
    {err : JsError} : (call c answer).Throws calls err ↔ calls = [c] ∧ answer = .error err := by
  constructor
  · intro h
    exact ⟨h.calls.symm, h.result⟩
  · intro h
    exact ⟨h.1.symm, h.2⟩

/-- Returning a value calls nobody. -/
@[simp] lemma returns_pure_iff {a b : α} {calls : List κ} :
    (pure a : Run κ α).Returns calls b ↔ calls = [] ∧ a = b := by
  constructor
  · intro h
    exact ⟨h.calls.symm, Except.ok.inj h.result⟩
  · intro h
    exact ⟨h.1.symm, congrArg Except.ok h.2⟩

/-- Returning a value does not throw. -/
@[simp] lemma not_throws_pure {a : α} {calls : List κ} {err : JsError} :
    ¬(pure a : Run κ α).Throws calls err := by
  intro h
  cases h.result

/-- Code that calls nobody, before a run: the sequence returns exactly when the code does and
then the run. -/
lemma returns_lift_bind_iff {result : Except JsError α} {f : α → Run κ β} {calls : List κ} {b : β} :
    ((MonadLiftT.monadLift result : Run κ α) >>= f).Returns calls b ↔
      ∃ a, result = .ok a ∧ (f a).Returns calls b := by
  rw [returns_bind_iff]
  constructor
  · intro h
    obtain ⟨first, second, a, rfl, hfirst, hsecond⟩ := h
    obtain ⟨rfl, ha⟩ := returns_lift_iff.mp hfirst
    exact ⟨a, ha, hsecond⟩
  · intro h
    obtain ⟨a, ha, hf⟩ := h
    exact ⟨[], calls, a, rfl, returns_lift_iff.mpr ⟨rfl, ha⟩, hf⟩

/-- A call before a run: the sequence returns exactly when the call is answered and then the
run returns. -/
lemma returns_call_bind_iff {c : κ} {answer : Except JsError α} {f : α → Run κ β}
    {calls : List κ} {b : β} : (call c answer >>= f).Returns calls b ↔
      ∃ rest a, calls = c :: rest ∧ answer = .ok a ∧ (f a).Returns rest b := by
  rw [returns_bind_iff]
  constructor
  · intro h
    obtain ⟨first, second, a, rfl, hfirst, hsecond⟩ := h
    obtain ⟨rfl, ha⟩ := returns_call_iff.mp hfirst
    exact ⟨second, a, rfl, ha, hsecond⟩
  · intro h
    obtain ⟨rest, a, rfl, ha, hf⟩ := h
    exact ⟨[c], rest, a, rfl, returns_call_iff.mpr ⟨rfl, ha⟩, hf⟩

end Run

end MultiPartEvent
