import MultiPartEvent.Js.Text

/-!
# The errors the program throws

Fallible code returns `Except JsError`.  The constructors are the error classes of the source;
a `catch` that rethrows everything but a `RangeError` is a match on `rangeError`.
-/

namespace MultiPartEvent

/-- A thrown error: its class and text. -/
inductive JsError where
  | rangeError (message : JsString)
  | error (message : JsString)
  /-- `PackageCheckError`: the construction stage and the violated rule. -/
  | packageCheckError (stage detail : JsString)
  deriving DecidableEq

/-- `error.message`. -/
def JsError.message : JsError → JsString
  | .rangeError message => message
  | .error message => message
  | .packageCheckError stage detail => stage ++ js ": " ++ detail

/-- `if (condition) throw error`. -/
def throwIf (condition : Prop) [Decidable condition] (error : JsError) : Except JsError Unit :=
  if condition then .error error else .ok ()

/-! ### Sequencing fallible code -/

section Sequencing

universe u

variable {ε : Type*} {α β : Type u}

/-- A sequence returns exactly when both steps do. -/
lemma bind_eq_ok_iff {x : Except ε α} {f : α → Except ε β} {b : β} :
    x >>= f = .ok b ↔ ∃ a, x = .ok a ∧ f a = .ok b := by
  cases x with
  | error err => simp [bind, Except.bind]
  | ok a => simp [bind, Except.bind]

/-- A sequence throws exactly when one of its steps does. -/
lemma bind_eq_error_iff {x : Except ε α} {f : α → Except ε β} {err : ε} :
    x >>= f = .error err ↔ x = .error err ∨ ∃ a, x = .ok a ∧ f a = .error err := by
  cases x with
  | error err' => simp [bind, Except.bind]
  | ok a => simp [bind, Except.bind]

/-- A result under another error. -/
lemma mapError_eq_ok_iff {ε' : Type*} {g : ε → ε'} {result : Except ε α} {a : α} :
    result.mapError g = .ok a ↔ result = .ok a := by
  cases result <;> simp [Except.mapError]

@[simp] lemma ok_bind {a : α} {f : α → Except ε β} : (Except.ok a >>= f) = f a := rfl

@[simp] lemma pure_eq_ok_iff {a b : α} : (pure a : Except ε α) = .ok b ↔ a = b := by
  simp [pure, Except.pure]

@[simp] lemma pure_ne_error {a : α} {err : ε} : (pure a : Except ε α) ≠ .error err := by
  simp [pure, Except.pure]

@[simp] lemma throw_ne_ok {b : α} {err : ε} : (throw err : Except ε α) ≠ .ok b := by
  simp [throw, throwThe, MonadExceptOf.throw]

@[simp] lemma throw_eq_error_iff {err err' : ε} :
    (throw err : Except ε α) = .error err' ↔ err = err' := by
  simp [throw, throwThe, MonadExceptOf.throw]

/-- A fallible value has a result exactly when it returns one. -/
lemma toOption_eq_some_iff {x : Except ε α} {a : α} : x.toOption = some a ↔ x = .ok a := by
  cases x <;> simp [Except.toOption]

/-- A guard returns exactly when its condition fails. -/
@[simp] lemma throwIf_eq_ok_iff {condition : Prop} [Decidable condition] {error : JsError}
    {u : Unit} : throwIf condition error = .ok u ↔ ¬condition := by
  simp [throwIf]

/-- A guard throws its error exactly when its condition holds. -/
@[simp] lemma throwIf_eq_error_iff {condition : Prop} [Decidable condition]
    {error error' : JsError} :
    throwIf condition error = .error error' ↔ condition ∧ error = error' := by
  by_cases h : condition <;> simp [throwIf, h]

/-- Related lists have their elements related, seen from the second. -/
lemma exists_left_of_forall₂ {α β : Type*} {R : α → β → Prop} {l : List α} {l' : List β}
    (h : List.Forall₂ R l l') {b : β} (hb : b ∈ l') : ∃ a ∈ l, R a b := by
  induction h with
  | nil => simp at hb
  | @cons a b' l l' hab _ ih =>
    rcases List.mem_cons.mp hb with rfl | hb
    · exact ⟨a, by simp, hab⟩
    · obtain ⟨a', ha', hrelated⟩ := ih hb
      exact ⟨a', List.mem_cons_of_mem _ ha', hrelated⟩

/-- Related lists have their elements related, seen from the first. -/
lemma exists_right_of_forall₂ {α β : Type*} {R : α → β → Prop} {l : List α} {l' : List β}
    (h : List.Forall₂ R l l') {a : α} (ha : a ∈ l) : ∃ b ∈ l', R a b :=
  exists_left_of_forall₂ h.flip ha

/-- A loop that returns collects the results of its steps. -/
lemma mapM_eq_ok_iff {f : α → Except ε β} {l : List α} {l' : List β} :
    l.mapM f = .ok l' ↔ List.Forall₂ (fun a b => f a = .ok b) l l' := by
  induction l generalizing l' with
  | nil =>
    rw [List.mapM_nil, pure_eq_ok_iff]
    simp [eq_comm]
  | cons a l ih =>
    rw [List.mapM_cons, bind_eq_ok_iff]
    constructor
    · intro h
      obtain ⟨b, hb, h⟩ := h
      obtain ⟨rest, hrest, h⟩ := bind_eq_ok_iff.mp h
      rw [pure_eq_ok_iff] at h
      subst h
      exact List.Forall₂.cons hb (ih.mp hrest)
    · intro h
      cases h with
      | @cons _ b _ rest hb hrest =>
        refine ⟨b, hb, bind_eq_ok_iff.mpr ⟨rest, ih.mpr hrest, ?_⟩⟩
        rw [pure_eq_ok_iff]

/-- A loop whose steps all return collects their results. -/
lemma mapM_ok {f : α → Except ε β} {g : α → β} {l : List α} (h : ∀ a ∈ l, f a = .ok (g a)) :
    l.mapM f = .ok (l.map g) := by
  rw [mapM_eq_ok_iff, List.forall₂_map_right_iff, List.forall₂_same]
  exact h

/-- A loop whose steps all return, returns. -/
lemma exists_mapM_ok {f : α → Except ε β} {l : List α} (h : ∀ a ∈ l, ∃ b, f a = .ok b) :
    ∃ l', l.mapM f = .ok l' := by
  induction l with
  | nil => exact ⟨[], rfl⟩
  | cons a l ih =>
    obtain ⟨⟨b, hb⟩, hrest⟩ := List.forall_mem_cons.mp h
    obtain ⟨l', hl'⟩ := ih hrest
    exact ⟨b :: l', mapM_eq_ok_iff.mpr (.cons hb (mapM_eq_ok_iff.mp hl'))⟩

/-- A loop of checks returns exactly when every check does. -/
lemma exists_mapM_eq_ok_iff {α : Type} {f : α → Except ε Unit} {l : List α} :
    (∃ results, l.mapM f = .ok results) ↔ ∀ a ∈ l, f a = .ok () := by
  constructor
  · intro h
    obtain ⟨results, hresults⟩ := h
    have hall := mapM_eq_ok_iff.mp hresults
    clear hresults
    induction hall with
    | nil => simp
    | cons hstep _ ih => exact List.forall_mem_cons.mpr ⟨hstep, ih⟩
  · intro h
    exact ⟨l.map fun _ => (), mapM_ok h⟩

/-- The results of a loop are at the places of the elements. -/
lemma getElem?_of_mapM_eq_ok {f : α → Except ε β} {l : List α} {l' : List β}
    (h : l.mapM f = .ok l') {i : ℕ} {a : α} (ha : l[i]? = some a) :
    ∃ b, f a = .ok b ∧ l'[i]? = some b := by
  obtain ⟨hlength, hall⟩ := List.forall₂_iff_get.mp (mapM_eq_ok_iff.mp h)
  obtain ⟨hi, rfl⟩ := List.getElem?_eq_some_iff.mp ha
  have hi' : i < l'.length := hlength ▸ hi
  exact ⟨l'[i], hall i hi hi', List.getElem?_eq_getElem hi'⟩

/-- A loop returns as many results as there are elements. -/
lemma length_of_mapM_eq_ok {f : α → Except ε β} {l : List α} {l' : List β}
    (h : l.mapM f = .ok l') : l'.length = l.length :=
  (mapM_eq_ok_iff.mp h).length_eq.symm

/-- The loop over one more element does one more step. -/
lemma foldlM_take_succ {f : β → α → Except ε β} {l : List α} {b : β} {i : ℕ} {a : α}
    (ha : l[i]? = some a) :
    (l.take (i + 1)).foldlM f b = (l.take i).foldlM f b >>= fun b' => f b' a := by
  rw [List.take_add_one, ha, List.foldlM_append]
  simp

/-- An invariant of the steps of a loop holds after every number of steps. -/
theorem foldlM_invariant {f : β → α → Except ε β} {l : List α} {b : β} {I : ℕ → β → Prop}
    (hstart : I 0 b)
    (hstep : ∀ i a st st', l[i]? = some a → I i st → f st a = .ok st' → I (i + 1) st')
    {i : ℕ} (hi : i ≤ l.length) {st : β} (h : (l.take i).foldlM f b = .ok st) : I i st := by
  induction i generalizing st with
  | zero =>
    rw [List.take_zero, List.foldlM_nil, pure_eq_ok_iff] at h
    exact h ▸ hstart
  | succ i ih =>
    have ha : l[i]? = some l[i] := List.getElem?_eq_getElem hi
    rw [foldlM_take_succ ha, bind_eq_ok_iff] at h
    obtain ⟨previous, hprevious, hlast⟩ := h
    exact hstep i _ previous st ha (ih (Nat.le_of_succ_le hi) hprevious) hlast

/-- A loop throws when one of its steps, once reached, does. -/
lemma foldlM_error_of_step {f : β → α → Except ε β} {l : List α} {b st : β} {i : ℕ} {a : α}
    {err : ε} (ha : l[i]? = some a) (hreached : (l.take i).foldlM f b = .ok st)
    (hstep : f st a = .error err) : l.foldlM f b = .error err := by
  have hprefix : (l.take (i + 1)).foldlM f b = .error err := by
    rw [foldlM_take_succ ha, hreached]
    exact hstep
  rw [← List.take_append_drop (i + 1) l, List.foldlM_append, hprefix]
  rfl

/-- A loop whose steps throw errors of one kind throws errors of that kind. -/
lemma foldlM_error {P : ε → Prop} {f : β → α → Except ε β}
    (hf : ∀ b a err, f b a = .error err → P err) {l : List α} {b : β} {err : ε}
    (h : l.foldlM f b = .error err) : P err := by
  induction l generalizing b with
  | nil => simp at h
  | cons a l ih =>
    rw [List.foldlM_cons, bind_eq_error_iff] at h
    rcases h with h | ⟨b', -, h⟩
    · exact hf b a err h
    · exact ih h

end Sequencing

end MultiPartEvent
