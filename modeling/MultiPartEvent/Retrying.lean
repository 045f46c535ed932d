import Mathlib

/-!
# Bounded retries

A loop that makes attempts `first`, `first + 1`, … up to a limit and goes on after exactly those
outcomes that call for another attempt.  All that its callers need is which attempt is its last:
the first that calls for no other, or the one at the limit (`LastAttempt`).
-/

namespace MultiPartEvent

/-- Attempt `last` is where the retries from `first` up to `limit` end: every attempt before it
calls for another, and it does not unless it is at the limit. -/
structure LastAttempt (again : ℕ → Prop) (first limit last : ℕ) : Prop where
  started : first ≤ last
  within : last ≤ limit
  before : ∀ attempt, first ≤ attempt → attempt < last → again attempt
  ends : last < limit → ¬again last

namespace LastAttempt

variable {again : ℕ → Prop} {first limit last last' : ℕ}

/-- The retries end at the attempt at the limit if they get there. -/
lemma at_limit (again : ℕ → Prop) (limit : ℕ) : LastAttempt again limit limit limit :=
  ⟨le_refl _, le_refl _, fun _ hfirst hlast => absurd hlast (Nat.not_lt.mpr hfirst),
    fun h => absurd h (lt_irrefl _)⟩

/-- The retries end with an attempt that calls for no other. -/
lemma stop (hlimit : first ≤ limit) (hstop : ¬again first) :
    LastAttempt again first limit first :=
  ⟨le_refl _, hlimit, fun _ hfirst hlast => absurd hlast (Nat.not_lt.mpr hfirst), fun _ => hstop⟩

/-- After an attempt that calls for another, the retries end where they do from the next one. -/
lemma next (hagain : again first) (h : LastAttempt again (first + 1) limit last) :
    LastAttempt again first limit last := by
  constructor
  · have := h.started
    omega
  · exact h.within
  · intro attempt hfirst hlast
    rcases Nat.eq_or_lt_of_le hfirst with rfl | hlater
    · exact hagain
    · exact h.before attempt hlater hlast
  · exact h.ends

/-- The retries end in one place. -/
lemma unique (h : LastAttempt again first limit last) (h' : LastAttempt again first limit last') :
    last = last' := by
  rcases Nat.lt_trichotomy last last' with hlt | heq | hlt
  · have hwithin := h'.within
    exact absurd (h'.before last h.started hlt) (h.ends (by omega))
  · exact heq
  · have hwithin := h.within
    exact absurd (h.before last' h'.started hlt) (h'.ends (by omega))

/-- Two rules that agree up to the last attempt have the same last attempt. -/
lemma congr {again' : ℕ → Prop} (h : LastAttempt again first limit last)
    (hagree : ∀ attempt, first ≤ attempt → attempt ≤ last → (again attempt ↔ again' attempt)) :
    LastAttempt again' first limit last := by
  constructor
  · exact h.started
  · exact h.within
  · intro attempt hfirst hlast
    exact (hagree attempt hfirst (Nat.le_of_lt hlast)).mp (h.before attempt hfirst hlast)
  · intro hlimit hlast
    exact h.ends hlimit ((hagree last h.started (le_refl _)).mpr hlast)

end LastAttempt

end MultiPartEvent
