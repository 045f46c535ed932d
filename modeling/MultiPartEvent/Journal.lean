import Mathlib.Data.List.Infix

/-!
# Records kept before an effect

A program keeps a record of what it is about to do and replaces it as it goes on.  A `Discipline`
says which events save a record, which are the effect, when a record may be saved and which effect a
record covers.  A `Journal` is a history that follows the discipline: the effect happens at most
once, and only while the last record covers it.

The rules take a history apart at any event.  `Journal.saved_next` and `Journal.covered` give what
held when the event happened, whatever comes after it.
-/

namespace MultiPartEvent

/-- What is asked of the events of a program that keeps a record of an effect. -/
structure Discipline (ρ ε : Type*) where
  /-- The record an event saves. -/
  saves : ε → Option ρ
  /-- The event is the effect. -/
  acts : ε → Bool
  /-- After these records and events, the record may be saved. -/
  next : List ρ → List ε → ρ → Prop
  /-- The record covers the effect. -/
  covers : ρ → ε → Prop

/-- The histories that follow a discipline, with the records saved in them and whether the effect
has happened. -/
inductive Journal {ρ ε : Type*} (d : Discipline ρ ε) : List ρ → Bool → List ε → Prop
  | start : Journal d [] false []
  /-- An event that neither saves nor acts. -/
  | other {saved : List ρ} {acted : Bool} {past : List ε} {e : ε}
      (before : Journal d saved acted past)
      (saves : d.saves e = none) (acts : d.acts e = false) : Journal d saved acted (past ++ [e])
  /-- A record is saved. -/
  | save {saved : List ρ} {acted : Bool} {past : List ε} {e : ε} {r : ρ}
      (before : Journal d saved acted past) (saves : d.saves e = some r) (acts : d.acts e = false)
      (next : d.next saved past r) : Journal d (saved ++ [r]) acted (past ++ [e])
  /-- The effect, covered by the last record. -/
  | act {saved : List ρ} {past : List ε} {e : ε} {r : ρ} (before : Journal d saved false past)
      (saves : d.saves e = none) (acts : d.acts e = true) (last : saved.getLast? = some r)
      (covers : d.covers r e) : Journal d saved true (past ++ [e])

namespace Journal

variable {ρ ε : Type*} {d : Discipline ρ ε} {saved : List ρ} {acted : Bool} {past : List ε}

/-- The records are those the events save. -/
lemma filterMap_saves (h : Journal d saved acted past) : past.filterMap d.saves = saved := by
  induction h with
  | start => rfl
  | other before hsaves _ ih => simp [ih, hsaves]
  | save before hsaves _ _ ih => simp [ih, hsaves]
  | act before hsaves _ _ _ ih => simp [ih, hsaves]

/-- The effect has happened once or not at all. -/
theorem countP_acts (h : Journal d saved acted past) :
    past.countP d.acts = if acted then 1 else 0 := by
  induction h with
  | start => rfl
  | other before _ hacts ih => simp [ih, hacts]
  | save before _ hacts _ ih => simp [ih, hacts]
  | act before _ hacts _ _ ih => simp [ih, hacts]

/-- An event of a history extended by one is the last one or an event of the history. -/
lemma append_singleton_eq {before after : List ε} {e last : ε}
    (h : past ++ [last] = before ++ e :: after) :
    (past = before ∧ last = e ∧ after = []) ∨ ∃ rest,
      past = before ++ e :: rest ∧ after = rest ++ [last] := by
  rcases List.eq_nil_or_concat after with rfl | ⟨rest, last', rfl⟩
  · obtain ⟨hpast, hlast⟩ := List.append_inj' h rfl
    exact Or.inl ⟨hpast, (List.cons.inj hlast).1, rfl⟩
  · rw [List.concat_eq_append] at h ⊢
    rw [← List.cons_append, ← List.append_assoc] at h
    obtain ⟨hpast, hlast⟩ := List.append_inj' h rfl
    exact Or.inr ⟨rest, hpast, by rw [(List.cons.inj hlast).1]⟩

/-- **A record was saved when it might be**: after the records and events before it. -/
theorem saved_next (h : Journal d saved acted past) {before after : List ε} {e : ε} {r : ρ}
    (hpast : past = before ++ e :: after) (hsaves : d.saves e = some r) :
    d.next (before.filterMap d.saves) before r := by
  induction h generalizing after with
  | start => simp at hpast
  | other hbefore hnone _ ih =>
    rcases append_singleton_eq hpast with ⟨-, rfl, -⟩ | ⟨rest, hrest, -⟩
    · rw [hnone] at hsaves
      cases hsaves
    · exact ih hrest
  | save hbefore hsome _ hnext ih =>
    rcases append_singleton_eq hpast with ⟨rfl, rfl, -⟩ | ⟨rest, hrest, -⟩
    · rw [hsome] at hsaves
      cases hsaves
      rw [hbefore.filterMap_saves]
      exact hnext
    · exact ih hrest
  | act hbefore hnone _ _ _ ih =>
    rcases append_singleton_eq hpast with ⟨-, rfl, -⟩ | ⟨rest, hrest, -⟩
    · rw [hnone] at hsaves
      cases hsaves
    · exact ih hrest

/-- **The effect was covered** by the last record saved before it. -/
theorem covered (h : Journal d saved acted past) {before after : List ε} {e : ε}
    (hpast : past = before ++ e :: after) (hacts : d.acts e = true) :
    ∃ r, (before.filterMap d.saves).getLast? = some r ∧ d.covers r e := by
  induction h generalizing after with
  | start => simp at hpast
  | other hbefore _ hnone ih =>
    rcases append_singleton_eq hpast with ⟨-, rfl, -⟩ | ⟨rest, hrest, -⟩
    · rw [hnone] at hacts
      cases hacts
    · exact ih hrest
  | save hbefore _ hnone _ ih =>
    rcases append_singleton_eq hpast with ⟨-, rfl, -⟩ | ⟨rest, hrest, -⟩
    · rw [hnone] at hacts
      cases hacts
    · exact ih hrest
  | act hbefore _ _ hlast hcovers ih =>
    rcases append_singleton_eq hpast with ⟨rfl, rfl, -⟩ | ⟨rest, hrest, -⟩
    · rw [hbefore.filterMap_saves]
      exact ⟨_, hlast, hcovers⟩
    · exact ih hrest

/-- What every record saved gives the records so far, holds of the records of a history. -/
theorem records {P : List ρ → Prop} (h : Journal d saved acted past) (hstart : P [])
    (hnext : ∀ saved past r, d.next saved past r → P (saved ++ [r])) : P saved := by
  induction h with
  | start => exact hstart
  | other _ _ _ ih => exact ih
  | save _ _ _ hr _ => exact hnext _ _ _ hr
  | act _ _ _ _ _ ih => exact ih

/-- Events that neither save nor act go on with the journal. -/
lemma others (h : Journal d saved acted past) {events : List ε}
    (hevents : ∀ e ∈ events, d.saves e = none ∧ d.acts e = false) :
    Journal d saved acted (past ++ events) := by
  induction events generalizing past with
  | nil =>
    rw [List.append_nil]
    exact h
  | cons e events ih =>
    obtain ⟨⟨hsaves, hacts⟩, hrest⟩ := List.forall_mem_cons.mp hevents
    have hnext := ih (h.other hsaves hacts) hrest
    rw [List.append_assoc, List.singleton_append] at hnext
    exact hnext

end Journal

end MultiPartEvent
