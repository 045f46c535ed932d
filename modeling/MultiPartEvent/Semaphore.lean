import Mathlib

/-!
# Counting semaphores that wake without handing over

A client that leaves such a semaphore frees its slot and wakes the first waiting client, and the
woken client takes a slot when it resumes, at some later time.  Between the two, other clients may
come and take slots as well.

Three things hold in whatever order clients arrive, resume and leave (`Semaphore.Fair`): the slots
taken are those of the clients inside, the clients are woken in the order in which they waited, and
while clients wait, the slots taken and the clients woken come to the limit.
-/

namespace MultiPartEvent

/-- The variables of the semaphore, and what has happened to its clients. -/
structure Semaphore (κ : Type*) where
  /-- The number of slots taken. -/
  active : ℤ
  /-- The clients that wait, the first first. -/
  waiting : List κ
  /-- The clients woken that have not resumed. -/
  woken : List κ
  /-- The clients that have taken a slot and have not left. -/
  holding : List κ
  /-- Every client that has begun to wait, in order, once for each time. -/
  waits : List κ
  /-- Every client that has been woken, in order, once for each time. -/
  wakes : List κ
  deriving DecidableEq

namespace Semaphore

/-- No client has come. -/
def empty {κ : Type*} : Semaphore κ := ⟨0, [], [], [], [], []⟩

section Operations

variable {κ : Type*} [DecidableEq κ]

/-- A client waits. -/
def wait (s : Semaphore κ) (client : κ) : Semaphore κ :=
  { s with waiting := s.waiting ++ [client], waits := s.waits ++ [client] }

/-- A client takes a slot. -/
def take (s : Semaphore κ) (client : κ) : Semaphore κ :=
  { s with active := s.active + 1, holding := s.holding ++ [client] }

/-- A woken client resumes. -/
def resumed (s : Semaphore κ) (client : κ) : Semaphore κ :=
  { s with woken := s.woken.erase client }

/-- The first waiting client is woken. -/
def wake (s : Semaphore κ) : Semaphore κ :=
  match s.waiting with
  | [] => s
  | first :: rest =>
    { s with waiting := rest, woken := s.woken ++ [first], wakes := s.wakes ++ [first] }

/-- A client frees its slot and wakes the first waiting client. -/
def leave (s : Semaphore κ) (client : κ) : Semaphore κ :=
  { s with active := s.active - 1, holding := s.holding.erase client }.wake

/-- How often a client occurs in the semaphore. -/
def inside (s : Semaphore κ) (client : κ) : ℕ :=
  s.waiting.count client + s.woken.count client + s.holding.count client

end Operations

/-- The counter counts the clients inside, clients are woken in the order in which they waited and
once for each time, and while a client waits, the slots taken and the clients woken come to the
limit. -/
structure Fair {κ : Type*} (limit : ℕ) (s : Semaphore κ) : Prop where
  counts : s.active = s.holding.length
  order : s.waits = s.wakes ++ s.waiting
  occupied : s.waiting ≠ [] → limit ≤ s.holding.length + s.woken.length

/-- At most this many clients wait before the client. -/
def Ahead {κ : Type*} (s : Semaphore κ) (client : κ) (before : ℕ) : Prop :=
  ∃ front back, s.waiting = front ++ client :: back ∧ front.length ≤ before

/-- An operation of one client leaves the others where they are, but may wake one of them. -/
structure Moves {κ : Type*} [DecidableEq κ] (client : κ) (s s' : Semaphore κ) : Prop where
  inside_eq : ∀ other, other ≠ client → s'.inside other = s.inside other
  holding_eq : ∀ other, other ≠ client → s'.holding.count other = s.holding.count other
  waiting_le : ∀ other, other ≠ client → s'.waiting.count other ≤ s.waiting.count other
  ahead : ∀ other before, other ≠ client → s.Ahead other before →
    s'.waiting.count other < s.waiting.count other ∨ s'.Ahead other before

variable {κ : Type*} {s s' s'' : Semaphore κ} {limit before : ℕ}

/-- Nobody waits in an empty semaphore. -/
lemma fair_empty : Fair limit (empty : Semaphore κ) := ⟨rfl, rfl, fun h => absurd rfl h⟩

/-! ### The clients in order -/

/-- A wake-up finds nobody, or moves the first waiting client. -/
lemma wake_cases (s : Semaphore κ) :
    (s.waiting = [] ∧ s.wake = s) ∨
      ∃ first rest, s.waiting = first :: rest ∧
        s.wake =
          { s with waiting := rest, woken := s.woken ++ [first], wakes := s.wakes ++ [first] } := by
  unfold Semaphore.wake
  cases hwaiting : s.waiting with
  | nil => exact Or.inl ⟨rfl, rfl⟩
  | cons first rest => exact Or.inr ⟨first, rest, rfl, rfl⟩

/-- A client waits only while all slots are taken. -/
lemma Fair.wait (h : Fair limit s) (hfull : (limit : ℤ) ≤ s.active) (client : κ) :
    Fair limit (s.wait client) := by
  constructor
  · exact h.counts
  · calc s.waits ++ [client] = (s.wakes ++ s.waiting) ++ [client] := by rw [h.order]
      _ = s.wakes ++ (s.waiting ++ [client]) := List.append_assoc _ _ _
  · intro _
    have hcounts := h.counts
    change limit ≤ s.holding.length + s.woken.length
    omega

/-- A client that comes may take a slot at any time. -/
lemma Fair.take (h : Fair limit s) (client : κ) : Fair limit (s.take client) := by
  have hlength : (s.take client).holding.length = s.holding.length + 1 := List.length_append
  constructor
  · rw [hlength]
    change s.active + 1 = _
    rw [h.counts, Nat.cast_succ]
  · exact h.order
  · intro hwaiting
    have hoccupied := h.occupied hwaiting
    rw [hlength]
    change limit ≤ s.holding.length + 1 + s.woken.length
    omega

variable [DecidableEq κ]

/-- A woken client takes a slot in place of its wake-up. -/
lemma Fair.resume (h : Fair limit s) {client : κ} (hwoken : client ∈ s.woken) :
    Fair limit ((s.resumed client).take client) := by
  have hlength : ((s.resumed client).take client).holding.length = s.holding.length + 1 :=
    List.length_append
  constructor
  · rw [hlength]
    change s.active + 1 = _
    rw [h.counts, Nat.cast_succ]
  · exact h.order
  · intro hwaiting
    have hoccupied := h.occupied hwaiting
    have hfewer := List.length_erase_of_mem hwoken
    have hpos := List.length_pos_of_mem hwoken
    rw [hlength]
    change limit ≤ s.holding.length + 1 + (s.woken.erase client).length
    omega

/-- The client that is woken stands for the slot that is freed. -/
lemma Fair.leave (h : Fair limit s) {client : κ} (hholding : client ∈ s.holding) :
    Fair limit (s.leave client) := by
  have hfewer := List.length_erase_of_mem hholding
  have hpos := List.length_pos_of_mem hholding
  have hcounts : s.active - 1 = ((s.holding.erase client).length : ℤ) := by
    rw [h.counts, hfewer]
    omega
  unfold Semaphore.leave
  rcases wake_cases { s with active := s.active - 1, holding := s.holding.erase client } with
    ⟨hwaiting, hwake⟩ | ⟨first, rest, hwaiting, hwake⟩
  · rw [hwake]
    exact ⟨hcounts, h.order, fun hsome => absurd hwaiting hsome⟩
  · rw [hwake]
    simp only at hwaiting
    refine ⟨hcounts, ?_, ?_⟩
    · calc s.waits = s.wakes ++ first :: rest := by rw [h.order, hwaiting]
        _ = (s.wakes ++ [first]) ++ rest := by rw [List.append_assoc, List.singleton_append]
    · intro _
      have hoccupied := h.occupied (by rw [hwaiting]; exact List.cons_ne_nil _ _)
      simp only [List.length_append, List.length_singleton]
      omega

/-! ### The place in the queue -/

omit [DecidableEq κ] in
/-- The bound on the clients before need not be sharp. -/
lemma Ahead.mono {client : κ} {fewer : ℕ} (h : s.Ahead client fewer) (hle : fewer ≤ before) :
    s.Ahead client before := by
  obtain ⟨front, back, hwaiting, hfront⟩ := h
  exact ⟨front, back, hwaiting, hfront.trans hle⟩

omit [DecidableEq κ] in
/-- Who comes later waits behind. -/
lemma Ahead.wait {client : κ} (h : s.Ahead client before) (other : κ) :
    (s.wait other).Ahead client before := by
  obtain ⟨front, back, hwaiting, hfront⟩ := h
  refine ⟨front, back ++ [other], ?_, hfront⟩
  change s.waiting ++ [other] = _
  rw [hwaiting, List.append_assoc, List.cons_append]

/-- Whenever a client leaves, each waiting client gets a place further, and the first is woken. -/
lemma Ahead.leave {client : κ} (h : s.Ahead client before) (other : κ) :
    (s.leave other).waiting.count client < s.waiting.count client ∨
      ∃ fewer < before, (s.leave other).Ahead client fewer := by
  obtain ⟨front, back, hwaiting, hfront⟩ := h
  unfold Semaphore.leave
  rcases wake_cases { s with active := s.active - 1, holding := s.holding.erase other } with
    ⟨hnone, _⟩ | ⟨first, rest, hsome, hwake⟩
  · exact absurd (hwaiting.symm.trans hnone) (by simp)
  · rw [hwake]
    have hsplit : first :: rest = front ++ client :: back := hsome.symm.trans hwaiting
    cases front with
    | nil =>
      obtain ⟨rfl, rfl⟩ := List.cons.inj hsplit
      left
      simp [hwaiting]
    | cons head front =>
      obtain ⟨-, hrest⟩ := List.cons.inj hsplit
      right
      rw [List.length_cons] at hfront
      exact ⟨front.length, by omega, front, back, hrest, le_refl _⟩

omit [DecidableEq κ] in
/-- A client waits at some place. -/
lemma exists_ahead {client : κ} (h : client ∈ s.waiting) : ∃ before, s.Ahead client before := by
  obtain ⟨front, back, hwaiting⟩ := List.append_of_mem h
  exact ⟨front.length, front, back, hwaiting, le_refl _⟩

/-! ### One client at a time -/

/-- Nothing happens. -/
lemma Moves.refl (client : κ) (s : Semaphore κ) : Moves client s s :=
  ⟨fun _ _ => rfl, fun _ _ => rfl, fun _ _ => le_refl _, fun _ _ _ h => Or.inr h⟩

/-- What a client does after what it did. -/
lemma Moves.trans {client : κ} (h : Moves client s s') (h' : Moves client s' s'') :
    Moves client s s'' := by
  constructor
  · intro other hother
    exact (h'.inside_eq other hother).trans (h.inside_eq other hother)
  · intro other hother
    exact (h'.holding_eq other hother).trans (h.holding_eq other hother)
  · intro other hother
    exact (h'.waiting_le other hother).trans (h.waiting_le other hother)
  · intro other before hother hahead
    rcases h.ahead other before hother hahead with hwoken | hahead'
    · exact Or.inl ((h'.waiting_le other hother).trans_lt hwoken)
    · rcases h'.ahead other before hother hahead' with hwoken | hahead''
      · exact Or.inl (hwoken.trans_le (h.waiting_le other hother))
      · exact Or.inr hahead''

/-- Waking a client keeps it in the semaphore. -/
lemma inside_wake (s : Semaphore κ) (client : κ) :
    s.wake.inside client = s.inside client ∧ s.wake.holding = s.holding ∧
      s.wake.waiting.count client ≤ s.waiting.count client := by
  rcases wake_cases s with ⟨_, hwake⟩ | ⟨first, rest, hwaiting, hwake⟩
  · rw [hwake]
    exact ⟨rfl, rfl, le_refl _⟩
  · rw [hwake]
    simp only [Semaphore.inside, hwaiting, List.count_append, List.count_cons, List.count_nil,
      true_and]
    constructor <;> omega

/-- A client that waits is once more in the semaphore. -/
lemma wait_spec (s : Semaphore κ) (client : κ) :
    Moves client s (s.wait client) ∧ (s.wait client).inside client = s.inside client + 1 ∧
      (s.wait client).waiting.count client = s.waiting.count client + 1 := by
  have hcount : ∀ other,
      (s.wait client).waiting.count other = s.waiting.count other + [client].count other :=
    fun other => List.count_append
  have hother : ∀ other, other ≠ client → [client].count other = 0 := fun other h =>
    List.count_eq_zero.mpr (by simpa using h)
  have hself : [client].count client = 1 := List.count_singleton_self
  refine ⟨⟨?_, fun _ _ => rfl, ?_, fun _ _ _ h => Or.inr (h.wait client)⟩, ?_, ?_⟩
  · intro other h
    unfold Semaphore.inside
    rw [hcount, hother other h]
    rfl
  · intro other h
    rw [hcount, hother other h, add_zero]
  · unfold Semaphore.inside
    rw [hcount, hself]
    change _ + 1 + s.woken.count client + s.holding.count client = _
    omega
  · rw [hcount, hself]

/-- A client that takes a slot is once more in the semaphore. -/
lemma take_spec (s : Semaphore κ) (client : κ) :
    Moves client s (s.take client) ∧ (s.take client).inside client = s.inside client + 1 ∧
      (s.take client).holding.count client = s.holding.count client + 1 := by
  have hcount : ∀ other,
      (s.take client).holding.count other = s.holding.count other + [client].count other :=
    fun other => List.count_append
  have hother : ∀ other, other ≠ client → [client].count other = 0 := fun other h =>
    List.count_eq_zero.mpr (by simpa using h)
  have hself : [client].count client = 1 := List.count_singleton_self
  refine ⟨⟨?_, ?_, fun _ _ => le_refl _, fun _ _ _ h => Or.inr h⟩, ?_, ?_⟩
  · intro other h
    unfold Semaphore.inside
    rw [hcount, hother other h]
    rfl
  · intro other h
    rw [hcount, hother other h, add_zero]
  · unfold Semaphore.inside
    rw [hcount, hself]
    rfl
  · rw [hcount, hself]

/-- A client that resumes is woken no more. -/
lemma resumed_spec {client : κ} (hwoken : client ∈ s.woken) :
    Moves client s (s.resumed client) ∧ (s.resumed client).inside client + 1 = s.inside client := by
  have hpos := List.count_pos_iff.mpr hwoken
  refine ⟨⟨?_, fun _ _ => rfl, fun _ _ => le_refl _, fun _ _ _ h => Or.inr h⟩, ?_⟩
  · intro other h
    unfold Semaphore.inside Semaphore.resumed
    rw [List.count_erase_of_ne h]
  · simp only [Semaphore.inside, Semaphore.resumed, List.count_erase_self]
    omega

/-- A client that leaves holds one slot less. -/
lemma leave_spec {client : κ} (hholding : client ∈ s.holding) :
    Moves client s (s.leave client) ∧ (s.leave client).inside client + 1 = s.inside client ∧
      (s.leave client).holding.count client + 1 = s.holding.count client := by
  have hpos := List.count_pos_iff.mpr hholding
  have hwake := inside_wake { s with active := s.active - 1, holding := s.holding.erase client }
  refine ⟨⟨?_, ?_, ?_, ?_⟩, ?_, ?_⟩
  · intro other h
    refine (hwake other).1.trans ?_
    unfold Semaphore.inside
    rw [List.count_erase_of_ne h]
  · intro other h
    rw [Semaphore.leave, (hwake other).2.1, List.count_erase_of_ne h]
  · intro other _
    exact (hwake other).2.2
  · intro other before _ hahead
    rcases hahead.leave client with hwoken | ⟨fewer, hfewer, hahead'⟩
    · exact Or.inl hwoken
    · exact Or.inr (hahead'.mono hfewer.le)
  · rw [Semaphore.leave, (hwake client).1]
    simp only [Semaphore.inside, List.count_erase_self]
    omega
  · rw [Semaphore.leave, (hwake client).2.1, List.count_erase_self]
    omega

end Semaphore

end MultiPartEvent
