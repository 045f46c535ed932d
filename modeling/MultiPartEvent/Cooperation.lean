import Mathlib.Order.Defs.Unbundled
import MultiPartEvent.Interleaving

/-!
# Processes that keep an invariant together

Processes that share their whole state and rely on each other for the same thing: an invariant `I`
of the state, and a preorder `R` in which the state moves on.  `Grows I R` is what every step may
do, and what every process may meet with.  An action `MovesOn`, and a process `Cooperates`, from the
states with `Q` when it grows there, the process in each of its steps.  The invariant then holds in
every state that any interleaving reaches (`invariant_of_cooperates`).

The state usually holds a history.  `Follows allowed` says that every event of a history was allowed
by the events before it; a history follows its rules when each step appends what they allow.
-/

namespace MultiPartEvent

/-! ### Histories that follow rules -/

section Histories

variable {ε : Type*} {allowed : List ε → ε → Prop} {history : List ε} {event : ε}

/-- Every event of the history was allowed by the events before it. -/
def Follows (allowed : List ε → ε → Prop) (history : List ε) : Prop :=
  ∀ before event after, history = before ++ event :: after → allowed before event

/-- No event has happened yet. -/
lemma follows_nil : Follows allowed [] := by
  intro before event after hsplit
  exact absurd hsplit (by simp)

/-- A further event must be allowed by all events before it. -/
lemma follows_concat_iff :
    Follows allowed (history ++ [event]) ↔ Follows allowed history ∧ allowed history event := by
  constructor
  · intro h
    refine ⟨?_, h history event [] rfl⟩
    intro before earlier after hsplit
    exact h before earlier (after ++ [event]) (by rw [hsplit]; simp)
  · intro h before last after hsplit
    rcases List.eq_nil_or_concat after with rfl | ⟨rest, final, rfl⟩
    · obtain ⟨rfl, hlast⟩ := List.append_inj' hsplit rfl
      cases hlast
      exact h.2
    · have hfront : history ++ [event] = (before ++ last :: rest) ++ [final] := by
        rw [hsplit, List.append_assoc, List.cons_append, List.concat_eq_append]
      exact h.1 before last rest (List.append_inj' hfront rfl).1

end Histories

/-! ### Steps that grow -/

section Cooperation

variable {ε σ α β : Type} {I : σ → Prop} {R : σ → σ → Prop} {Q : σ → Prop}

/-- From a state with the invariant, the state moves on to one with the invariant. -/
def Grows (I : σ → Prop) (R : σ → σ → Prop) (s s' : σ) : Prop := I s → I s' ∧ R s s'

/-- From the states with the invariant and with `Q`, the action grows, whether it returns or
throws. -/
def MovesOn (I : σ → Prop) (R : σ → σ → Prop) (Q : σ → Prop) (x : Action ε σ α) : Prop :=
  ∀ s, I s → Q s → I (x s).2 ∧ R s (x s).2

/-- Every step of the process grows, from the states with the invariant and with `Q`. -/
def Cooperates (I : σ → Prop) (R : σ → σ → Prop) (Q : σ → Prop) (p : Process ε σ α) : Prop :=
  Process.Obeys (Grows I R) (Grows I R) (fun s => I s ∧ Q s) p

/-- An action that moves on from more states moves on from less. -/
lemma MovesOn.of_imp {P : σ → Prop} {x : Action ε σ α} (h : MovesOn I R P x)
    (himp : ∀ s, I s → Q s → P s) : MovesOn I R Q x :=
  fun s hs hQ => h s hs (himp s hs hQ)

/-- What an action that moves on leaves has the invariant. -/
lemma MovesOn.kept {x : Action ε σ α} (h : MovesOn I R Q x) {s s' : σ} {result : Except ε α}
    (hs : I s) (hQ : Q s) (hx : x s = (result, s')) : I s' ∧ R s s' := by
  have hmoved := h s hs hQ
  rwa [hx] at hmoved

section Preorder

variable [IsPreorder σ R]

/-- Nothing happens. -/
lemma Grows.refl (s : σ) : Grows I R s s := fun hs => ⟨hs, refl_of R s⟩

/-- One step after another. -/
lemma Grows.trans {s t u : σ} (h : Grows I R s t) (h' : Grows I R t u) : Grows I R s u := by
  intro hs
  obtain ⟨ht, hst⟩ := h hs
  obtain ⟨hu, htu⟩ := h' ht
  exact ⟨hu, trans_of R hst htu⟩

/-- Code that leaves the state alone moves on. -/
lemma movesOn_lift (result : Except ε α) :
    MovesOn I R Q (MonadLiftT.monadLift result : Action ε σ α) :=
  fun s hs _ => ⟨hs, refl_of R s⟩

/-- Returning a value moves on. -/
lemma movesOn_pure (a : α) : MovesOn I R Q (pure a : Action ε σ α) :=
  fun s hs _ => ⟨hs, refl_of R s⟩

/-- Throwing moves on. -/
lemma movesOn_fail (err : ε) : MovesOn I R Q (Action.fail err : Action ε σ α) :=
  fun s hs _ => ⟨hs, refl_of R s⟩

/-- Reading the state moves on. -/
lemma movesOn_look (g : σ → α) : MovesOn I R Q (Action.look g : Action ε σ α) :=
  fun s hs _ => ⟨hs, refl_of R s⟩

/-- Code that may be skipped moves on if it does when it runs. -/
lemma MovesOn.runUnless {y : Action ε σ Unit} {skipped : Bool}
    (hy : skipped = false → MovesOn I R Q y) : MovesOn I R Q (Action.runUnless skipped y) := by
  cases skipped with
  | true => exact fun s hs _ => ⟨hs, refl_of R s⟩
  | false => exact hy rfl

/-- A sequence moves on if its first action does, and the rest from what that has shown. -/
lemma MovesOn.bind {x : Action ε σ α} {f : α → Action ε σ β} (hx : MovesOn I R Q x)
    (hf : ∀ a, MovesOn I R (fun s' => ∃ s, I s ∧ Q s ∧ x.Returns s a s') (f a)) :
    MovesOn I R Q (x >>= f) := by
  intro s hs hQ
  rcases Action.returns_or_throws x s with ⟨a, s', hreturns⟩ | ⟨err, s', hthrows⟩
  · obtain ⟨hs', hfirst⟩ := hx.kept hs hQ hreturns
    obtain ⟨hend, hsecond⟩ := hf a s' hs' ⟨s, hs, hQ, hreturns⟩
    rw [hreturns.bind]
    exact ⟨hend, trans_of R hfirst hsecond⟩
  · rw [hthrows.bind]
    exact hx.kept hs hQ hthrows

/-- A `try … catch` moves on if its body does, and its handler from what the body has shown. -/
lemma MovesOn.catching {x : Action ε σ α} {handler : ε → Action ε σ α} (hx : MovesOn I R Q x)
    (hhandler : ∀ err, MovesOn I R (fun s' => ∃ s, I s ∧ Q s ∧ x.Throws s err s') (handler err)) :
    MovesOn I R Q (x.catching handler) := by
  intro s hs hQ
  rcases Action.returns_or_throws x s with ⟨a, s', hreturns⟩ | ⟨err, s', hthrows⟩
  · have hcatching : x.catching handler s = (.ok a, s') := by
      unfold Action.catching
      rw [hreturns]
    rw [hcatching]
    exact hx.kept hs hQ hreturns
  · obtain ⟨hs', hfirst⟩ := hx.kept hs hQ hthrows
    obtain ⟨hend, hsecond⟩ := hhandler err s' hs' ⟨s, hs, hQ, hthrows⟩
    rw [hthrows.catching]
    exact ⟨hend, trans_of R hfirst hsecond⟩

/-- A `try … finally` moves on if its body does and, from wherever that ends, its last action. -/
lemma MovesOn.ending {x : Action ε σ α} {last : Action ε σ Unit} (hx : MovesOn I R Q x)
    (hlast : MovesOn I R (fun _ => True) last) : MovesOn I R Q (x.ending last) := by
  intro s hs hQ
  obtain ⟨hs', hfirst⟩ := hx s hs hQ
  obtain ⟨hend, hsecond⟩ := hlast (x s).2 hs' trivial
  unfold Action.ending
  rcases hresult : last (x s).2 with ⟨ended, s'⟩
  rw [hresult] at hend hsecond
  cases ended <;> exact ⟨hend, trans_of R hfirst hsecond⟩

end Preorder

/-- A process that cooperates from more states cooperates from less. -/
lemma Cooperates.of_imp {P : σ → Prop} {p : Process ε σ α} (h : Cooperates I R P p)
    (himp : ∀ s, I s → Q s → P s) : Cooperates I R Q p :=
  Process.Obeys.of_imp h fun s hs => ⟨hs.1, himp s hs.1 hs.2⟩

/-- Returning a value, and what comes after it. -/
lemma cooperates_pure_bind {a : α} {f : α → Process ε σ β} (h : Cooperates I R Q (f a)) :
    Cooperates I R Q ((pure a : Process ε σ α) >>= f) := h

/-- A process that has thrown takes no step. -/
lemma cooperates_throw_bind (err : ε) (f : α → Process ε σ β) :
    Cooperates I R Q ((Process.done (.error err) : Process ε σ α) >>= f) := fun _ _ => trivial

/-- An action in one step moves on, and the rest cooperates from what the action has shown. -/
lemma MovesOn.bind_process {x : Action ε σ α} {f : α → Process ε σ β} (hx : MovesOn I R Q x)
    (hstable : ∀ s t, Q s → R s t → Q t)
    (hnext : ∀ a, Cooperates I R (fun s' => ∃ s, I s ∧ Q s ∧ x.Returns s a s') (f a)) :
    Cooperates I R Q ((MonadLiftT.monadLift x : Process ε σ α) >>= f) := by
  refine Process.obeys_lift_bind ?_ ?_ ?_
  · intro s t hs hgrows
    obtain ⟨ht, hst⟩ := hgrows hs.1
    exact ⟨ht, hstable s t hs.2 hst⟩
  · intro s hs _
    exact hx s hs.1 hs.2
  · intro a
    refine Process.Obeys.of_imp (hnext a) ?_
    intro s' h
    obtain ⟨s, hs, hreturns⟩ := h
    exact ⟨(hx.kept hs.1 hs.2 hreturns).1, s, hs.1, hs.2, hreturns⟩

end Cooperation

/-! ### A state that is shared as a whole -/

section Together

variable {ι ε σ α : Type} [DecidableEq ι] {I : σ → Prop} {R : σ → σ → Prop}

/-- The whole state is shared. -/
def allShared (σ : Type) : Sharing σ σ Unit where
  join s _ := s
  shared s := s
  own _ := ()
  shared_join _ _ := rfl
  own_join _ _ := rfl
  join_self _ := rfl

/-- Processes over one state, none with a state of its own. -/
abbrev Together (ι ε σ α : Type) := Interleaved ι ε σ σ Unit α

/-- The processes before their first step. -/
def Together.start (code : ι → Process ε σ α) (s : σ) : Together ι ε σ α where
  shared := s
  own _ := ()
  code := code

/-- **What cooperating processes keep.**  The invariant holds in every state that an interleaving of
the processes reaches, and that state comes after the start. -/
theorem invariant_of_cooperates [IsPreorder σ R] {code : ι → Process ε σ α} {Q : ι → σ → Prop}
    {start : σ} {s : Together ι ε σ α} {allowed : Together ι ε σ α → ι → Prop}
    (hcode : ∀ i, Cooperates I R (Q i) (code i)) (hstart : I start) (hQ : ∀ i, Q i start)
    (h : Reaches (interleavedStep (allShared σ)) allowed (Together.start code start) s) :
    I s.shared ∧ R start s.shared := by
  have hguard : AllGuard (allShared σ) (fun _ => Grows I R) (fun _ => Grows I R)
      (Together.start code start) := fun i => hcode i start ⟨hstart, hQ i⟩
  have hrefl : ∀ i : ι, ∀ s, Grows I R s s := fun _ => Grows.refl
  have htrans : ∀ i : ι, ∀ s t u, Grows I R s t → Grows I R t u → Grows I R s u :=
    fun _ _ _ _ => Grows.trans
  have hcompatible : ∀ i j : ι, ∀ s s' h, j ≠ i → Grows I R s s' →
      Grows I R ((allShared σ).join ((allShared σ).shared s) h)
        ((allShared σ).join ((allShared σ).shared s') h) := fun _ _ _ _ _ _ hgrows => hgrows
  induction h with
  | start => exact ⟨hstart, refl_of R start⟩
  | step before hallowed hstep ih =>
    have hbefore := guards_of_reaches hrefl htrans hcompatible hguard before
    obtain ⟨hinvariant, hafter⟩ := (guards_of_step hrefl hbefore hstep).1 ih.1
    exact ⟨hinvariant, trans_of R ih.2 hafter⟩

end Together

end MultiPartEvent
