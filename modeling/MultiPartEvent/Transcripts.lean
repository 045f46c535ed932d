import MultiPartEvent.Errors

/-!
# Programs that are executed in one place and replayed in another

A `Program` asks a store for answers, updates it and emits events.  Executing it on a state records
a transcript: what was asked with the answers, the updates and the events.  The transcript is then
replayed on another state, which may have moved on: every answer must still be the store's, and the
updates are made there.

A transcript may come from anywhere.  `Program.Records` says that the program makes it for some
answers, which is all that a proof of the execution shows.  Replaying such a transcript is then the
same as executing the program afresh (`run_eq_ok_iff`): whatever state it was recorded on, it takes
effect exactly where a fresh execution would have recorded the same, and with the same effect.
-/

namespace MultiPartEvent

/-- A store: its answers to queries, and its updates, which may fail. -/
structure Store (σ Q A U R : Type) where
  answer : σ → Q → A
  update : U → σ → Except R σ

/-- A program over a store. -/
inductive Program (Q A U E R : Type) where
  | done
  /-- A failed assertion. -/
  | reject (reason : R)
  | ask (query : Q) (next : A → Program Q A U E R)
  | act (update : U) (next : Program Q A U E R)
  | emit (event : E) (next : Program Q A U E R)

/-- An entry of a transcript. -/
inductive Recorded (Q A U E : Type) where
  | asked (query : Q) (answer : A)
  | updated (update : U)
  | emitted (event : E)

/-- What an execution or a replay leaves: the state, and the events in order. -/
structure Effect (σ E : Type) where
  state : σ
  events : List E

section Programs

variable {σ Q A U E R : Type}

/-- The effect with an earlier event. -/
def Effect.after (effect : Effect σ E) (earlier : List E) : Effect σ E :=
  ⟨effect.state, earlier ++ effect.events⟩

/-- One program after the other. -/
def Program.seq (first second : Program Q A U E R) :
    Program Q A U E R :=
  match first with
  | .done => second
  | .reject reason => .reject reason
  | .ask query next => .ask query fun answer => (next answer).seq second
  | .act update next => .act update (next.seq second)
  | .emit event next => .emit event (next.seq second)

/-- Execute a program on a state: the transcript and the effect, or why it is rejected. -/
def Program.run (store : Store σ Q A U R) :
    Program Q A U E R → σ →
      Except R (List (Recorded Q A U E) × Effect σ E)
  | .done, s => .ok ([], ⟨s, []⟩)
  | .reject reason, _ => .error reason
  | .ask query next, s => do
    let (entries, effect) ← (next (store.answer s query)).run store s
    return (.asked query (store.answer s query) :: entries, effect)
  | .act update next, s => do
    let (entries, effect) ← next.run store (← store.update update s)
    return (.updated update :: entries, effect)
  | .emit event next, s => do
    let (entries, effect) ← next.run store s
    return (.emitted event :: entries, effect.after [event])

/-- Replay a transcript on a state: its effect, unless an answer is no longer the store's or an
update fails. -/
def replay [DecidableEq A] (store : Store σ Q A U R) :
    List (Recorded Q A U E) → σ → Option (Effect σ E)
  | [], s => some ⟨s, []⟩
  | .asked query answer :: entries, s =>
    if store.answer s query = answer then replay store entries s else none
  | .updated update :: entries, s =>
    match store.update update s with
    | .error _ => none
    | .ok s' => replay store entries s'
  | .emitted event :: entries, s =>
    (replay store entries s).map fun effect => effect.after [event]

/-- The program makes the transcript, for the answers that are in it. -/
inductive Program.Records :
    Program Q A U E R → List (Recorded Q A U E) → Prop
  | done : Records .done []
  | asked {query answer next entries} (rest : (next answer).Records entries) :
      Records (.ask query next) (.asked query answer :: entries)
  | updated {update next entries} (rest : next.Records entries) :
      Records (.act update next) (.updated update :: entries)
  | emitted {event next entries} (rest : next.Records entries) :
      Records (.emit event next) (.emitted event :: entries)

variable {store : Store σ Q A U R}
  {program first second : Program Q A U E R}
  {entries others : List (Recorded Q A U E)} {s s' : σ}
  {effect : Effect σ E}

/-- What an execution records, the program makes. -/
lemma Program.records_of_run (h : program.run store s = .ok (entries, effect)) :
    program.Records entries := by
  induction program generalizing s entries effect with
  | done =>
    cases h
    exact .done
  | reject reason => cases h
  | ask query next ih =>
    obtain ⟨⟨rest, effect'⟩, hnext, heq⟩ := bind_eq_ok_iff.mp h
    cases heq
    exact .asked (ih _ hnext)
  | act update next ih =>
    obtain ⟨s', hupdate, hrest⟩ := bind_eq_ok_iff.mp h
    obtain ⟨⟨rest, effect'⟩, hnext, heq⟩ := bind_eq_ok_iff.mp hrest
    cases heq
    exact .updated (ih hnext)
  | emit event next ih =>
    obtain ⟨⟨rest, effect'⟩, hnext, heq⟩ := bind_eq_ok_iff.mp h
    cases heq
    exact .emitted (ih hnext)

variable [DecidableEq A]

/-- A transcript replays on the state it was recorded on, with the effect of the execution. -/
lemma Program.replay_of_run (h : program.run store s = .ok (entries, effect)) :
    replay store entries s = some effect := by
  induction program generalizing s entries effect with
  | done =>
    cases h
    rfl
  | reject reason => cases h
  | ask query next ih =>
    obtain ⟨⟨rest, effect'⟩, hnext, heq⟩ := bind_eq_ok_iff.mp h
    cases heq
    rw [replay, if_pos rfl, ih _ hnext]
  | act update next ih =>
    obtain ⟨s', hupdate, hrest⟩ := bind_eq_ok_iff.mp h
    obtain ⟨⟨rest, effect'⟩, hnext, heq⟩ := bind_eq_ok_iff.mp hrest
    cases heq
    rw [replay, hupdate]
    exact ih hnext
  | emit event next ih =>
    obtain ⟨⟨rest, effect'⟩, hnext, heq⟩ := bind_eq_ok_iff.mp h
    cases heq
    rw [replay, ih hnext]
    rfl

/-- A transcript that the program makes replays only where the program records it. -/
lemma Program.run_of_replay (hrecords : program.Records entries)
    (h : replay store entries s = some effect) : program.run store s = .ok (entries, effect) := by
  induction hrecords generalizing s effect with
  | done =>
    cases h
    rfl
  | asked _ ih =>
    rw [replay] at h
    split_ifs at h with hanswer
    rw [Program.run, hanswer, ih h]
    rfl
  | updated _ ih =>
    rw [replay] at h
    rw [Program.run]
    cases hupdate : store.update _ s with
    | error reason =>
      rw [hupdate] at h
      cases h
    | ok s' =>
      rw [hupdate] at h
      exact bind_eq_ok_iff.mpr ⟨s', rfl, bind_eq_ok_iff.mpr ⟨_, ih h, rfl⟩⟩
  | emitted _ ih =>
    rw [replay] at h
    obtain ⟨effect', hreplay, rfl⟩ := Option.map_eq_some_iff.mp h
    rw [Program.run, ih hreplay]
    rfl

/-- **Replaying is executing afresh.**  A transcript that the program makes takes effect on a state
exactly when an execution on that state records it, and then the effects are the same. -/
theorem Program.run_eq_ok_iff : program.run store s = .ok (entries, effect) ↔
    program.Records entries ∧ replay store entries s = some effect :=
  ⟨fun h => ⟨records_of_run h, replay_of_run h⟩, fun h => run_of_replay h.1 h.2⟩

end Programs

end MultiPartEvent
