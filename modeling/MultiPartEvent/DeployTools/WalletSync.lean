import MultiPartEvent.Errors
import MultiPartEvent.Js.Numbers

/-!
# Waiting for a complete sync of a wallet

`waitForCompleteSync` observes the states of a wallet and samples them by a timer.  It is a machine
here: `SyncWait` holds the variables of its closure, `stepSync` is what one event does.  The events
are the states the stream delivers, the samples of the timer, and the error or the end of the
stream, in any order; a timer that was cleared and a subscription that was closed deliver nothing.

What the machine is for is said of the list of events alone.  `CaughtUp` says it of the states
observed before a sample, `SyncedFor` of the last samples, `Settles` of the event at which the
promise settles and how.  `Waiting` is the invariant that connects the two: until then the targets
are the running maxima of the reports, and the counter is the number of last samples that caught
up.
-/

namespace MultiPartEvent

/-! ### Progress -/

/-- `SUB_WALLETS`. -/
inductive SubWallet where
  | shielded
  | unshielded
  | dust
  deriving DecidableEq

/-- The three sub-wallets, in the order progress is printed. -/
def subWallets : List SubWallet := [.shielded, .unshielded, .dust]

/-- The name of a sub-wallet. -/
def SubWallet.text : SubWallet → JsString
  | .shielded => js "shielded"
  | .unshielded => js "unshielded"
  | .dust => js "dust"

/-- Sync position of one sub-wallet. -/
structure SubWalletProgress where
  /-- Index of the last update the sub-wallet applied. -/
  applied : ℤ
  /-- Highest index the indexer has reported to the sub-wallet. -/
  highest : ℤ
  /-- The sub-wallet has heard from the indexer at least once. -/
  connected : Bool

/-- Sync position of a whole wallet. -/
abbrev WalletSyncProgress := SubWallet → SubWalletProgress

/-- Progress of a sub-wallet fed by ledger events. -/
structure EventSyncProgress where
  appliedIndex : ℤ
  highestRelevantWalletIndex : ℤ
  isConnected : Bool

/-- Progress of the unshielded sub-wallet. -/
structure UnshieldedSyncProgress where
  appliedId : ℤ
  highestTransactionId : ℤ
  isConnected : Bool

/-- The part of a wallet state the sync check reads. -/
structure SyncProgressSource where
  shielded : EventSyncProgress
  unshielded : UnshieldedSyncProgress
  dust : EventSyncProgress

/-- Progress from ledger events. -/
def fromEvents (progress : EventSyncProgress) : SubWalletProgress :=
  ⟨progress.appliedIndex, progress.highestRelevantWalletIndex, progress.isConnected⟩

/-- The sync position of every sub-wallet. -/
def syncProgressOf (state : SyncProgressSource) : WalletSyncProgress
  | .shielded => fromEvents state.shielded
  | .unshielded => ⟨state.unshielded.appliedId, state.unshielded.highestTransactionId,
      state.unshielded.isConnected⟩
  | .dust => fromEvents state.dust

/-- The higher of the reported highest index and the target. -/
def raisedTarget (progress : SubWalletProgress) (target : ℤ) : ℤ :=
  if progress.highest > target then progress.highest else target

/-- A sub-wallet heard from the indexer and applied the highest index reported so far. -/
def subWalletCaughtUp (progress : SubWalletProgress) (target : ℤ) : Bool :=
  progress.connected && raisedTarget progress target ≤ progress.applied

/-- Whole seconds or minutes and seconds.  `Math.round` rounds halves up. -/
def formatDuration (milliseconds : ℚ) : JsString :=
  let seconds := ⌊milliseconds / 1000 + 1 / 2⌋.toNat
  if seconds < 60 then decimal seconds ++ js " s"
  else if seconds % 60 = 0 then decimal (seconds / 60) ++ js " min"
  else decimal (seconds / 60) ++ js " min " ++ decimal (seconds % 60) ++ js " s"

/-- The position of one sub-wallet. -/
def formatSubWallet (progress : WalletSyncProgress) (targets : SubWallet → ℤ)
    (name : SubWallet) : JsString :=
  if (progress name).connected then
    name.text ++ js " " ++ integerText (progress name).applied ++ js "/" ++
      integerText (raisedTarget (progress name) (targets name))
  else name.text ++ js " not connected"

/-- One line on the position of a wallet. -/
def formatSyncProgress (progress : Option WalletSyncProgress) (targets : SubWallet → ℤ) :
    JsString :=
  match progress with
  | none => js "no wallet state yet"
  | some progress =>
    (js ", ").intercalate (subWallets.map (formatSubWallet progress targets)) ++
      js " (applied/highest index)"

/-- `WalletNotSyncedError`. -/
structure WalletNotSynced where
  progress : Option WalletSyncProgress
  elapsedMs : ℤ
  reason : JsString
  detail : JsString

/-- The message of a `WalletNotSyncedError`. -/
def WalletNotSynced.message (error : WalletNotSynced) : JsString :=
  js "wallet not synced after " ++ formatDuration error.elapsedMs ++ js " (" ++ error.reason ++
    js "): " ++ error.detail

/-! ### Settings -/

/-- The numeric options of `waitForCompleteSync`. -/
structure SyncWaitOptions where
  timeoutMs : Option JsNumber
  sampleMs : Option JsNumber
  stableSamples : Option JsNumber
  progressEveryMs : Option JsNumber

/-- The checked options. -/
structure SyncSettings where
  timeoutMs : ℚ
  /-- The interval of the timer. -/
  sampleMs : ℚ
  stableSamples : ℕ
  progressEveryMs : ℚ
  timeoutMs_pos : 0 < timeoutMs
  sampleMs_pos : 0 < sampleMs
  stableSamples_pos : 0 < stableSamples
  progressEveryMs_pos : 0 < progressEveryMs

/-- A finite number above zero, or the default. -/
def positive (value : Option JsNumber) (fallback : ℕ) (name : JsString) :
    Except JsError { number : ℚ // 0 < number } :=
  match (value.getD (.int fallback)).finite? with
  | none => .error (.rangeError (name ++ js " must be positive"))
  | some chosen =>
    if h : 0 < chosen then .ok ⟨chosen, h⟩
    else .error (.rangeError (name ++ js " must be positive"))

/-- Check the options; the number of samples is rounded up. -/
def syncSettings (options : SyncWaitOptions) : Except JsError SyncSettings := do
  let timeoutMs ← positive options.timeoutMs (60 * 60 * 1000) (js "timeoutMs")
  let sampleMs ← positive options.sampleMs 5000 (js "sampleMs")
  let stableSamples ← positive options.stableSamples 3 (js "stableSamples")
  let progressEveryMs ← positive options.progressEveryMs 30000 (js "progressEveryMs")
  return ⟨timeoutMs.1, sampleMs.1, ⌈stableSamples.1⌉₊, progressEveryMs.1, timeoutMs.2, sampleMs.2,
    Nat.ceil_pos.mpr stableSamples.2, progressEveryMs.2⟩

/-! ### The machine -/

/-- What a stream fails with. -/
inductive StreamError where
  | error (error : JsError)
  | other (text : JsString)

/-- `error instanceof Error ? error : new Error(String(error))`. -/
def StreamError.toError : StreamError → JsError
  | .error thrown => thrown
  | .other text => JsError.error text

/-- One event: a state, a sample of the timer, the error or the end of the stream.  The clock is
read once in a sample, and once more where the promise is rejected. -/
inductive SyncEvent (S : Type) where
  | state (state : S)
  | sample (now later : ℤ)
  | error (error : StreamError)
  | complete (now : ℤ)

/-- A completed sync. -/
structure CompleteSync (S : Type) where
  state : S
  progress : WalletSyncProgress
  elapsedMs : ℤ

/-- How the promise settles. -/
inductive Settlement (S : Type) where
  | resolved (sync : CompleteSync S)
  | notSynced (error : WalletNotSynced)
  | failed (error : JsError)

/-- The variables of one wait. -/
structure SyncWait (S : Type) where
  targets : SubWallet → ℤ
  latest : Option S
  latestProgress : Option WalletSyncProgress
  stable : ℕ
  lastLine : ℤ
  finished : Bool
  /-- The timer runs. -/
  timer : Bool
  /-- The subscription is open. -/
  subscribed : Bool
  /-- The calls of `resolve` and `reject`, in order. -/
  settlements : List (Settlement S)
  /-- The progress lines. -/
  lines : List JsString

section Machine

variable {S : Type} (source : S → SyncProgressSource) (settings : SyncSettings) (started : ℤ)

/-- The variables when the wait starts. -/
def startSync : SyncWait S where
  targets := fun _ => 0
  latest := none
  latestProgress := none
  stable := 0
  lastLine := started
  finished := false
  timer := true
  subscribed := true
  settlements := []
  lines := []

/-- `finish`: the first call clears the timer, closes the subscription and settles the promise. -/
def SyncWait.finish (wait : SyncWait S) (settlement : Settlement S) : SyncWait S :=
  if wait.finished then wait
  else
    { wait with
      finished := true
      timer := false
      subscribed := false
      settlements := wait.settlements ++ [settlement] }

/-- `observe`: a connected report raises the target, never lowers it. -/
def SyncWait.observe (wait : SyncWait S) (state : S) : SyncWait S :=
  let progress := syncProgressOf (source state)
  { wait with
    latest := some state
    latestProgress := some progress
    targets := fun name =>
      if (progress name).connected then raisedTarget (progress name) (wait.targets name)
      else wait.targets name }

/-- `notSynced`. -/
def SyncWait.notSynced (wait : SyncWait S) (now : ℤ) (reason : JsString) : Settlement S :=
  .notSynced ⟨wait.latestProgress, now - started, reason,
    formatSyncProgress wait.latestProgress wait.targets⟩

/-- Every sub-wallet of the latest progress has caught up with its target. -/
def SyncWait.caughtUp (wait : SyncWait S) : Bool :=
  wait.latestProgress.any fun progress =>
    subWallets.all fun name => subWalletCaughtUp (progress name) (wait.targets name)

/-- Why a wait times out. -/
def timedOutReason : JsString := js "timed out after " ++ formatDuration settings.timeoutMs

/-- The latest state and its progress, once enough consecutive samples have caught up. -/
def SyncWait.synced? (wait : SyncWait S) : Option (S × WalletSyncProgress) :=
  if settings.stableSamples ≤ wait.stable then
    wait.latest.bind fun state => wait.latestProgress.map fun progress => (state, progress)
  else none

/-- Count a sample: a lapse starts the count again. -/
def SyncWait.counted (wait : SyncWait S) : SyncWait S :=
  { wait with stable := if wait.caughtUp then wait.stable + 1 else 0 }

/-- What a sample does once it is counted: resolve, else time out, else print a line when one is
due. -/
def SyncWait.conclude (wait : SyncWait S) (now later : ℤ) : SyncWait S :=
  let elapsed := now - started
  match wait.synced? settings with
  | some (state, progress) => wait.finish (.resolved ⟨state, progress, elapsed⟩)
  | none =>
    if settings.timeoutMs ≤ elapsed then
      wait.finish (wait.notSynced started later (timedOutReason settings))
    else if settings.progressEveryMs ≤ (now - wait.lastLine : ℤ) then
      { wait with
        lastLine := now
        lines := wait.lines ++ [js "wallet sync        " ++
          formatSyncProgress wait.latestProgress wait.targets ++ js ", elapsed " ++
          formatDuration elapsed] }
    else wait

/-- `sample`. -/
def SyncWait.sample (wait : SyncWait S) (now later : ℤ) : SyncWait S :=
  wait.counted.conclude settings started now later

/-- Why a wait ends with the stream. -/
def stoppedReason : JsString := js "the wallet stopped before it was synced"

/-- One event: the timer delivers samples while it runs, the subscription the rest while it is
open. -/
def stepSync (wait : SyncWait S) (event : SyncEvent S) : SyncWait S :=
  match event with
  | .sample now later => if wait.timer then wait.sample settings started now later else wait
  | .state state => if wait.subscribed then wait.observe source state else wait
  | .error error => if wait.subscribed then wait.finish (.failed error.toError) else wait
  | .complete now =>
    if wait.subscribed then wait.finish (wait.notSynced started now stoppedReason) else wait

/-- The variables after a list of events. -/
def runSync (events : List (SyncEvent S)) : SyncWait S :=
  events.foldl (stepSync source settings started) (startSync started)

end Machine

/-! ### What the events say -/

section Events

variable {S : Type} (source : S → SyncProgressSource) (settings : SyncSettings) (started : ℤ)

/-- The states among the events, in order. -/
def statesOf (events : List (SyncEvent S)) : List S :=
  events.filterMap fun event =>
    match event with
    | .state state => some state
    | _ => none

/-- For each sample, in order, the states observed before it (after those observed already). -/
def seenAtSamples : (seen : List S) → List (SyncEvent S) → List (List S)
  | _, [] => []
  | seen, .state state :: rest => seenAtSamples (seen ++ [state]) rest
  | seen, .sample _ _ :: rest => seen :: seenAtSamples seen rest
  | seen, _ :: rest => seenAtSamples seen rest

/-- The last of the observed states has caught up: every sub-wallet is connected and has applied the
index the state reports and every index that a state of this wait reported while connected. -/
def CaughtUp (seen : List S) : Prop :=
  ∃ state, seen.getLast? = some state ∧ ∀ name,
    (syncProgressOf (source state) name).connected = true ∧
    0 ≤ (syncProgressOf (source state) name).applied ∧
    (syncProgressOf (source state) name).highest ≤ (syncProgressOf (source state) name).applied ∧
    ∀ earlier ∈ seen, (syncProgressOf (source earlier) name).connected = true →
      (syncProgressOf (source earlier) name).highest ≤ (syncProgressOf (source state) name).applied

/-- Each of the last `count` samples among the events, and there are as many, caught up. -/
def SyncedFor (count : ℕ) (events : List (SyncEvent S)) : Prop :=
  count ≤ (seenAtSamples [] events).length ∧
    ∀ seen ∈ (seenAtSamples [] events).reverse.take count, CaughtUp source seen

/-- The highest index reported for a sub-wallet by the observed states while connected. -/
def highestReported (seen : List S) (name : SubWallet) : ℤ :=
  seen.foldl (fun target state =>
    if (syncProgressOf (source state) name).connected then
      raisedTarget (syncProgressOf (source state) name) target
    else target) 0

/-- The rejection after the observed states. -/
def rejection (seen : List S) (now : ℤ) (reason : JsString) : Settlement S :=
  let progress := seen.getLast?.map fun state => syncProgressOf (source state)
  .notSynced ⟨progress, now - started, reason,
    formatSyncProgress progress (highestReported source seen)⟩

/-- After the events `before`, which did not settle the promise, the next event settles it so. -/
inductive Settles (before : List (SyncEvent S)) : SyncEvent S → Settlement S → Prop
  /-- A sample that is the last of enough samples that caught up resolves with the last state. -/
  | synced {now later : ℤ} {state : S} (hlast : (statesOf before).getLast? = some state)
      (hsynced : SyncedFor source settings.stableSamples (before ++ [.sample now later])) :
      Settles before (.sample now later)
        (.resolved ⟨state, syncProgressOf (source state), now - started⟩)
  /-- Any other sample rejects from the timeout on. -/
  | timedOut {now later : ℤ}
      (hnot : ¬SyncedFor source settings.stableSamples (before ++ [.sample now later]))
      (helapsed : settings.timeoutMs ≤ (now - started : ℤ)) :
      Settles before (.sample now later)
        (rejection source started (statesOf before) later (timedOutReason settings))
  /-- The error of the stream is passed on. -/
  | failed {error : StreamError} : Settles before (.error error) (.failed error.toError)
  /-- The end of the stream rejects. -/
  | stopped {now : ℤ} :
      Settles before (.complete now)
        (rejection source started (statesOf before) now stoppedReason)

/-- No event settles the promise. -/
def NoneSettles (events : List (SyncEvent S)) : Prop :=
  ∀ before event after outcome, events = before ++ event :: after →
    ¬Settles source settings started before event outcome

/-! ### One event after others -/

variable {source settings started} {events : List (SyncEvent S)}

/-- The raised target is the higher of the two. -/
lemma raisedTarget_le_iff {progress : SubWalletProgress} {target bound : ℤ} :
    raisedTarget progress target ≤ bound ↔ progress.highest ≤ bound ∧ target ≤ bound := by
  unfold raisedTarget
  split_ifs with hhigher
  · omega
  · omega

/-- The highest reported index is bounded exactly by what bounds every report. -/
lemma highestReported_le_iff {seen : List S} {name : SubWallet} {bound : ℤ} :
    highestReported source seen name ≤ bound ↔ 0 ≤ bound ∧ ∀ state ∈ seen,
      (syncProgressOf (source state) name).connected = true →
        (syncProgressOf (source state) name).highest ≤ bound := by
  unfold highestReported
  generalize (0 : ℤ) = first
  induction seen generalizing first with
  | nil => simp
  | cons state seen ih =>
    rw [List.foldl_cons, ih, List.forall_mem_cons]
    split_ifs with hconnected
    · rw [raisedTarget_le_iff]
      simp only [hconnected, true_imp_iff]
      exact ⟨fun h => ⟨h.1.2, h.1.1, h.2⟩, fun h => ⟨⟨h.2.1, h.1⟩, h.2.2⟩⟩
    · simp [hconnected]

/-- A further state raises the targets. -/
lemma highestReported_append (seen : List S) (state : S) :
    highestReported source (seen ++ [state]) = fun name =>
      if (syncProgressOf (source state) name).connected then
        raisedTarget (syncProgressOf (source state) name) (highestReported source seen name)
      else highestReported source seen name := by
  funext name
  unfold highestReported
  rw [List.foldl_append]
  rfl

/-- A further state is observed last. -/
lemma statesOf_append_state (state : S) :
    statesOf (events ++ [.state state]) = statesOf events ++ [state] := by
  unfold statesOf
  rw [List.filterMap_append]
  rfl

/-- A sample observes nothing. -/
lemma statesOf_append_sample (now later : ℤ) :
    statesOf (events ++ [.sample now later]) = statesOf events := by
  unfold statesOf
  rw [List.filterMap_append]
  exact List.append_nil _

/-- A further sample sees the states observed so far. -/
lemma seenAtSamples_append_sample (seen : List S) (now later : ℤ) :
    seenAtSamples seen (events ++ [.sample now later]) =
      seenAtSamples seen events ++ [seen ++ statesOf events] := by
  induction events generalizing seen with
  | nil => simp [seenAtSamples, statesOf]
  | cons event events ih =>
    cases event with
    | state state =>
      have hstates : statesOf (.state state :: events) = state :: statesOf events := rfl
      rw [List.cons_append, seenAtSamples, seenAtSamples, ih, hstates,
        List.append_assoc seen [state], List.singleton_append]
    | sample now' later' => exact congrArg (seen :: ·) (ih seen)
    | error error => exact ih seen
    | complete now' => exact ih seen

/-- A further state is no sample. -/
lemma seenAtSamples_append_state (seen : List S) (state : S) :
    seenAtSamples seen (events ++ [.state state]) = seenAtSamples seen events := by
  induction events generalizing seen with
  | nil => rfl
  | cons event events ih =>
    cases event with
    | state state' => exact ih _
    | sample now' later' => exact congrArg (seen :: ·) (ih seen)
    | error error => exact ih seen
    | complete now' => exact ih seen

/-- No sample is needed for none. -/
lemma syncedFor_zero : SyncedFor source 0 events := by
  unfold SyncedFor
  simp

/-- One more sample counts exactly when it caught up. -/
lemma syncedFor_succ_append_sample {count : ℕ} {now later : ℤ} :
    SyncedFor source (count + 1) (events ++ [.sample now later]) ↔
      CaughtUp source (statesOf events) ∧ SyncedFor source count events := by
  unfold SyncedFor
  rw [seenAtSamples_append_sample, List.reverse_append, List.reverse_singleton,
    List.singleton_append, List.take_succ_cons, List.forall_mem_cons, List.nil_append,
    List.length_append, List.length_singleton, Nat.add_le_add_iff_right]
  exact ⟨fun h => ⟨h.2.1, h.1, h.2.2⟩, fun h => ⟨h.2.1, h.1, h.2.2⟩⟩

/-- A further state changes no sample. -/
lemma syncedFor_append_state {count : ℕ} {state : S} :
    SyncedFor source count (events ++ [.state state]) ↔ SyncedFor source count events := by
  unfold SyncedFor
  rw [seenAtSamples_append_state]

/-! ### The invariant -/

/-- The variables after events that did not settle the promise. -/
structure Waiting (source : S → SyncProgressSource) (events : List (SyncEvent S))
    (wait : SyncWait S) : Prop where
  finished : wait.finished = false
  timer : wait.timer = true
  subscribed : wait.subscribed = true
  settlements : wait.settlements = []
  /-- The latest state is the one observed last. -/
  latest : wait.latest = (statesOf events).getLast?
  latestProgress : wait.latestProgress =
    (statesOf events).getLast?.map fun state => syncProgressOf (source state)
  /-- The targets are the highest indices reported while connected. -/
  targets : wait.targets = highestReported source (statesOf events)
  /-- The counter is the number of last samples that caught up. -/
  stable : ∀ count, count ≤ wait.stable ↔ SyncedFor source count events

/-- The variables after the promise has settled. -/
structure Settled (outcome : Settlement S) (wait : SyncWait S) : Prop where
  finished : wait.finished = true
  timer : wait.timer = false
  subscribed : wait.subscribed = false
  settlements : wait.settlements = [outcome]

/-- A wait starts with nothing observed. -/
lemma waiting_start : Waiting source [] (startSync started : SyncWait S) := by
  refine ⟨rfl, rfl, rfl, rfl, rfl, rfl, rfl, ?_⟩
  intro count
  unfold SyncedFor startSync
  simp only [seenAtSamples, List.length_nil]
  constructor
  · intro h
    exact ⟨h, by simp⟩
  · intro h
    exact h.1

/-- The first call of `finish` settles the promise. -/
lemma Waiting.settled_finish {wait : SyncWait S} (h : Waiting source events wait)
    (outcome : Settlement S) : Settled outcome (wait.finish outcome) := by
  unfold SyncWait.finish
  rw [h.finished, h.settlements]
  exact ⟨rfl, rfl, rfl, rfl⟩

/-- The rejection says what was observed. -/
lemma Waiting.notSynced_eq {wait : SyncWait S} (h : Waiting source events wait) (now : ℤ)
    (reason : JsString) :
    wait.notSynced started now reason = rejection source started (statesOf events) now reason := by
  unfold SyncWait.notSynced rejection
  rw [h.latestProgress, h.targets]

/-- The sample finds the wallet caught up exactly when the events say so. -/
lemma Waiting.caughtUp_iff {wait : SyncWait S} (h : Waiting source events wait) :
    wait.caughtUp = true ↔ CaughtUp source (statesOf events) := by
  unfold SyncWait.caughtUp CaughtUp
  rw [h.latestProgress, h.targets]
  cases hlast : (statesOf events).getLast? with
  | none => simp
  | some state =>
    have hnames : ∀ P : SubWallet → Prop, (∀ name ∈ subWallets, P name) ↔ ∀ name, P name := by
      intro P
      refine ⟨fun hall name => hall name ?_, fun hall name _ => hall name⟩
      cases name <;> simp [subWallets]
    simp only [Option.map_some, Option.any_some, List.all_eq_true, Option.some.injEq,
      exists_eq_left', hnames, subWalletCaughtUp, Bool.and_eq_true, decide_eq_true_eq,
      raisedTarget_le_iff, highestReported_le_iff]
    refine forall_congr' fun name => and_congr_right fun _ => ?_
    exact ⟨fun h => ⟨h.2.1, h.1, h.2.2⟩, fun h => ⟨h.2.1, h.1, h.2.2⟩⟩

/-! ### One step -/

/-- A state is observed and settles nothing. -/
lemma Waiting.step_state {wait : SyncWait S} (h : Waiting source events wait) (state : S) :
    Waiting source (events ++ [.state state])
      (stepSync source settings started wait (.state state)) := by
  unfold stepSync
  simp only [h.subscribed, if_true]
  refine ⟨h.finished, h.timer, h.subscribed, h.settlements, ?_, ?_, ?_, ?_⟩
  · rw [statesOf_append_state, List.getLast?_concat]
    rfl
  · rw [statesOf_append_state, List.getLast?_concat]
    rfl
  · rw [statesOf_append_state, highestReported_append, ← h.targets]
    rfl
  · intro count
    rw [syncedFor_append_state]
    exact h.stable count

/-- A counted sample is one of the samples among the events. -/
lemma Waiting.counted {wait : SyncWait S} (h : Waiting source events wait) (now later : ℤ) :
    Waiting source (events ++ [.sample now later]) wait.counted := by
  refine ⟨h.finished, h.timer, h.subscribed, h.settlements, ?_, ?_, ?_, ?_⟩
  · rw [statesOf_append_sample]
    exact h.latest
  · rw [statesOf_append_sample]
    exact h.latestProgress
  · rw [statesOf_append_sample]
    exact h.targets
  · intro count
    unfold SyncWait.counted
    cases count with
    | zero => exact iff_of_true (Nat.zero_le _) syncedFor_zero
    | succ count =>
      rw [syncedFor_succ_append_sample, ← h.caughtUp_iff, ← h.stable]
      by_cases hcaughtUp : wait.caughtUp = true
      · simp [hcaughtUp]
      · simp [hcaughtUp]

variable (settings) in
/-- Enough samples have caught up exactly when there is a state to resolve with. -/
lemma Waiting.synced?_eq {wait : SyncWait S} {now later : ℤ}
    (h : Waiting source (events ++ [.sample now later]) wait) :
    (SyncedFor source settings.stableSamples (events ++ [.sample now later]) ∧
      ∃ state, (statesOf events).getLast? = some state ∧
        wait.synced? settings = some (state, syncProgressOf (source state))) ∨
    (¬SyncedFor source settings.stableSamples (events ++ [.sample now later]) ∧
      wait.synced? settings = none) := by
  unfold SyncWait.synced?
  by_cases hsynced : SyncedFor source settings.stableSamples (events ++ [.sample now later])
  · left
    -- the last of the samples caught up, so there is a last state
    obtain ⟨count, hcount⟩ := Nat.exists_eq_succ_of_ne_zero settings.stableSamples_pos.ne'
    obtain ⟨state, hstate, -⟩ := (syncedFor_succ_append_sample.mp (hcount ▸ hsynced)).1
    refine ⟨hsynced, state, hstate, ?_⟩
    rw [if_pos ((h.stable _).mpr hsynced), h.latest, h.latestProgress, statesOf_append_sample,
      hstate]
    rfl
  · right
    exact ⟨hsynced, if_neg (mt (h.stable _).mp hsynced)⟩

/-- A step settles the promise as the event does, or keeps waiting when it does not. -/
def Steps (source : S → SyncProgressSource) (settings : SyncSettings) (started : ℤ)
    (events : List (SyncEvent S)) (event : SyncEvent S) (next : SyncWait S) : Prop :=
  (∃ outcome, Settles source settings started events event outcome ∧ Settled outcome next) ∨
    ((∀ outcome, ¬Settles source settings started events event outcome) ∧
      Waiting source (events ++ [event]) next)

/-- A sample resolves exactly after enough samples that caught up, and else rejects from the timeout
on. -/
lemma Waiting.step_sample {wait : SyncWait S} (h : Waiting source events wait) (now later : ℤ) :
    Steps source settings started events (.sample now later)
      (stepSync source settings started wait (.sample now later)) := by
  have hnext := h.counted now later
  unfold stepSync
  simp only [h.timer, if_true]
  unfold SyncWait.sample SyncWait.conclude
  rcases hnext.synced?_eq settings with
    ⟨hsynced, state, hstate, hresult⟩ | ⟨hsynced, hresult⟩
  · left
    rw [hresult]
    exact ⟨_, .synced hstate hsynced, hnext.settled_finish _⟩
  · rw [hresult]
    simp only
    by_cases helapsed : settings.timeoutMs ≤ (now - started : ℤ)
    · left
      rw [if_pos helapsed, hnext.notSynced_eq, statesOf_append_sample]
      exact ⟨_, .timedOut hsynced helapsed, hnext.settled_finish _⟩
    · right
      rw [if_neg helapsed]
      constructor
      · intro outcome hsettles
        cases hsettles with
        | synced hlast hsynced' => exact hsynced hsynced'
        | timedOut hnot helapsed' => exact helapsed helapsed'
      · split_ifs with hline
        · -- a progress line changes nothing else
          exact ⟨hnext.finished, hnext.timer, hnext.subscribed, hnext.settlements, hnext.latest,
            hnext.latestProgress, hnext.targets, hnext.stable⟩
        · exact hnext

variable (settings started) in
/-- **The step lemma.** -/
lemma Waiting.step {wait : SyncWait S} (h : Waiting source events wait) (event : SyncEvent S) :
    Steps source settings started events event (stepSync source settings started wait event) := by
  cases event with
  | state state =>
    right
    refine ⟨?_, h.step_state state⟩
    intro outcome hsettles
    cases hsettles
  | sample now later => exact h.step_sample now later
  | error error =>
    left
    refine ⟨_, .failed, ?_⟩
    unfold stepSync
    simp only [h.subscribed, if_true]
    exact h.settled_finish _
  | complete now =>
    left
    refine ⟨_, .stopped, ?_⟩
    unfold stepSync
    simp only [h.subscribed, if_true]
    rw [h.notSynced_eq]
    exact h.settled_finish _

/-- After the promise has settled nothing happens. -/
lemma Settled.step {wait : SyncWait S} {outcome : Settlement S} (h : Settled outcome wait)
    (event : SyncEvent S) : stepSync source settings started wait event = wait := by
  unfold stepSync
  cases event with
  | state state => simp [h.subscribed]
  | sample now later => simp [h.timer]
  | error error => simp [h.subscribed]
  | complete now => simp [h.subscribed]

/-! ### A whole run -/

/-- The events settle the promise at one of them, or at none. -/
def RunsTo (source : S → SyncProgressSource) (settings : SyncSettings) (started : ℤ)
    (events : List (SyncEvent S)) (wait : SyncWait S) : Prop :=
  (NoneSettles source settings started events ∧ Waiting source events wait) ∨
    ∃ before event after outcome, events = before ++ event :: after ∧
      NoneSettles source settings started before ∧
      Settles source settings started before event outcome ∧ Settled outcome wait

/-- No event settles the promise when none of the first and not the last does. -/
lemma noneSettles_append {event : SyncEvent S}
    (h : NoneSettles source settings started events)
    (hlast : ∀ outcome, ¬Settles source settings started events event outcome) :
    NoneSettles source settings started (events ++ [event]) := by
  intro before event' after outcome hsplit
  rcases List.eq_nil_or_concat after with rfl | ⟨rest, last, rfl⟩
  · obtain ⟨rfl, hevent⟩ := List.append_inj' hsplit rfl
    cases hevent
    exact hlast outcome
  · have hfront : events ++ [event] = (before ++ event' :: rest) ++ [last] := by
      rw [hsplit, List.append_assoc, List.cons_append, List.concat_eq_append]
    exact h before event' rest outcome (List.append_inj' hfront rfl).1

variable (source settings started) in
/-- **The run lemma.** -/
lemma runSync_runsTo (events : List (SyncEvent S)) :
    RunsTo source settings started events (runSync source settings started events) := by
  induction events using List.reverseRecOn with
  | nil =>
    left
    refine ⟨?_, waiting_start⟩
    intro before event after outcome hsplit
    simp at hsplit
  | append_singleton events event ih =>
    have hrun : runSync source settings started (events ++ [event]) =
        stepSync source settings started (runSync source settings started events) event := by
      unfold runSync
      rw [List.foldl_append]
      rfl
    rw [hrun]
    rcases ih with ⟨hnone, hwaiting⟩ | ⟨before, event', after, outcome, hsplit, hbefore, hsettles,
        hdone⟩
    · rcases hwaiting.step settings started event with
        ⟨outcome, hsettles, hdone⟩ | ⟨hnot, hnext⟩
      · right
        exact ⟨events, event, [], outcome, rfl, hnone, hsettles, hdone⟩
      · left
        exact ⟨noneSettles_append hnone hnot, hnext⟩
    · right
      rw [hdone.step]
      exact ⟨before, event', after ++ [event], outcome, by simp [hsplit], hbefore, hsettles, hdone⟩

/-- An event settles the promise in one way. -/
lemma Settles.unique {event : SyncEvent S} {outcome outcome' : Settlement S}
    (h : Settles source settings started events event outcome)
    (h' : Settles source settings started events event outcome') : outcome = outcome' := by
  cases h with
  | synced hlast hsynced =>
    cases h' with
    | synced hlast' hsynced' =>
      rw [hlast] at hlast'
      cases hlast'
      rfl
    | timedOut hnot helapsed => exact absurd hsynced hnot
  | timedOut hnot helapsed =>
    cases h' with
    | synced hlast' hsynced' => exact absurd hsynced' hnot
    | timedOut hnot' helapsed' => rfl
  | failed => cases h' with | failed => rfl
  | stopped => cases h' with | stopped => rfl

/-- A run that has settled stays as it is, whatever follows. -/
lemma Settled.run {outcome : Settlement S}
    (h : Settled outcome (runSync source settings started events)) (more : List (SyncEvent S)) :
    runSync source settings started (events ++ more) = runSync source settings started events := by
  have hfold : runSync source settings started (events ++ more) =
      more.foldl (stepSync source settings started) (runSync source settings started events) := by
    unfold runSync
    rw [List.foldl_append]
  rw [hfold]
  induction more with
  | nil => rfl
  | cons event more ih =>
    rw [List.foldl_cons, h.step]
    apply ih
    unfold runSync
    rw [List.foldl_append]

/-- Events that settle the promise at one of them leave it settled so. -/
lemma settled_of_settles {before : List (SyncEvent S)} {event : SyncEvent S}
    {outcome : Settlement S} (hnone : NoneSettles source settings started before)
    (hsettles : Settles source settings started before event outcome)
    (after : List (SyncEvent S)) :
    Settled outcome (runSync source settings started (before ++ event :: after)) := by
  have hrun : runSync source settings started (before ++ [event]) =
      stepSync source settings started (runSync source settings started before) event := by
    unfold runSync
    rw [List.foldl_append]
    rfl
  have hdone : Settled outcome (runSync source settings started (before ++ [event])) := by
    rcases runSync_runsTo source settings started before with
      ⟨-, hwaiting⟩ | ⟨before', event', after', outcome', hsplit, -, hsettles', -⟩
    · rcases hwaiting.step settings started event with
        ⟨outcome', hsettles', hdone⟩ | ⟨hnot, -⟩
      · rw [hrun, hsettles.unique hsettles']
        exact hdone
      · exact absurd hsettles (hnot outcome)
    · exact absurd hsettles' (hnone before' event' after' outcome' hsplit)
  rw [List.append_cons, hdone.run]
  exact hdone

/-- **A wallet is reported synced only after a complete sync.**  The promise settles at most once,
exactly at the first event that settles it and as that event does; after that no event changes
anything. -/
theorem waitForCompleteSync_settles (source : S → SyncProgressSource) (settings : SyncSettings)
    (started : ℤ) (events : List (SyncEvent S)) :
    (runSync source settings started events).settlements.length ≤ 1 ∧
    (∀ outcome, outcome ∈ (runSync source settings started events).settlements ↔
      ∃ before event after, events = before ++ event :: after ∧
        NoneSettles source settings started before ∧
        Settles source settings started before event outcome) ∧
    ∀ more, (runSync source settings started events).settlements ≠ [] →
      runSync source settings started (events ++ more) =
        runSync source settings started events := by
  rcases runSync_runsTo source settings started events with
    ⟨hnone, hwaiting⟩ | ⟨before, event, after, outcome, hsplit, hbefore, hsettles, hdone⟩
  · rw [hwaiting.settlements]
    refine ⟨Nat.zero_le 1, ?_, fun more hne => absurd rfl hne⟩
    intro outcome
    refine iff_of_false List.not_mem_nil ?_
    intro h
    obtain ⟨before, event, after, hsplit, -, hsettles⟩ := h
    exact hnone before event after outcome hsplit hsettles
  · rw [hdone.settlements]
    refine ⟨le_rfl, ?_, fun more _ => hdone.run more⟩
    intro outcome'
    rw [List.mem_singleton]
    constructor
    · intro hsame
      exact ⟨before, event, after, hsplit, hbefore, hsame ▸ hsettles⟩
    · intro h
      obtain ⟨before', event', after', hsplit', hbefore', hsettles'⟩ := h
      have hdone' := settled_of_settles hbefore' hsettles' after'
      rw [← hsplit'] at hdone'
      have hsame := hdone.settlements.symm.trans hdone'.settlements
      exact (List.singleton_inj.mp hsame).symm

end Events

end MultiPartEvent
