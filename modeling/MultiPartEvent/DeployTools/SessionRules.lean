import MultiPartEvent.DeployTools.WalletSession

/-!
# The rules of a wallet session

The calls of one session interleave, and they share its variables.  `WalletSession.Allows` says what
may happen after what: the cache is saved with the state of a complete sync and before anything is
built; what is registered was unregistered NIGHT of such a state; a fee is estimated before anything
is balanced; a recipe is signed once, and a registration, which the facade has signed, never.

The histories of a session follow these rules in every interleaving of its calls
(`session_follows`).  The invariant that carries it, `SessionInv`, adds what the variable
`#transacted` is for: while it is unset, nothing has been built.
-/

namespace MultiPartEvent

/-! ### The rules -/

/-- The call builds a transaction, or signs or pays for one. -/
def FacadeCall.builds : FacadeCall → Bool
  | .estimateRegistration _ => false
  | .waitForGeneratedDust _ _ _ => true
  | .registerNightUtxosForDustGeneration _ => true
  | .estimateTransactionFee _ _ => true
  | .balanceUnboundTransaction _ _ => true
  | .signRecipe _ => true
  | .finalizeRecipe _ => true
  | .submitTransaction _ => false
  | .stop => false

/-- The events of a wait end in a complete sync: after the settings' number of consecutive samples
at which all three wallets had caught up with everything reported, it has the last state
observed. -/
def WalletSession.SyncsAfter (w : WalletSession) (events : List (SyncEvent FacadeState))
    (sync : CompleteSync FacadeState) : Prop :=
  ∃ settings, syncSettings w.sync = .ok settings ∧
    ∃ before now later after, events = before ++ .sample now later :: after ∧
      (statesOf before).getLast? = some sync.state ∧
      SyncedFor FacadeState.progress settings.stableSamples (before ++ [.sample now later])

/-- A complete sync has had this state. -/
def SyncedWith (state : FacadeState) (history : SessionHistory) : Prop :=
  ∃ started events sync, SessionEvent.synced started events sync ∈ history ∧ sync.state = state

/-- A save is of this session's wallet and of a completely synced state, and nothing has been built
before it. -/
structure WalletSession.MaySave (w : WalletSession) (before : SessionHistory)
    (request : SaveRequest) : Prop where
  identity : request.identity = w.identity.toWalletCacheIdentity
  synced : ∃ state, SyncedWith state before ∧ state.snapshots = .ok request.snapshots
  quiet : ∀ call, .called call ∈ before → call.builds = false

/-- The coins of a registration: the unregistered NIGHT of a completely synced state, some of it. -/
structure WalletSession.MayRegister (w : WalletSession) (before : SessionHistory)
    (coins : List UnshieldedCoin) : Prop where
  synced : ∃ state, SyncedWith state before ∧
    coins = state.availableCoins.filter (UnshieldedCoin.isUnregistered w)
  some_coin : coins ≠ []

/-- What may be called after what. -/
def WalletSession.MayCall (w : WalletSession) (before : SessionHistory) : FacadeCall → Prop
  | .estimateRegistration coins => w.MayRegister before coins
  | .waitForGeneratedDust coins fee _ =>
    w.MayRegister before coins ∧ .returned (.estimateRegistration coins) (.fee fee) ∈ before
  | .registerNightUtxosForDustGeneration coins =>
    w.MayRegister before coins ∧
      ∃ fee timeoutMs, .returned (.waitForGeneratedDust coins fee timeoutMs) .none ∈ before
  | .balanceUnboundTransaction tx ttl =>
    ∃ fee, .returned (.estimateTransactionFee tx ttl) (.fee fee) ∈ before
  | .signRecipe recipe =>
    ∃ tx ttl, .returned (.balanceUnboundTransaction tx ttl) (.recipe recipe) ∈ before
  | .finalizeRecipe recipe =>
    (∃ coins, .returned (.registerNightUtxosForDustGeneration coins) (.recipe recipe) ∈ before) ∨
      ∃ unsigned, .returned (.signRecipe unsigned) (.recipe recipe) ∈ before
  | .estimateTransactionFee _ _ => True
  | .submitTransaction _ => True
  | .stop => True

/-- What may happen after what. -/
def WalletSession.Allows (w : WalletSession) (before : SessionHistory) : SessionEvent → Prop
  | .called call => w.MayCall before call
  | .returned call _ => .called call ∈ before
  | .synced _ events sync => w.SyncsAfter events sync
  | .saved request => w.MaySave before request
  | .log _ => True
  | .slept _ => True
  | .cleared => True

/-! ### The invariant -/

/-- The save among the events, if it is one. -/
def SessionEvent.save? : SessionEvent → Option SaveRequest
  | .saved request => some request
  | _ => none

/-- The last save of a history. -/
def lastSave (history : SessionHistory) : Option SaveRequest :=
  (history.filterMap SessionEvent.save?).getLast?

/-- An entry is what a save has left at its path, the part of the cache that `writeSync` wrote. -/
def LeftBy (request : SaveRequest) (entry : FileEntry) : Prop :=
  ∃ outcomes savedAt, request.now.toISOString = .ok savedAt ∧
    entry = savedFile outcomes (envelopeText request.identity savedAt request.snapshots)

/-- A path holds what the last save left there, or what it held at first. -/
def HoldsLast (path : JsString) (start files : Files) (last : Option SaveRequest) : Prop :=
  match last with
  | none => files path = start path
  | some request => ∃ entry, files path = some entry ∧ LeftBy request entry

/-- The session has no other cache file. -/
def WalletSession.UsesOnly (w : WalletSession) (path : JsString) : Prop :=
  ∀ other, w.cacheFile = some other → other = path

/-- The history follows the rules, nothing has been built while `#transacted` is unset, and the
cache file holds what was saved last. -/
structure SessionInv (w : WalletSession) (start : Files) (s : SessionState) : Prop where
  follows : Follows w.Allows s.history
  quiet : s.transacted = false → ∀ call, .called call ∈ s.history → call.builds = false
  file : ∀ path, w.UsesOnly path → HoldsLast path start s.files (lastSave s.history)

/-- A state comes after another. -/
structure Later (s s' : SessionState) : Prop where
  transacted : s.transacted = true → s'.transacted = true
  history : s.history <+: s'.history

instance : IsPreorder SessionState Later where
  refl _ := ⟨id, List.prefix_refl _⟩
  trans _ _ _ h h' := ⟨h'.transacted ∘ h.transacted, h.history.trans h'.history⟩

/-- What stays true while a session goes on. -/
def Lasting (Q : SessionState → Prop) : Prop := ∀ s t, Q s → Later s t → Q t

variable {w : WalletSession} {start : Files} {Q Q' : SessionState → Prop} {event : SessionEvent}

/-- What has happened has happened. -/
lemma lasting_mem (event : SessionEvent) : Lasting fun s => event ∈ s.history :=
  fun _ _ h hlater => hlater.history.subset h

/-- A complete sync has been. -/
lemma lasting_syncedWith (state : FacadeState) : Lasting fun s => SyncedWith state s.history := by
  intro s t h hlater
  obtain ⟨started, events, sync, hmem, hstate⟩ := h
  exact ⟨started, events, sync, hlater.history.subset hmem, hstate⟩

/-- A transaction has been started. -/
lemma lasting_transacted : Lasting fun s => s.transacted = true :=
  fun _ _ h hlater => hlater.transacted h

/-- Two lasting facts last together. -/
lemma Lasting.and (h : Lasting Q) (h' : Lasting Q') : Lasting fun s => Q s ∧ Q' s :=
  fun s t hs hlater => ⟨h s t hs.1 hlater, h' s t hs.2 hlater⟩

/-- A new session has the invariant. -/
lemma sessionInv_start (w : WalletSession) (start : Files) : SessionInv w start (.start start) where
  follows := follows_nil
  quiet := by
    intro _ call hmem
    exact absurd hmem List.not_mem_nil
  file _ _ := rfl

/-- The last save of a longer history. -/
lemma lastSave_concat (history : SessionHistory) (event : SessionEvent) :
    lastSave (history ++ [event]) = event.save?.or (lastSave history) := by
  unfold lastSave
  rw [List.filterMap_append]
  cases hsave : event.save? with
  | none => simp [hsave]
  | some request => simp [hsave]

/-! ### One step -/

section Steps

variable {α β : Type} {s s' : SessionState}

/-- A further event is allowed, and builds only if a transaction has been started. -/
structure MayHappen (w : WalletSession) (s : SessionState) (event : SessionEvent) : Prop where
  allowed : w.Allows s.history event
  started : ∀ call, event = .called call → call.builds = true → s.transacted = true

/-- After an event that may happen the invariant holds, if the cache file holds what it should. -/
lemma SessionInv.append (h : SessionInv w start s) (event : SessionEvent)
    (hmay : MayHappen w s event) (htransacted : s'.transacted = s.transacted)
    (hhistory : s'.history = s.history ++ [event])
    (hfile : ∀ path, w.UsesOnly path →
      HoldsLast path start s'.files (event.save?.or (lastSave s.history))) :
    SessionInv w start s' ∧ Later s s' := by
  refine ⟨⟨?_, ?_, ?_⟩, ?_, ?_⟩
  · rw [hhistory]
    exact follows_concat_iff.mpr ⟨h.follows, hmay.allowed⟩
  · intro hquiet call hmem
    rw [htransacted] at hquiet
    rw [hhistory, List.mem_append, List.mem_singleton] at hmem
    rcases hmem with hmem | heq
    · exact h.quiet hquiet call hmem
    · by_contra hbuilds
      rw [Bool.not_eq_false] at hbuilds
      have hstarted := hmay.started call heq.symm hbuilds
      rw [hquiet] at hstarted
      exact Bool.false_ne_true hstarted
  · intro path hpath
    rw [hhistory, lastSave_concat]
    exact hfile path hpath
  · intro hstarted
    rwa [htransacted]
  · rw [hhistory]
    exact List.prefix_append _ _

/-- An event besides a save, which leaves the files alone. -/
lemma SessionInv.append_other (h : SessionInv w start s) (event : SessionEvent)
    (hmay : MayHappen w s event) (hother : event.save? = none)
    (htransacted : s'.transacted = s.transacted) (hfiles : s'.files = s.files)
    (hhistory : s'.history = s.history ++ [event]) : SessionInv w start s' ∧ Later s s' := by
  refine h.append event hmay htransacted hhistory ?_
  intro path hpath
  rw [hother, hfiles, Option.none_or]
  exact h.file path hpath

/-- A line may be logged at any time. -/
lemma mayHappen_log (s : SessionState) (line : JsString) : MayHappen w s (.log line) :=
  ⟨trivial, fun _ heq => absurd heq (by intro h; cases h)⟩

/-- Something that may happen happens. -/
lemma movesOn_happen (event : SessionEvent) (hother : event.save? = none)
    (hmay : ∀ s, SessionInv w start s → Q s → MayHappen w s event) :
    MovesOn (SessionInv w start) Later Q (happen event) :=
  fun s hs hQ => hs.append_other event (hmay s hs hQ) hother rfl rfl rfl

/-- A line is logged. -/
lemma movesOn_log (line : JsString) : MovesOn (SessionInv w start) Later Q (sessionLog line) :=
  movesOn_happen _ rfl fun s _ _ => mayHappen_log s line

/-- Variables are assigned that no rule is about. -/
lemma movesOn_assign {change : SessionState → SessionState}
    (htransacted : ∀ s, (change s).transacted = s.transacted)
    (hfiles : ∀ s, (change s).files = s.files)
    (hhistory : ∀ s, (change s).history = s.history) :
    MovesOn (SessionInv w start) Later Q (assign change) := by
  intro s hs _
  refine ⟨⟨?_, ?_, ?_⟩, ?_, ?_⟩
  · exact (hhistory s).symm ▸ hs.follows
  · intro hquiet call hmem
    exact hs.quiet ((htransacted s).symm.trans hquiet) call ((hhistory s) ▸ hmem)
  · intro path hpath
    change HoldsLast path start (change s).files (lastSave (change s).history)
    rw [hfiles, hhistory]
    exact hs.file path hpath
  · exact fun h => (htransacted s).trans h
  · exact (hhistory s).symm ▸ List.prefix_refl _

/-- Once a transaction is started, nothing is quiet any more. -/
lemma movesOn_startTransaction : MovesOn (SessionInv w start) Later Q startTransaction := by
  intro s hs _
  refine ⟨⟨hs.follows, ?_, hs.file⟩, fun _ => rfl, List.prefix_refl _⟩
  intro hquiet
  exact absurd hquiet.symm Bool.false_ne_true

/-- A call that was made resolves, or throws. -/
lemma movesOn_receive {call : FacadeCall} {answer : SessionHistory → Except JsString α}
    {value : α → FacadeValue} (hcalled : ∀ s, Q s → .called call ∈ s.history) :
    MovesOn (SessionInv w start) Later Q (receive call answer value) := by
  intro s hs hQ
  unfold receive
  cases answer s.history with
  | error text => exact ⟨hs, refl_of Later s⟩
  | ok a =>
    exact hs.append_other (.returned call (value a))
      ⟨hcalled s hQ, fun _ heq => absurd heq (by intro h; cases h)⟩ rfl rfl rfl rfl

/-- What a call that resolves leaves in the history. -/
lemma mem_of_receive {call : FacadeCall} {answer : SessionHistory → Except JsString α}
    {value : α → FacadeValue} {a : α} (h : (receive call answer value).Returns s a s') :
    .returned call (value a) ∈ s'.history := by
  unfold Action.Returns receive at h
  cases hanswer : answer s.history with
  | error text =>
    rw [hanswer] at h
    cases h
  | ok b =>
    rw [hanswer] at h
    cases h
    exact List.mem_append_right _ (List.mem_singleton.mpr rfl)

/-- What happens is in the history. -/
lemma mem_of_happen {u : Unit} (h : (happen event).Returns s u s') : event ∈ s'.history := by
  unfold Action.Returns happen at h
  cases h
  exact List.mem_append_right _ (List.mem_singleton.mpr rfl)

/-- An action after which a process goes on: what lasts still holds, with what the action left. -/
lemma MovesOn.bind_session {x : SessionAction α} {f : α → SessionProcess β}
    {P : α → SessionState → Prop} (hx : MovesOn (SessionInv w start) Later Q x) (hQ : Lasting Q)
    (hP : ∀ s a s', SessionInv w start s → Q s → x.Returns s a s' → P a s')
    (hnext : ∀ a, Cooperates (SessionInv w start) Later (fun s => Q s ∧ P a s) (f a)) :
    Cooperates (SessionInv w start) Later Q
      ((MonadLiftT.monadLift x : SessionProcess α) >>= f) := by
  refine hx.bind_process hQ ?_
  intro a
  refine (hnext a).of_imp ?_
  intro s' _ h
  obtain ⟨s, hs, hQs, hreturns⟩ := h
  exact ⟨hQ s s' hQs (hx.kept hs hQs hreturns).2, hP s a s' hs hQs hreturns⟩

/-- An action of which the process uses nothing but its result. -/
lemma MovesOn.then_session {x : SessionAction α} {f : α → SessionProcess β}
    (hx : MovesOn (SessionInv w start) Later Q x) (hQ : Lasting Q)
    (hnext : ∀ a, Cooperates (SessionInv w start) Later Q (f a)) :
    Cooperates (SessionInv w start) Later Q ((MonadLiftT.monadLift x : SessionProcess α) >>= f) :=
  hx.bind_session hQ (P := fun _ _ => True) (fun _ _ _ _ _ _ => trivial) fun a =>
    (hnext a).of_imp fun _ _ hs => hs.1

/-- A call of the facade, and what comes after it. -/
lemma cooperates_ask {call : FacadeCall} {answer : SessionHistory → Except JsString α}
    {value : α → FacadeValue} {f : α → SessionProcess β} (hQ : Lasting Q)
    (hmay : ∀ s, SessionInv w start s → Q s → MayHappen w s (.called call))
    (hnext : ∀ a, Cooperates (SessionInv w start) Later
      (fun s => Q s ∧ .returned call (value a) ∈ s.history) (f a)) :
    Cooperates (SessionInv w start) Later Q (askFacade call answer value >>= f) := by
  unfold askFacade
  rw [Process.bind_assoc]
  refine (movesOn_happen _ rfl hmay).bind_session hQ
    (P := fun _ s => .called call ∈ s.history) (fun s a s' _ _ h => mem_of_happen h) fun _ => ?_
  refine (movesOn_receive fun s hs => hs.2).bind_session (hQ.and (lasting_mem _))
    (P := fun a s => .returned call (value a) ∈ s.history)
    (fun s a s' _ _ h => mem_of_receive h) fun a => ?_
  exact (hnext a).of_imp fun s _ hs => ⟨hs.1.1, hs.2⟩

end Steps

/-! ### The methods -/

section Methods

variable {α β : Type} {s s' : SessionState} {f : FacadeState → SessionProcess β}

/-- Lines are logged. -/
lemma SessionInv.append_lines (h : SessionInv w start s) (lines : List JsString) :
    SessionInv w start { s with history := s.history ++ lines.map .log } ∧
      Later s { s with history := s.history ++ lines.map .log } := by
  induction lines generalizing s with
  | nil =>
    rw [List.map_nil, List.append_nil]
    exact ⟨h, refl_of Later s⟩
  | cons line lines ih =>
    obtain ⟨hone, hlater⟩ := movesOn_log (Q := fun _ => True) line s h trivial
    obtain ⟨hall, hlast⟩ := ih hone
    have hsame : s.history ++ (line :: lines).map .log =
        (s.history ++ [.log line]) ++ lines.map .log := by simp
    rw [hsame]
    exact ⟨hall, trans_of Later hlater hlast⟩

/-- A wait that resolves does so after a complete sync. -/
lemma ObservedSync.syncsAfter {settings : SyncSettings} {sync : CompleteSync FacadeState}
    (observed : ObservedSync settings) (hsettings : syncSettings w.sync = .ok settings)
    (hresolved : observed.outcome = .resolved sync) : w.SyncsAfter observed.events sync := by
  refine ⟨settings, hsettings, ?_⟩
  have hsettled := observed.settled
  rcases runSync_runsTo FacadeState.progress settings observed.started observed.events with
    ⟨-, hwaiting⟩ | ⟨before, event, after, outcome, hsplit, -, hsettles, hdone⟩
  · rw [hwaiting.settlements] at hsettled
    cases hsettled
  · rw [hdone.settlements, hresolved] at hsettled
    cases hsettled
    cases hsettles with
    | synced hlast hsynced => exact ⟨before, _, _, after, hsplit, hlast, hsynced⟩

/-- A wait logs its progress and, if it resolves, has synced completely. -/
lemma movesOn_waitSynced : MovesOn (SessionInv w start) Later Q (waitSynced w) := by
  intro s hs _
  unfold waitSynced
  cases hsettings : syncSettings w.sync with
  | error error => exact ⟨hs, refl_of Later s⟩
  | ok settings =>
    obtain ⟨hlines, hlater⟩ := hs.append_lines (runSync FacadeState.progress settings
      (w.facade.wait settings s.history).started (w.facade.wait settings s.history).events).lines
    simp only
    cases houtcome : (w.facade.wait settings s.history).outcome with
    | notSynced error => exact ⟨hlines, hlater⟩
    | failed error => exact ⟨hlines, hlater⟩
    | resolved sync =>
      have hafter := (w.facade.wait settings s.history).syncsAfter hsettings houtcome
      have hmay : ∀ s', MayHappen w s' (.synced (w.facade.wait settings s.history).started
          (w.facade.wait settings s.history).events sync) := by
        intro s'
        refine ⟨hafter, ?_⟩
        intro call heq
        cases heq
      obtain ⟨hend, hlast⟩ := movesOn_happen (Q := fun _ => True) _ rfl (fun s' _ _ => hmay s') _
        hlines trivial
      exact ⟨hend, trans_of Later hlater hlast⟩

/-- What a wait that resolves leaves in the history. -/
lemma syncedWith_of_waitSynced {sync : CompleteSync FacadeState}
    (h : (waitSynced w).Returns s sync s') : SyncedWith sync.state s'.history := by
  unfold Action.Returns waitSynced at h
  cases hsettings : syncSettings w.sync with
  | error error =>
    rw [hsettings] at h
    cases h
  | ok settings =>
    rw [hsettings] at h
    simp only at h
    cases houtcome : (w.facade.wait settings s.history).outcome with
    | notSynced error =>
      rw [houtcome] at h
      cases h
    | failed error =>
      rw [houtcome] at h
      cases h
    | resolved sync' =>
      rw [houtcome] at h
      cases h
      exact ⟨_, _, sync, List.mem_append_right _ (List.mem_singleton.mpr rfl), rfl⟩

/-- A save leaves the variables alone, and is in the history when it returns; when it throws, the
cache file stays what it was. -/
lemma movesOn_saveSnapshots {path : JsString} {snapshots : WalletSnapshots}
    (hpath : w.cacheFile = some path) (hquiet : ∀ s, Q s → s.transacted = false)
    (hsynced : ∀ s, Q s → ∃ state, SyncedWith state s.history ∧ state.snapshots = .ok snapshots) :
    MovesOn (SessionInv w start) Later Q (saveSnapshots w path snapshots) := by
  intro s hs hQ
  unfold saveSnapshots
  simp only
  rcases hsave : saveWalletCache (fileSystem (w.outcomes s.history)) w.cwd path
    (saveRequest w snapshots s) s.files with ⟨result, files⟩
  cases result with
  | error error =>
    refine ⟨⟨hs.follows, hs.quiet, ?_⟩, id, List.prefix_refl _⟩
    intro path' hpath'
    have hsame : path' = path := (hpath' path hpath).symm
    have hstays := (throws_saveWalletCache hsave).1 path (temporaryPath_ne w.cwd path _ _).symm
    have hheld := hs.file path' hpath'
    unfold HoldsLast at hheld ⊢
    rw [hsame] at hheld ⊢
    simp only [hstays]
    exact hheld
  | ok u =>
    refine hs.append (.saved (saveRequest w snapshots s)) ⟨?_, ?_⟩ rfl rfl ?_
    · exact ⟨rfl, hsynced s hQ, hs.quiet (hquiet s hQ)⟩
    · intro call heq
      cases heq
    · intro path' hpath'
      have hsame : path' = path := (hpath' path hpath).symm
      obtain ⟨-, -, savedAt, htime, hfiles⟩ := returns_saveWalletCache_iff.mp hsave
      refine ⟨_, ?_, w.outcomes s.history, savedAt, htime, rfl⟩
      rw [hsame]
      simp only [hfiles, Function.update_self]

/-- The `try` block of a save. -/
lemma movesOn_trySave {path progress : JsString} {state : FacadeState}
    (hpath : w.cacheFile = some path) (hquiet : ∀ s, Q s → s.transacted = false)
    (hsynced : ∀ s, Q s → SyncedWith state s.history) :
    MovesOn (SessionInv w start) Later Q (trySave w path state progress) := by
  unfold trySave
  refine (movesOn_lift _).bind fun snapshots => ?_
  refine MovesOn.bind ?_ fun _ => ?_
  · refine (movesOn_saveSnapshots (Q := fun s => s.transacted = false ∧
      ∃ state, SyncedWith state s.history ∧ state.snapshots = .ok snapshots) hpath
      (fun s hs => hs.1) (fun s hs => hs.2)).of_imp ?_
    intro s' _ h
    obtain ⟨s, _, hQ, hreturns⟩ := h
    obtain ⟨hsnapshots, rfl⟩ := Action.returns_lift_iff.mp hreturns
    exact ⟨hquiet s hQ, state, hsynced s hQ, mapError_eq_ok_iff.mp hsnapshots⟩
  · refine MovesOn.bind (movesOn_assign ?_ ?_ ?_) fun _ => movesOn_log _
    · exact fun _ => rfl
    · exact fun _ => rfl
    · exact fun _ => rfl

/-- A save of a completely synced state, unless a transaction was started. -/
lemma movesOn_saveCache {state : FacadeState} {progress : JsString}
    (hsynced : ∀ s, Q s → SyncedWith state s.history) :
    MovesOn (SessionInv w start) Later Q (w.saveCache state progress) := by
  unfold WalletSession.saveCache
  split
  · exact movesOn_pure _
  · rename_i path hpath
    refine (movesOn_look _).bind fun skipped => ?_
    refine MovesOn.runUnless fun hrun => ?_
    refine MovesOn.catching ?_ fun error => movesOn_log _
    refine movesOn_trySave hpath ?_ ?_
    · intro s' h
      obtain ⟨s, _, _, hlook⟩ := h
      obtain ⟨hskipped, rfl⟩ := Action.returns_look_iff.mp hlook
      rw [hrun, Bool.or_eq_false_iff] at hskipped
      exact hskipped.1
    · intro s' h
      obtain ⟨s, _, hQ, hlook⟩ := h
      obtain ⟨-, rfl⟩ := Action.returns_look_iff.mp hlook
      exact hsynced s hQ

/-- What `synced` does once its wait has resolved. -/
lemma movesOn_concludeSync {first : Bool} {sync : CompleteSync FacadeState} (hQ : Lasting Q)
    (hsynced : ∀ s, Q s → SyncedWith sync.state s.history) :
    MovesOn (SessionInv w start) Later Q (concludeSync w first sync) := by
  have hlines : MovesOn (SessionInv w start) Later Q (Action.runUnless (!first) do
      assign fun s => { s with syncedOnce := true }
      sessionLog (js "wallet synced      in " ++ formatDuration sync.elapsedMs ++ js ": " ++
        ownSyncProgress sync.progress)) := by
    refine MovesOn.runUnless fun _ => ?_
    refine MovesOn.bind (movesOn_assign ?_ ?_ ?_) fun _ => movesOn_log _
    · exact fun _ => rfl
    · exact fun _ => rfl
    · exact fun _ => rfl
  unfold concludeSync
  refine hlines.bind fun _ => ?_
  refine MovesOn.bind ?_ fun _ => movesOn_pure _
  refine movesOn_saveCache ?_
  intro s' h
  obtain ⟨s, hs, hQs, hreturns⟩ := h
  exact hsynced s' (hQ s s' hQs (hlines.kept hs hQs hreturns).2)

/-- The state that `synced` resolves with is the one of its wait. -/
lemma state_of_concludeSync {first : Bool} {sync : CompleteSync FacadeState} {state : FacadeState}
    (h : (concludeSync w first sync).Returns s state s') : state = sync.state := by
  unfold concludeSync at h
  obtain ⟨_, _, _, h⟩ := Action.returns_bind_iff.mp h
  obtain ⟨_, _, _, h⟩ := Action.returns_bind_iff.mp h
  exact (Action.returns_pure_iff.mp h).1.symm

/-- The first line of `synced`. -/
lemma movesOn_announceSync : MovesOn (SessionInv w start) Later Q (announceSync w) := by
  unfold announceSync
  refine (movesOn_look _).bind fun first => ?_
  exact MovesOn.bind (MovesOn.runUnless fun _ => movesOn_log _) fun _ => movesOn_pure _

/-- A complete sync, and what comes after it. -/
lemma cooperates_synced (hQ : Lasting Q)
    (hnext : ∀ state, Cooperates (SessionInv w start) Later
      (fun s => Q s ∧ SyncedWith state s.history) (f state)) :
    Cooperates (SessionInv w start) Later Q (w.synced >>= f) := by
  unfold WalletSession.synced
  simp only [Process.bind_assoc]
  refine movesOn_announceSync.then_session hQ fun first => ?_
  refine movesOn_waitSynced.bind_session hQ (P := fun sync s => SyncedWith sync.state s.history)
    (fun s a s' _ _ h => syncedWith_of_waitSynced h) fun sync => ?_
  have hlasting := hQ.and (lasting_syncedWith sync.state)
  refine (movesOn_concludeSync hlasting fun s hs => hs.2).bind_session hlasting
    (P := fun state _ => state = sync.state)
    (fun s a s' _ _ h => state_of_concludeSync h) fun state => ?_
  refine (hnext state).of_imp ?_
  intro s _ h
  obtain ⟨⟨hs, hsynced⟩, rfl⟩ := h
  exact ⟨hs, hsynced⟩

/-- Reading the clock. -/
lemma cooperates_now {g : ℕ → SessionProcess β} (hQ : Lasting Q)
    (hnext : ∀ now, Cooperates (SessionInv w start) Later Q (g now)) :
    Cooperates (SessionInv w start) Later Q
      ((MonadLiftT.monadLift (sessionNow w) : SessionProcess ℕ) >>= g) :=
  (movesOn_look _).then_session hQ hnext

/-- Waiting for a timer. -/
lemma cooperates_sleep {milliseconds : ℕ} {g : Unit → SessionProcess β} (hQ : Lasting Q)
    (hnext : Cooperates (SessionInv w start) Later Q (g ())) :
    Cooperates (SessionInv w start) Later Q (sleep milliseconds >>= g) := by
  unfold sleep
  refine (movesOn_happen (.slept milliseconds) rfl fun s _ _ => ⟨trivial, ?_⟩).then_session hQ
    fun _ => hnext
  intro call heq
  cases heq

/-- The balances. -/
lemma cooperates_balances {g : WalletBalances → SessionProcess β} (hQ : Lasting Q)
    (hnext : ∀ balances state now, w.balancesOf state now = .ok balances →
      Cooperates (SessionInv w start) Later (fun s => Q s ∧ SyncedWith state s.history)
        (g balances)) :
    Cooperates (SessionInv w start) Later Q (w.balances >>= g) := by
  unfold WalletSession.balances
  simp only [Process.bind_assoc]
  refine cooperates_synced hQ fun state => ?_
  have hlasting := hQ.and (lasting_syncedWith state)
  refine cooperates_now hlasting fun now => ?_
  refine (movesOn_lift ((w.balancesOf state now).mapError SessionError.language)).bind_session
    hlasting (P := fun balances _ => w.balancesOf state now = .ok balances) ?_ fun balances => ?_
  · intro s balances s' _ _ h
    exact mapError_eq_ok_iff.mp (Action.returns_lift_iff.mp h).1
  · by_cases hbalances : w.balancesOf state now = .ok balances
    · exact (hnext balances state now hbalances).of_imp fun s _ hs => hs.1
    · exact fun s hs => absurd hs.2.2 hbalances

/-- What needs no transaction may be called when its own rule says so. -/
lemma mayHappen_call (call : FacadeCall) (hmay : w.MayCall s.history call)
    (hstarted : call.builds = true → s.transacted = true) : MayHappen w s (.called call) := by
  refine ⟨hmay, ?_⟩
  intro call' heq
  cases heq
  exact hstarted

/-- Waiting for a registration to be seen. -/
lemma cooperates_awaitRegistered {g : DustRegistrationReport → SessionProcess β} (hQ : Lasting Q)
    (report : DustRegistrationReport) (deadline rounds : ℕ)
    (hnext : ∀ report, Cooperates (SessionInv w start) Later Q (g report)) :
    Cooperates (SessionInv w start) Later Q (awaitRegistered w report deadline rounds >>= g) := by
  induction rounds with
  | zero => exact cooperates_throw_bind _ _
  | succ rounds ih =>
    unfold awaitRegistered
    simp only [Process.bind_assoc]
    refine cooperates_sleep hQ ?_
    refine cooperates_synced hQ fun next => Cooperates.of_imp (P := Q) ?_ fun s _ hs => hs.1
    refine cooperates_now hQ fun now => ?_
    split
    · exact cooperates_pure_bind (hnext _)
    · rw [Process.bind_assoc]
      refine cooperates_now hQ fun later => ?_
      split
      · exact cooperates_pure_bind (hnext _)
      · exact ih

/-- A registration. -/
lemma cooperates_registerForDust {g : DustRegistrationReport → SessionProcess β} (hQ : Lasting Q)
    (mode : RegistrationMode) (waitMs : Option ℕ) (rounds : ℕ)
    (hnext : ∀ report, Cooperates (SessionInv w start) Later Q (g report)) :
    Cooperates (SessionInv w start) Later Q (w.registerForDust mode waitMs rounds >>= g) := by
  unfold WalletSession.registerForDust
  simp only [Process.bind_assoc]
  refine cooperates_synced hQ fun state => ?_
  split
  · exact (cooperates_pure_bind (hnext _)).of_imp fun s _ hs => hs.1
  · rename_i hsome
    rw [Process.bind_assoc]
    have hcoins : ∀ s : SessionState, Q s ∧ SyncedWith state s.history →
        w.MayRegister s.history (state.availableCoins.filter (UnshieldedCoin.isUnregistered w)) :=
      fun s hs => ⟨⟨state, hs.2, rfl⟩, hsome⟩
    have hQ' := hQ.and (lasting_syncedWith state)
    refine cooperates_ask hQ' (fun s _ hs => mayHappen_call _ (hcoins s hs)
      fun hbuilds => absurd hbuilds Bool.false_ne_true) fun fee => ?_
    have hQfee := hQ'.and (lasting_mem (.returned (.estimateRegistration
      (state.availableCoins.filter (UnshieldedCoin.isUnregistered w))) (.fee fee)))
    cases mode with
    | estimate => exact (cooperates_pure_bind (hnext _)).of_imp fun s _ hs => hs.1.1
    | register =>
      simp only [Process.bind_assoc]
      refine movesOn_startTransaction.bind_session hQfee (P := fun _ s => s.transacted = true) ?_
        fun _ => ?_
      · intro s u s' _ _ h
        cases h
        rfl
      have hQstarted := hQfee.and lasting_transacted
      refine cooperates_ask hQstarted (fun s _ hs => mayHappen_call _
        ⟨hcoins s hs.1.1, hs.1.2⟩ fun _ => hs.2) fun _ => ?_
      refine cooperates_ask (hQstarted.and (lasting_mem _)) (fun s _ hs => mayHappen_call _
        ⟨hcoins s hs.1.1.1, _, _, hs.2⟩ fun _ => hs.1.2) fun recipe => ?_
      refine cooperates_ask ((hQstarted.and (lasting_mem _)).and (lasting_mem _))
        (fun s _ hs => mayHappen_call _ (.inl ⟨_, hs.2⟩) fun _ => hs.1.1.2) fun finalized => ?_
      refine Cooperates.of_imp (P := Q) ?_ fun s _ hs => hs.1.1.1.1.1.1
      refine cooperates_ask hQ (fun s _ _ => mayHappen_call (.submitTransaction finalized) trivial
        fun hbuilds => absurd hbuilds Bool.false_ne_true) fun transactionId => ?_
      refine Cooperates.of_imp (P := Q) ?_ fun s _ hs => hs.1
      refine (movesOn_log _).then_session hQ fun _ => ?_
      refine cooperates_now hQ fun now => ?_
      exact cooperates_awaitRegistered hQ _ _ _ hnext

/-- A try to estimate the fee, once it was called. -/
lemma movesOn_tryEstimate {tx : Transaction} {ttl : JsDate}
    (hcalled : ∀ s, Q s → .called (.estimateTransactionFee tx ttl) ∈ s.history) :
    MovesOn (SessionInv w start) Later Q (tryEstimate w tx ttl) := by
  unfold tryEstimate
  refine MovesOn.catching ?_ fun error => ?_
  · exact (movesOn_receive hcalled).bind fun _ => movesOn_pure _
  · split
    · split
      · exact movesOn_pure _
      · exact movesOn_fail _
    · exact movesOn_fail _

/-- A try that returns `true` has estimated the fee. -/
lemma estimated_of_tryEstimate {tx : Transaction} {ttl : JsDate}
    (h : (tryEstimate w tx ttl).Returns s true s') :
    ∃ fee, .returned (.estimateTransactionFee tx ttl) (.fee fee) ∈ s'.history := by
  unfold tryEstimate at h
  rcases Action.returns_catching_iff.mp h with hbody | ⟨error, _, _, hhandler⟩
  · obtain ⟨fee, middle, hreceive, hpure⟩ := Action.returns_bind_iff.mp hbody
    obtain ⟨-, rfl⟩ := Action.returns_pure_iff.mp hpure
    exact ⟨fee, mem_of_receive hreceive⟩
  · split at hhandler
    · split at hhandler
      · exact absurd (Action.returns_pure_iff.mp hhandler).1 Bool.false_ne_true
      · exact absurd hhandler Action.not_returns_fail
    · exact absurd hhandler Action.not_returns_fail

/-- The fee of the transaction has been estimated. -/
def Estimated (tx : Transaction) (ttl : JsDate) (s : SessionState) : Prop :=
  ∃ fee, .returned (.estimateTransactionFee tx ttl) (.fee fee) ∈ s.history

/-- An estimate stays known. -/
lemma lasting_estimated (tx : Transaction) (ttl : JsDate) : Lasting (Estimated tx ttl) := by
  intro s t h hlater
  obtain ⟨fee, hmem⟩ := h
  exact ⟨fee, hlater.history.subset hmem⟩

/-- Waiting for the fee: the process goes on only once it has been estimated. -/
lemma cooperates_awaitFeeBudget {g : Unit → SessionProcess β} (hQ : Lasting Q)
    (hstarted : ∀ s, Q s → s.transacted = true) (tx : Transaction) (ttl : JsDate) (deadline : ℕ)
    (announced : Bool) (rounds : ℕ)
    (hnext : Cooperates (SessionInv w start) Later (fun s => Q s ∧ Estimated tx ttl s) (g ())) :
    Cooperates (SessionInv w start) Later Q
      (awaitFeeBudget w tx ttl deadline announced rounds >>= g) := by
  induction rounds generalizing announced with
  | zero => exact cooperates_throw_bind _ _
  | succ rounds ih =>
    unfold awaitFeeBudget
    simp only [Process.bind_assoc]
    refine (movesOn_happen _ rfl fun s _ hs => mayHappen_call (.estimateTransactionFee tx ttl)
      trivial fun _ => hstarted s hs).bind_session hQ
      (P := fun _ s => .called (.estimateTransactionFee tx ttl) ∈ s.history)
      (fun s u s' _ _ h => mem_of_happen h) fun _ => ?_
    refine (movesOn_tryEstimate fun s hs => hs.2).bind_session (hQ.and (lasting_mem _))
      (P := fun enough s => enough = true → Estimated tx ttl s) ?_ fun enough => ?_
    · intro s enough s' _ _ h henough
      exact estimated_of_tryEstimate (henough ▸ h)
    · split
      · rename_i henough
        exact (cooperates_pure_bind hnext).of_imp fun s _ hs => ⟨hs.1.1, hs.2 henough⟩
      · refine Cooperates.of_imp (P := Q) ?_ fun s _ hs => hs.1.1
        simp only [Process.bind_assoc]
        refine (MovesOn.runUnless fun _ => movesOn_log _).then_session hQ fun _ => ?_
        refine cooperates_now hQ fun now => ?_
        split
        · exact cooperates_throw_bind _ _
        · rw [Process.bind_assoc]
          exact cooperates_sleep hQ (ih true)

/-- Balancing a transaction. -/
lemma cooperates_balanceTx {g : Transaction → SessionProcess β} (hQ : Lasting Q) (tx : Transaction)
    (ttl : Option JsDate) (rounds : ℕ)
    (hnext : ∀ balanced, Cooperates (SessionInv w start) Later Q (g balanced)) :
    Cooperates (SessionInv w start) Later Q (w.balanceTx tx ttl rounds >>= g) := by
  unfold WalletSession.balanceTx WalletSession.waitForFeeBudget
  simp only [Process.bind_assoc]
  refine movesOn_startTransaction.bind_session hQ (P := fun _ s => s.transacted = true) ?_
    fun _ => ?_
  · intro s u s' _ _ h
    cases h
    rfl
  have hQstarted := hQ.and lasting_transacted
  refine cooperates_now hQstarted fun now => ?_
  refine cooperates_now hQstarted fun later => ?_
  refine cooperates_awaitFeeBudget hQstarted (fun s hs => hs.2) _ _ _ _ _ ?_
  have hQfee := hQstarted.and (lasting_estimated tx (ttl.getD (.ofMilliseconds (now + 1200000))))
  refine cooperates_ask hQfee (fun s _ hs => mayHappen_call _ hs.2 fun _ => hs.1.2) fun recipe => ?_
  refine cooperates_ask (hQfee.and (lasting_mem _)) (fun s _ hs => mayHappen_call _ ⟨_, _, hs.2⟩
    fun _ => hs.1.1.2) fun signed => ?_
  refine cooperates_ask ((hQfee.and (lasting_mem _)).and (lasting_mem _)) (fun s _ hs =>
    mayHappen_call _ (.inr ⟨_, hs.2⟩) fun _ => hs.1.1.1.2) fun balanced => ?_
  exact (hnext balanced).of_imp fun s _ hs => hs.1.1.1.1.1

/-- Submitting a transaction. -/
lemma cooperates_submitTx {g : JsString → SessionProcess β} (hQ : Lasting Q) (tx : Transaction)
    (hnext : ∀ id, Cooperates (SessionInv w start) Later Q (g id)) :
    Cooperates (SessionInv w start) Later Q (w.submitTx tx >>= g) := by
  refine cooperates_ask hQ (fun s _ _ => mayHappen_call (.submitTransaction tx) trivial
    fun hbuilds => absurd hbuilds Bool.false_ne_true) fun id => ?_
  exact (hnext id).of_imp fun s _ hs => hs.1

/-- Closing a session. -/
lemma cooperates_close {g : Unit → SessionProcess β} (hQ : Lasting Q)
    (hnext : Cooperates (SessionInv w start) Later Q (g ())) :
    Cooperates (SessionInv w start) Later Q (w.close >>= g) := by
  unfold WalletSession.close
  simp only [Process.bind_assoc]
  refine (movesOn_happen _ rfl fun s _ _ => mayHappen_call .stop trivial
    fun hbuilds => absurd hbuilds Bool.false_ne_true).bind_session hQ
    (P := fun _ s => .called .stop ∈ s.history) (fun s u s' _ _ h => mem_of_happen h) fun _ => ?_
  have hcleared : MovesOn (SessionInv w start) Later (fun _ => True) (happen .cleared) := by
    refine movesOn_happen _ rfl fun s _ _ => ⟨trivial, ?_⟩
    intro call heq
    cases heq
  refine (MovesOn.ending (movesOn_receive fun s hs => hs.2) hcleared).then_session
    (hQ.and (lasting_mem _)) fun _ => hnext.of_imp fun s _ hs => hs.1

/-- Every call of a session keeps its rules. -/
lemma cooperates_call (call : SessionCall) (rounds : ℕ) :
    Cooperates (SessionInv w start) Later (fun _ => True) (call.process w rounds) := by
  have hlasting : Lasting fun _ => True := fun _ _ _ _ => trivial
  have hpure : Cooperates (SessionInv w start) Later (fun _ => True)
      (pure () : SessionProcess Unit) := Process.obeys_pure ()
  cases call with
  | synced => exact cooperates_synced hlasting fun state => hpure.of_imp fun _ _ _ => trivial
  | balances =>
    exact cooperates_balances hlasting fun _ _ _ _ => hpure.of_imp fun _ _ _ => trivial
  | registerForDust mode waitMs =>
    exact cooperates_registerForDust hlasting mode waitMs rounds fun _ => hpure
  | balanceTx tx ttl => exact cooperates_balanceTx hlasting tx ttl rounds fun _ => hpure
  | submitTx tx => exact cooperates_submitTx hlasting tx fun _ => hpure
  | close => exact cooperates_close hlasting hpure

end Methods

/-! ### Every interleaving -/

/-- The calls of a session before their first step. -/
def sessionCalls {ι : Type} (w : WalletSession) (files : Files) (calls : ι → SessionCall)
    (rounds : ι → ℕ) : Together ι SessionError SessionState Unit :=
  .start (fun i => (calls i).process w (rounds i)) (.start files)

/-- The invariant holds in every interleaving of the calls of a session. -/
lemma sessionInv_of_reaches {ι : Type} [DecidableEq ι] {calls : ι → SessionCall}
    {rounds : ι → ℕ} {s : Together ι SessionError SessionState Unit}
    {allowed : Together ι SessionError SessionState Unit → ι → Prop}
    (h : Reaches (interleavedStep (allShared SessionState)) allowed
      (sessionCalls w start calls rounds) s) :
    SessionInv w start s.shared :=
  (invariant_of_cooperates (fun i => cooperates_call (calls i) (rounds i))
    (sessionInv_start w start) (fun _ => trivial) h).1

/-- **The rules of a session hold in every interleaving of its calls.** -/
theorem session_follows {ι : Type} [DecidableEq ι] (w : WalletSession) (files : Files)
    (calls : ι → SessionCall) (rounds : ι → ℕ) (s : Together ι SessionError SessionState Unit)
    (h : Reaches (interleavedStep (allShared SessionState)) (fun _ _ => True)
      (sessionCalls w files calls rounds) s) :
    Follows w.Allows s.shared.history :=
  (sessionInv_of_reaches h).follows

/-! ### Two calls -/

/-- A wallet without coins that has heard from the indexer and applied everything. -/
def sampleFacadeState : FacadeState where
  progress := ⟨⟨4, 4, true⟩, ⟨2, 2, true⟩, ⟨4, 4, true⟩⟩
  availableCoins := []
  unshieldedBalances := .empty
  shieldedBalances := .empty
  dustBalance := fun _ => 7
  serializeShielded := .ok (js "{}")
  serializeUnshielded := .ok (js "[3]")
  serializeDust := .ok (js "{}")

/-- One sample of the caught-up wallet settles a wait for which one is enough. -/
lemma sampleSync_settled {settings : SyncSettings} (h : settings.stableSamples = 1) :
    (runSync FacadeState.progress settings 0 [.state sampleFacadeState, .sample 0 0]).settlements =
      [.resolved ⟨sampleFacadeState, syncProgressOf sampleFacadeState.progress, 0⟩] := by
  obtain ⟨timeoutMs, sampleMs, stableSamples, progressEveryMs, _, _, _, _⟩ := settings
  cases h
  rfl

/-- A wait that one sample settles, when one is enough. -/
def sampleSync (settings : SyncSettings) : ObservedSync settings :=
  if h : settings.stableSamples = 1 then ⟨0, _, _, sampleSync_settled h⟩
  else ⟨0, [.complete 0], .notSynced ⟨none, 0, stoppedReason, formatSyncProgress none fun _ => 0⟩,
    rfl⟩

/-- A transaction without intents. -/
def balancedSample : Transaction := ⟨.empty, .empty, none, [js "id"], [1]⟩

/-- A wallet SDK that answers every call. -/
def sampleFacade : WalletFacade where
  wait := fun settings _ => sampleSync settings
  estimateRegistration := fun _ _ => .ok 3
  waitForGeneratedDust := fun _ _ _ _ => .ok ()
  registerNightUtxosForDustGeneration := fun _ _ => .ok (js "recipe")
  estimateTransactionFee := fun _ _ _ => .ok 3
  balanceUnboundTransaction := fun _ _ _ => .ok (js "recipe")
  signRecipe := fun _ _ => .ok (js "signed")
  finalizeRecipe := fun _ _ => .ok (balancedSample)
  submitTransaction := fun _ _ => .ok (js "id")
  stop := fun _ => .ok ()

/-- A session with that wallet and a cache file. -/
def sampleSession : WalletSession where
  identity := ⟨sampleSave.identity, js "shielded"⟩
  facade := sampleFacade
  sync := ⟨none, none, some (.int 1), none⟩
  feeWaitMs := 1000
  cacheFile := some (js "cache.json")
  nativeToken := js "night"
  cwd := js "/home/me"
  pid := 7
  now := fun _ => 1790164800000
  random := fun _ => [0, 1, 2, 3, 4, 5]
  outcomes := fun _ => quietOutcomes 4096

/-- A complete sync, and a transaction to balance. -/
def twoCalls (balances : Bool) : SessionCall :=
  if balances then .balanceTx balancedSample none else .synced

/-- The two calls after some steps. -/
def callsAfter (steps : List Bool) : Option (Together Bool SessionError SessionState Unit) :=
  steps.foldlM (fun s i => if True then interleavedStep (allShared SessionState) s i else none)
    (sessionCalls sampleSession (fun _ => none) twoCalls fun _ => 1)


/-- The session syncs and saves the cache, and then balances a transaction. -/
theorem session_follows_two_calls :
    ∃ s, Reaches (interleavedStep (allShared SessionState)) (fun _ _ => True)
        (sessionCalls sampleSession (fun _ => none) twoCalls fun _ => 1) s ∧
      (lastSave s.shared.history).isSome = true ∧ s.shared.transacted = true ∧
      Follows sampleSession.Allows s.shared.history := by
  have hrun : ((callsAfter (List.replicate 3 false ++ List.replicate 11 true)).map fun s =>
      ((lastSave s.shared.history).isSome, s.shared.transacted)) = some (true, true) := by
    decide +kernel
  obtain ⟨s, hs, hfacts⟩ := Option.map_eq_some_iff.mp hrun
  rw [Prod.mk.injEq] at hfacts
  have hreached := Reaches.of_actions _ .start hs
  exact ⟨s, hreached, hfacts.1, hfacts.2, session_follows sampleSession _ twoCalls _ s hreached⟩

end MultiPartEvent
