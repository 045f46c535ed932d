import MultiPartEvent.Contracts
import MultiPartEvent.DeployTools.Tool
import MultiPartEvent.DeployTools.VerifiedRecords

/-!
# Runs of the deploy tools

The tools open one wallet, wait for its sync, run one command and close the wallet.  This course is
an automaton over what happens in a run (`WalletPhase`); what no run does has no transition in it.

Every run keeps to it and ends with the wallet closed or never opened, with one exception.  The
flags are checked before the wallet is opened, but the timeout of the proofs is read after its sync,
where nothing closes the wallet any more (`wallet_closed`).

A command that proves checks its key build before anything else that can be seen: unless the build
is the committed one, nothing is asked of the network and no wallet is opened (`key_build_checked`).
-/

namespace MultiPartEvent

/-! ### The course of a wallet -/

/-- How far the wallet of a run has come. -/
inductive WalletPhase where
  | unopened
  | opened
  /-- The sync is complete. -/
  | ready
  | closed
  deriving DecidableEq

/-- What may happen next, and the phase after it.  Balances and registrations, which wait for a sync
of their own, are for an opened wallet, the steps of a chain command for one that is ready. -/
def WalletPhase.next : WalletPhase → ToolEvent → Option WalletPhase
  | phase, .out _ | phase, .err _ | phase, .printed _ => some phase
  | .unopened, .latestBlock => some .unopened
  | .unopened, .opened _ => some .opened
  | .opened, .synced => some .ready
  | .opened, .balances | .opened, .registered _ => some .opened
  | .ready, .command _ => some .ready
  | .opened, .closed | .ready, .closed => some .closed
  | _, _ => none

/-- The phase after all that has happened, if it was a course of a wallet. -/
def walletPhase (events : ToolHistory) : Option WalletPhase :=
  events.foldlM WalletPhase.next .unopened

/-- The phase after one more event. -/
lemma walletPhase_concat (events : ToolHistory) (event : ToolEvent) :
    walletPhase (events ++ [event]) = (walletPhase events).bind (WalletPhase.next · event) := by
  rw [walletPhase, List.foldlM_append]
  refine congrArg _ (funext fun phase => ?_)
  rw [List.foldlM_cons]
  exact bind_pure _

/-- The steps of a command leave a wallet ready. -/
lemma walletPhase_commands {events : ToolHistory} (h : walletPhase events = some .ready)
    (steps : List CommandEvent) :
    walletPhase (events ++ steps.map .command) = some .ready := by
  induction steps using List.reverseRecOn with
  | nil => simpa using h
  | append_singleton steps step ih =>
    rw [List.map_append, ← List.append_assoc, List.map_singleton, walletPhase_concat, ih]
    rfl

/-- A run has brought its wallet to a phase, through a complete sync or not. -/
structure At (phase : WalletPhase) (synced : Bool) (s : ToolState) : Prop where
  phase : walletPhase s.events = some phase
  synced : .synced ∈ s.events ↔ synced = true

/-- The event is a complete sync. -/
def ToolEvent.isSync : ToolEvent → Bool
  | .synced => true
  | _ => false

/-- One more event brings a run to the next phase of its wallet. -/
lemma At.happens {phase phase' : WalletPhase} {synced : Bool} {s : ToolState} {event : ToolEvent}
    (h : At phase synced s) (hnext : phase.next event = some phase') :
    At phase' (synced || event.isSync) { s with events := s.events ++ [event] } := by
  refine ⟨?_, ?_⟩
  · rw [walletPhase_concat, h.phase]
    exact hnext
  · rw [List.mem_append, h.synced, List.mem_singleton, Bool.or_eq_true]
    cases event <;> simp [ToolEvent.isSync]

/-! ### Steps -/

variable {α : Type} {phase phase' : WalletPhase} {synced : Bool} {E : ToolError → ToolState → Prop}

/-- Something happens. -/
lemma meets_happens {event : ToolEvent} (hnext : phase.next event = some phase') :
    Action.Meets (At phase synced) (happens event)
      (fun _ => At phase' (synced || event.isSync)) E :=
  ⟨fun s u s' hs h => by cases h; exact hs.happens hnext, fun s err s' _ h => by cases h⟩

/-- A line is logged. -/
lemma meets_toolLog (json : Bool) (line : JsString) :
    Action.Meets (At phase synced) (toolLog json line) (fun _ => At phase synced) E := by
  have h : phase.next (if json then .err line else .out line) = some phase := by
    cases json <;> cases phase <;> rfl
  refine (meets_happens h).weaken (fun _ hs => hs) (fun _ s hs => ?_) fun _ _ herr => herr
  cases json <;> simpa [ToolEvent.isSync] using hs

/-- Lines are logged. -/
lemma meets_toolLogAll (json : Bool) (lines : List JsString) :
    Action.Meets (At phase synced) (toolLogAll json lines) (fun _ => At phase synced) E := by
  induction lines with
  | nil => exact Action.meets_pure () fun _ hs => hs
  | cons line lines ih => exact (meets_toolLog json line).bind fun _ => ih

/-- Flags are checked. -/
lemma meets_checkFlags {P : ToolState → Prop} {Q : α → ToolState → Prop}
    {result : Except UsageError α} (hQ : ∀ a s, result = .ok a → P s → Q a s)
    (hE : ∀ err s, result = .error err → P s → E (.usage err) s) :
    Action.Meets P (checkFlags result) Q E := by
  apply Action.meets_lift
  · intro a s ha
    exact hQ a s (mapError_eq_ok_iff.mp ha)
  · intro err s herr
    cases result with
    | ok a => cases herr
    | error cause =>
      cases herr
      exact hE cause s rfl

/-- The wallet is asked; what it throws is an error of the session. -/
lemma meets_askWallet {P : ToolState → Prop} {answer : ToolHistory → Except SessionError α}
    (hE : ∀ err s, P s → E (.session err) s) :
    Action.Meets P (askWallet answer) (fun _ => P) E := by
  constructor
  · intro s a s' hs h
    have heq : s = s' := congrArg Prod.snd h
    exact heq ▸ hs
  · intro s err s' hs h
    have heq : s = s' := congrArg Prod.snd h
    have hfirst : (answer s.events).mapError ToolError.session = .error err := congrArg Prod.fst h
    cases hanswer : answer s.events with
    | ok a =>
      rw [hanswer] at hfirst
      cases hfirst
    | error cause =>
      rw [hanswer] at hfirst
      cases hfirst
      exact heq ▸ hE cause s hs

/-- No error of the language is a usage error. -/
lemma jsError_kind_ne (error : JsError) : error.failureKind ≠ .usage := by
  cases error <;> simp [JsError.failureKind]

/-- No error of a file is a usage error. -/
lemma fileError_kind_ne (error : FileError) : error.failureKind ≠ .usage := by
  cases error with
  | language error => exact jsError_kind_ne error
  | system code => simp [FileError.failureKind]
  | secretFileError path detail => simp [FileError.failureKind]
  | walletCacheError path detail => simp [FileError.failureKind]

/-- No error of a session is a usage error. -/
lemma session_kind_ne (error : SessionError) : (ToolError.session error).kind ≠ .usage := by
  cases error with
  | language error => exact jsError_kind_ne error
  | file error => exact fileError_kind_ne error
  | notSynced error => simp [ToolError.kind]
  | facade text => simp [ToolError.kind]

/-- No error of a chain command is a usage error. -/
lemma command_kind_ne (error : CommandError) (notFound : Bool) :
    (ToolError.command error notFound).kind ≠ .usage := by
  cases error with
  | commandFailure message => simp [ToolError.kind]
  | file error => exact fileError_kind_ne error
  | library error =>
    cases notFound with
    | false => exact jsError_kind_ne error
    | true => simp [ToolError.kind]

/-! ### Before the wallet is opened -/

/-- Reading files leaves the state alone. -/
lemma keeps_readFiles {P : ToolState → Prop} (world : ToolWorld)
    (read : FileView → Except ArtifactError α) : Action.Keeps P (readFiles world read) :=
  fun _ hs => hs

/-- Loading a module leaves the state alone. -/
lemma keeps_loadGeneratedModule {P : ToolState → Prop} (world : ToolWorld)
    (profile : ToolProfile) : Action.Keeps P (loadGeneratedModule world profile) := by
  intro s hs
  unfold loadGeneratedModule
  dsimp only
  split_ifs <;> exact hs

/-- Checking flags leaves the state alone. -/
lemma keeps_checkFlags {P : ToolState → Prop} (result : Except UsageError α) :
    Action.Keeps P (checkFlags result) := Action.keeps_lift _

/-- The flags and files of a chain command are checked without a trace. -/
lemma keeps_chainCommand {P : ToolState → Prop} (world : ToolWorld) (name : ChainCommandName)
    (options : Options) (profile : ToolProfile) :
    Action.Keeps P (chainCommand world name options profile) := by
  have hpublish : ∀ out ttlSeconds address secretFile generated, Action.Keeps P
      (publishCommand world options profile out ttlSeconds address secretFile generated) := by
    intro out ttlSeconds address secretFile generated
    refine (keeps_readFiles world _).bind fun _ => (Action.keeps_failIf _ _).bind fun _ => ?_
    exact (keeps_checkFlags _).bind fun _ => (keeps_checkFlags _).bind fun _ => Action.keeps_pure _
  have hpin : ∀ out ttlSeconds address secretFile generated, Action.Keeps P
      (pinCommand options profile out ttlSeconds address secretFile generated) := by
    intro out ttlSeconds address secretFile generated
    exact (Action.keeps_failIf _ _).bind fun _ => (keeps_checkFlags _).bind fun _ =>
      Action.keeps_pure _
  unfold chainCommand
  refine (keeps_checkFlags _).bind fun _ => (keeps_checkFlags _).bind fun _ =>
    (keeps_checkFlags _).bind fun _ => ?_
  cases name with
  | deploy =>
    refine (keeps_checkFlags _).bind fun _ => (keeps_checkFlags _).bind fun _ => ?_
    exact (keeps_loadGeneratedModule world profile).bind fun _ =>
      (keeps_readFiles world _).bind fun _ => Action.keeps_pure _
  | publish =>
    refine (keeps_checkFlags _).bind fun _ => (keeps_checkFlags _).bind fun _ => ?_
    exact (keeps_loadGeneratedModule world profile).bind fun _ => hpublish _ _ _ _ _
  | pin =>
    refine (keeps_checkFlags _).bind fun _ => (keeps_checkFlags _).bind fun _ => ?_
    exact (keeps_loadGeneratedModule world profile).bind fun _ => hpin _ _ _ _ _

/-- The prover is checked without a trace. -/
lemma keeps_checkProver {P : ToolState → Prop} (world : ToolWorld) (options : Options)
    (profile : ToolProfile) : Action.Keeps P (checkProver world options profile) :=
  (keeps_readFiles world _).bind fun _ => (keeps_checkFlags _).bind fun _ => Action.keeps_pure _

/-- The indexer is asked before the wallet is opened. -/
lemma meets_latestParameters (world : ToolWorld) (hE : ∀ err s, At .unopened synced s → E err s) :
    Action.Meets (At .unopened synced) (latestParameters world) (fun _ => At .unopened synced)
      E := by
  have hkept : Action.Meets (At .unopened synced) (latestParameters world)
      (fun _ => At .unopened synced) fun _ => At .unopened synced := by
    unfold latestParameters
    refine (Action.keeps_look _).meets.bind fun _ => (Action.Meets.bind (Q := fun _ =>
      At .unopened synced) ?_ fun _ => ?_)
    · have hnext : WalletPhase.unopened.next .latestBlock = some .unopened := rfl
      refine (meets_happens hnext).weaken (fun _ hs => hs) (fun _ s hs => ?_) fun _ _ herr => herr
      simpa [ToolEvent.isSync] using hs
    · refine (Action.keeps_lift _).meets.bind fun block => ?_
      cases block.ledgerParametersHex with
      | none => exact (Action.keeps_fail _).meets
      | some hex => exact (Action.keeps_lift _).meets
  exact hkept.weaken (fun _ hs => hs) (fun _ _ hs => hs) hE

/-- Opening the wallet. -/
lemma meets_openWallet {world : ToolWorld} {options : Options} {endpoints : Endpoints}
    {proofServerUrl dustParameters : JsString}
    (hE : ∀ err s, At .unopened synced s → E err s) :
    Action.Meets (At .unopened synced)
      (openWallet world options endpoints proofServerUrl dustParameters)
      (fun _ => At .opened synced) E := by
  unfold openWallet
  refine Action.Meets.bind (meets_checkFlags (fun _ _ _ hs => hs) fun _ s _ hs => hE _ s hs)
    fun settings => Action.Meets.bind (meets_askWallet fun _ s hs => hE _ s hs) fun wallet => ?_
  refine Action.Meets.bind (Q := fun _ => At .opened synced) ?_ fun _ =>
    Action.meets_pure _ fun _ hs => hs
  have hnext : WalletPhase.unopened.next (.opened settings) = some .opened := rfl
  refine (meets_happens hnext).weaken (fun _ hs => hs) (fun _ s hs => ?_) fun _ _ herr => herr
  simpa [ToolEvent.isSync] using hs

/-- Closing the wallet. -/
lemma meets_closeWallet {wallet : ToolWallet} (hphase : phase.next .closed = some .closed)
    (hE : ∀ err s, At .closed synced s → E (.session err) s) :
    Action.Meets (At phase synced) (closeWallet wallet) (fun _ => At .closed synced) E := by
  refine Action.Meets.bind (Q := fun _ => At .closed synced) ?_ fun _ => meets_askWallet hE
  refine (meets_happens hphase).weaken (fun _ hs => hs) (fun _ s hs => ?_) fun _ _ herr => herr
  simpa [ToolEvent.isSync] using hs

/-! ### Runs -/

/-- The timeout of the proofs is refused. -/
def RefusesTimeout (options : Options) : Prop :=
  ∃ error, options.integer (js "proof-timeout-seconds") (.int 900) maxSafeNumber 1 = .error error

/-- How a run ends: no wallet was opened, or it was closed, or it was left ready by the refusal of
the timeout. -/
inductive Ended (options : Options) (s : ToolState) : Prop where
  | unopened (h : At .unopened false s)
  | closed (h : At .closed false s)
  | used (h : At .closed true s) (htimeout : ¬RefusesTimeout options)
  | left (h : At .ready true s) (htimeout : RefusesTimeout options)

/-- How a run ends that throws: a usage error is thrown before a wallet is opened, or leaves it. -/
structure Thrown (options : Options) (error : ToolError) (s : ToolState) : Prop where
  ended : Ended options s
  usage : error.kind = .usage → At .unopened false s ∨ At .ready true s

variable {options : Options}

/-- An error that is thrown before a wallet is opened. -/
lemma thrown_unopened (error : ToolError) (s : ToolState) (h : At .unopened false s) :
    Thrown options error s := ⟨.unopened h, fun _ => Or.inl h⟩

/-- Waiting for the sync of an opened wallet, which is closed when that throws. -/
lemma meets_awaitSynced (wallet : ToolWallet) :
    Action.Meets (At .opened false) (awaitSynced wallet) (fun _ => At .ready true)
      (Thrown options) := by
  have hclosed : ∀ error s, At .closed false s → Thrown options (.session error) s :=
    fun error s h => ⟨.closed h, fun husage => absurd husage (session_kind_ne error)⟩
  refine Action.Meets.catching (E := fun error s => At .opened false s ∧
    ∃ cause, error = .session cause) ?_ fun error => Action.Meets.of_fact (fun _ hs => hs.2) ?_
  · refine Action.Meets.bind (Q := fun _ => At .opened false)
      (meets_askWallet fun cause s hs => ⟨hs, cause, rfl⟩) fun _ => ?_
    exact meets_happens rfl
  · rintro ⟨cause, rfl⟩
    refine Action.Meets.bind (Q := fun _ => At .closed false) ?_ fun _ =>
      Action.meets_fail _ fun s h => hclosed cause s h
    exact (meets_closeWallet rfl hclosed).weaken (fun _ hs => hs.1) (fun _ _ h => h)
      fun _ _ h => h

/-- Opening what a chain command needs: its wallet is ready and the timeout accepted, or it has been
closed, or the timeout was refused and it was left. -/
lemma meets_openChainServices (world : ToolWorld) (profile : ToolProfile) (proves json : Bool) :
    Action.Meets (At .unopened false) (openChainServices world options profile proves json)
      (fun _ s => At .ready true s ∧ ¬RefusesTimeout options) (Thrown options) := by
  have hkeeps : ∀ {α : Type} {x : Tool α}, Action.Keeps (At .unopened false) x →
      Action.Meets (At .unopened false) x (fun _ => At .unopened false) (Thrown options) :=
    fun h => h.meets.weaken (fun _ hs => hs) (fun _ _ hs => hs) thrown_unopened
  unfold openChainServices
  refine (hkeeps (keeps_checkFlags _)).bind fun endpoints =>
    (hkeeps (keeps_checkFlags _)).bind fun proofServer =>
    (hkeeps ((keeps_checkProver world options profile).runUnless _)).bind fun _ =>
    (meets_latestParameters world thrown_unopened).bind fun parameters =>
    (meets_toolLog json _).bind fun _ => (meets_openWallet thrown_unopened).bind fun wallet =>
    (meets_awaitSynced wallet).bind fun _ => Action.Meets.bind (Q := fun _ => At .ready true) ?_
      fun services => Action.Meets.bind (Q := fun _ s => At .ready true s ∧
        ¬RefusesTimeout options) ?_ fun timeout => Action.meets_pure _ fun _ hs => hs
  · exact Action.meets_look _ fun _ hs => hs
  · apply meets_checkFlags
    · rintro timeout s haccepted hready
      refine ⟨hready, ?_⟩
      rintro ⟨error, hrefused⟩
      rw [haccepted] at hrefused
      cases hrefused
    · intro error s hrefused hready
      exact ⟨.left hready ⟨error, hrefused⟩, fun _ => Or.inr hready⟩

/-- A chain command runs while the wallet is ready. -/
lemma meets_runCommand {world : ToolWorld} {command : Command α}
    (hE : ∀ error notFound s, At .ready true s → E (.command error notFound) s) :
    Action.Meets (At .ready true) (runCommand world command) (fun _ => At .ready true) E := by
  have hafter : ∀ s, At .ready true s → At .ready true (runCommand world command s).2 := by
    intro s hs
    refine ⟨walletPhase_commands hs.phase _, ?_⟩
    change _ ∈ s.events ++ _ ↔ _
    rw [List.mem_append, hs.synced]
    simp
  constructor
  · intro s a s' hs h
    have hleft := hafter s hs
    rw [h] at hleft
    exact hleft
  · intro s err s' hs h
    have hleft := hafter s hs
    rw [h] at hleft
    have hfirst : (command ⟨s.files, []⟩).1.mapError (fun error => ToolError.command error
        (world.notFound (command ⟨s.files, []⟩).2.history)) = .error err := congrArg Prod.fst h
    cases hresult : (command ⟨s.files, []⟩).1 with
    | ok a =>
      rw [hresult] at hfirst
      cases hfirst
    | error cause =>
      rw [hresult] at hfirst
      cases hfirst
      exact hE cause _ s' hleft

/-- `deploy`, `publish` and `pin` end with the wallet closed, or leave it. -/
lemma meets_runChainCommand (world : ToolWorld) (name : ChainCommandName) (json : Bool) :
    Action.Meets (At .unopened false) (runChainCommand world name options json)
      (fun _ s => At .closed true s ∧ ¬RefusesTimeout options) (Thrown options) := by
  unfold runChainCommand
  refine Action.Meets.bind (Q := fun _ => At .unopened false)
    ((keeps_checkFlags _).meets.weaken (fun _ hs => hs) (fun _ _ hs => hs) thrown_unopened)
    fun profile => Action.Meets.bind (Q := fun _ => At .unopened false)
      ((keeps_chainCommand world name options profile).meets.weaken (fun _ hs => hs)
        (fun _ _ hs => hs) thrown_unopened) fun command =>
      (meets_openChainServices world profile _ json).bind fun opened => ?_
  refine Action.Meets.of_fact (fun _ hs => hs.2) fun htimeout => ?_
  have hthrown : ∀ error s, error.kind ≠ FailureKind.usage → At .closed true s →
      Thrown options error s :=
    fun error s hkind h => ⟨.used h htimeout, fun husage => absurd husage hkind⟩
  have hclose : Action.Meets (At .ready true) (closeWallet opened.2) (fun _ => At .closed true)
      (Thrown options) :=
    meets_closeWallet rfl fun cause s h => hthrown _ s (session_kind_ne cause) h
  refine Action.Meets.ending (Q := fun _ => At .ready true)
    (E := fun error s => At .ready true s ∧ error.kind ≠ .usage) ?_
    (fun status => hclose.weaken (fun _ hs => hs) (fun _ s h => ⟨h, htimeout⟩) fun _ _ h => h)
    fun error => Action.Meets.of_fact (fun _ hs => hs.2) fun hkind =>
      hclose.weaken (fun _ hs => hs.1) (fun _ s h => hthrown error s hkind h) fun _ _ h => h
  refine Action.Meets.bind (Q := fun _ => At .ready true) ((meets_runCommand
    fun error notFound s h => ⟨h, command_kind_ne error notFound⟩).weaken
      (fun _ hs => hs.1) (fun _ _ hs => hs) fun _ _ h => h) fun record =>
    Action.Meets.bind (Q := fun _ => At .ready true) ?_ fun _ => Action.meets_pure _ fun _ hs => hs
  cases json with
  | false => exact Action.meets_pure () fun _ hs => hs
  | true => exact meets_happens rfl

/-! ### Funding -/

/-- A step of the wallet that needs a sync. -/
lemma meets_whenSynced (json : Bool) (step : ToolHistory → Except SessionError α) :
    Action.Meets (At .opened false) (whenSynced json step) (fun _ => At .opened false)
      fun error s => At .opened false s ∧ error.kind ≠ .usage := by
  refine Action.Meets.catching (E := fun error s => At .opened false s ∧
    ∃ cause, error = .session cause) (meets_askWallet fun cause s hs => ⟨hs, cause, rfl⟩)
    fun error => Action.Meets.of_fact (fun _ hs => hs.2) ?_
  rintro ⟨cause, rfl⟩
  have hrethrown : Action.Meets
      (fun s => At .opened false s ∧ ∃ other, ToolError.session cause = .session other)
      (Action.fail (.session cause) : Tool α) (fun _ => At .opened false)
      fun error s => At .opened false s ∧ error.kind ≠ .usage :=
    Action.meets_fail _ fun _ hs => ⟨hs.1, session_kind_ne cause⟩
  cases cause with
  | notSynced cause =>
    refine Action.Meets.bind (Q := fun _ => At .opened false) ((meets_toolLog json _).weaken
      (fun _ hs => hs.1) (fun _ _ hs => hs) fun _ _ h => h) fun _ => (meets_toolLog json _).bind
      fun _ => Action.meets_fail _ fun _ hs => ⟨hs, command_kind_ne _ _⟩
  | language error => exact hrethrown
  | file error => exact hrethrown
  | facade text => exact hrethrown

/-- `funding` works with an opened wallet. -/
lemma meets_runFunding (wallet : ToolWallet) (mode : Option RegistrationMode) (json : Bool) :
    Action.Meets (At .opened false) (runFunding wallet mode json) (fun _ => At .opened false)
      fun error s => At .opened false s ∧ error.kind ≠ .usage := by
  have hhappens : ∀ {event : ToolEvent}, WalletPhase.opened.next event = some .opened →
      event.isSync = false → Action.Meets (At .opened false) (happens event)
        (fun _ => At .opened false) fun error s => At .opened false s ∧ error.kind ≠ .usage := by
    intro event hnext hsync
    refine (meets_happens hnext).weaken (fun _ hs => hs) (fun _ s hs => ?_) fun _ _ h => h
    simpa [hsync] using hs
  unfold runFunding
  refine (meets_toolLogAll json _).bind fun _ => (meets_whenSynced json _).bind fun balances =>
    (hhappens rfl rfl).bind fun _ => (meets_toolLogAll json _).bind fun _ => ?_
  cases mode with
  | none => exact Action.meets_pure _ fun _ hs => hs
  | some mode =>
    exact (meets_whenSynced json _).bind fun report => (hhappens rfl rfl).bind fun _ =>
      (meets_toolLog json _).bind fun _ => Action.meets_pure _ fun _ hs => hs

/-- `funding` ends with the wallet closed. -/
lemma meets_runFundingCommand (world : ToolWorld) (json : Bool) :
    Action.Meets (At .unopened false) (runFundingCommand world options json)
      (fun _ => At .closed false) (Thrown options) := by
  have hkeeps : ∀ {α : Type} (result : Except UsageError α),
      Action.Meets (At .unopened false) (checkFlags result) (fun _ => At .unopened false)
        (Thrown options) :=
    fun _ => (keeps_checkFlags _).meets.weaken (fun _ hs => hs) (fun _ _ hs => hs) thrown_unopened
  have hthrown : ∀ error s, error.kind ≠ FailureKind.usage → At .closed false s →
      Thrown options error s :=
    fun error s hkind h => ⟨.closed h, fun husage => absurd husage hkind⟩
  unfold runFundingCommand
  refine (hkeeps _).bind fun mode => (hkeeps _).bind fun endpoints => (hkeeps _).bind
    fun proofServer => (meets_latestParameters world thrown_unopened).bind fun parameters =>
    (meets_openWallet thrown_unopened).bind fun wallet => ?_
  have hclose : Action.Meets (At .opened false) (closeWallet wallet) (fun _ => At .closed false)
      (Thrown options) :=
    meets_closeWallet rfl fun cause s h => hthrown _ s (session_kind_ne cause) h
  refine Action.Meets.ending (Q := fun _ => At .opened false)
    (E := fun error s => At .opened false s ∧ error.kind ≠ .usage) ?_
    (fun status => hclose) fun error => Action.Meets.of_fact (fun _ hs => hs.2) fun hkind =>
      hclose.weaken (fun _ hs => hs.1) (fun _ s h => hthrown error s hkind h) fun _ _ h => h
  refine (meets_runFunding wallet mode json).bind fun report =>
    Action.Meets.bind (Q := fun _ => At .opened false) ?_ fun _ =>
      Action.meets_pure _ fun _ hs => hs
  cases json with
  | false => exact Action.meets_pure () fun _ hs => hs
  | true =>
    have hnext : WalletPhase.opened.next (.printed report) = some .opened := rfl
    refine (meets_happens hnext).weaken (fun _ hs => hs) (fun _ s hs => ?_) fun _ _ h => h
    simpa [ToolEvent.isSync] using hs

/-! ### The whole run -/

/-- What a parsed command line asks for ends as said. -/
lemma meets_runParsed (world : ToolWorld) (parsed : ParsedArgs) (env : JsString → Option JsString) :
    Action.Meets (At .unopened false) (runParsed world parsed env)
      (fun _ => Ended (toolOptions parsed env)) (Thrown (toolOptions parsed env)) := by
  have hprints : ∀ {event : ToolEvent} (status : ℕ),
      WalletPhase.unopened.next event = some .unopened → event.isSync = false →
      Action.Meets (At .unopened false) (do happens event; return status)
        (fun _ => Ended (toolOptions parsed env)) (Thrown (toolOptions parsed env)) := by
    intro event status hnext hsync
    refine Action.Meets.bind (meets_happens hnext) fun _ => Action.meets_pure _ fun s hs => ?_
    exact .unopened (by simpa [hsync] using hs)
  unfold runParsed
  dsimp only
  split_ifs with hhelp
  · exact hprints 0 rfl rfl
  · cases parsed.command with
    | none => exact hprints 2 rfl rfl
    | some command =>
      dsimp only
      split_ifs with hfunding
      · exact (meets_runFundingCommand world _).weaken (fun _ hs => hs) (fun _ _ h => .closed h)
          fun _ _ h => h
      · cases chainCommandName? command with
        | none => exact Action.meets_fail _ fun s hs => thrown_unopened _ s hs
        | some name =>
          exact (meets_runChainCommand world name _).weaken (fun _ hs => hs)
            (fun _ _ h => .used h.1 h.2) fun _ _ h => h

/-- Lines on stderr change no phase. -/
lemma At.errLines {phase : WalletPhase} {synced : Bool} {s : ToolState} (h : At phase synced s)
    (lines : List JsString) :
    At phase synced { s with events := s.events ++ lines.map ToolEvent.err } := by
  induction lines using List.reverseRecOn with
  | nil => simpa using h
  | append_singleton lines line ih =>
    have hnext : phase.next (.err line) = some phase := by cases phase <;> rfl
    have hmore := ih.happens hnext
    rw [List.map_append, ← List.append_assoc]
    simpa [ToolEvent.isSync] using hmore

/-- An end stays one when lines on stderr follow. -/
lemma Ended.errLines {s : ToolState} (h : Ended options s) (lines : List JsString) :
    Ended options { s with events := s.events ++ lines.map ToolEvent.err } := by
  cases h with
  | unopened h => exact .unopened (h.errLines lines)
  | closed h => exact .closed (h.errLines lines)
  | used h htimeout => exact .used (h.errLines lines) htimeout
  | left h htimeout => exact .left (h.errLines lines) htimeout

/-- The phase in which a run ends. -/
lemma Ended.exists_phase {s : ToolState} (h : Ended options s) :
    ∃ phase, walletPhase s.events = some phase ∧ phase ≠ .opened ∧
      (phase = .ready ↔ .synced ∈ s.events ∧ RefusesTimeout options) := by
  cases h with
  | unopened h => exact ⟨.unopened, h.phase, by simp, by simp [h.synced]⟩
  | closed h => exact ⟨.closed, h.phase, by simp, by simp [h.synced]⟩
  | used h htimeout => exact ⟨.closed, h.phase, by simp, by simp [htimeout]⟩
  | left h htimeout => exact ⟨.ready, h.phase, by simp, by simp [h.synced, htimeout]⟩

/-- A command line that parses is run as parsed. -/
lemma tryTool_eq_runParsed {world : ToolWorld} {argv : List JsString}
    {env : JsString → Option JsString} {parsed : ParsedArgs}
    (hparsed : parseArgs argv toolFlags = .ok parsed) :
    tryTool world argv env = runParsed world parsed env := by
  funext s
  rw [tryTool, hparsed]
  rfl

/-- A run that returns ends with the status it returns. -/
lemma toolMain_of_returns {world : ToolWorld} {argv : List JsString}
    {env : JsString → Option JsString} {s s' : ToolState} {status : ℕ}
    (h : (tryTool world argv env).Returns s status s') :
    toolMain world argv env s = (status, s') := by
  rw [toolMain, show tryTool world argv env s = (.ok status, s') from h]

/-- A run that throws ends with the status of its error and the lines that report it. -/
lemma toolMain_of_throws {world : ToolWorld} {argv : List JsString}
    {env : JsString → Option JsString} {s s' : ToolState} {error : ToolError}
    (h : (tryTool world argv env).Throws s error s') :
    toolMain world argv env s = (error.kind.status,
      { s' with events := s'.events ++
          (error.kind.lines (error.message world)).map ToolEvent.err }) := by
  rw [toolMain, show tryTool world argv env s = (.error error, s') from h]

/-- A run has not opened anything at its start. -/
lemma at_start (files : CommandFiles) : At .unopened false ⟨files, []⟩ := ⟨rfl, by simp⟩

/-- **The wallet is closed.**  In every run of the tools the wallet is opened at most once, it is
worked with only while it is open, by a chain command only after its complete sync, and it is closed
at the end if it was opened; with one exception: it is left open exactly when its sync was complete
and the timeout of the proofs is then refused.  This is also the only flag that is refused once a
wallet is open. -/
theorem wallet_closed (world : ToolWorld) (argv : List JsString) (env : JsString → Option JsString)
    (files : CommandFiles) :
    ∃ phase, walletPhase (toolMain world argv env ⟨files, []⟩).2.events = some phase ∧
      phase ≠ .opened ∧
      (phase = .ready ↔ .synced ∈ (toolMain world argv env ⟨files, []⟩).2.events ∧
        ∃ parsed, parseArgs argv toolFlags = .ok parsed ∧
          RefusesTimeout (toolOptions parsed env)) ∧
      ∀ error s, (tryTool world argv env).Throws ⟨files, []⟩ error s → error.kind = .usage →
        phase = .unopened ∨ phase = .ready := by
  cases hparsed : parseArgs argv toolFlags with
  | error cause =>
    have h : (tryTool world argv env).Throws ⟨files, []⟩ (.usage cause) ⟨files, []⟩ := by
      rw [tryTool, hparsed]
      rfl
    have hend := (at_start files).errLines ((ToolError.usage cause).kind.lines
      ((ToolError.usage cause).message world))
    rw [toolMain_of_throws h]
    exact ⟨.unopened, hend.phase, by simp, by simp, fun _ _ _ _ => Or.inl rfl⟩
  | ok parsed =>
    have hmeets := meets_runParsed world parsed env
    rw [← tryTool_eq_runParsed hparsed] at hmeets
    rcases Action.returns_or_throws (tryTool world argv env) ⟨files, []⟩ with
      ⟨status, s, h⟩ | ⟨error, s, h⟩
    · obtain ⟨phase, hphase, hopened, hleft⟩ :=
        (hmeets.returns _ status s (at_start files) h).exists_phase
      rw [toolMain_of_returns h]
      refine ⟨phase, hphase, hopened, ?_, fun error s' hthrows => absurd hthrows h.not_throws⟩
      simpa using hleft
    · have hended := hmeets.throws _ error s (at_start files) h
      obtain ⟨phase, hphase, hopened, hleft⟩ :=
        (hended.ended.errLines (error.kind.lines (error.message world))).exists_phase
      rw [toolMain_of_throws h]
      refine ⟨phase, hphase, hopened, by simpa using hleft, ?_⟩
      intro error' s' hthrows husage
      obtain ⟨rfl, rfl⟩ : error' = error ∧ s' = s := by
        have heq := hthrows.symm.trans h
        simp only [Prod.mk.injEq, Except.error.injEq] at heq
        exact heq
      rcases hended.usage husage with hat | hat
      · have hlast := (hat.errLines (error'.kind.lines (error'.message world))).phase
        exact Or.inl (Option.some.inj (hlast.symm.trans hphase)).symm
      · have hlast := (hat.errLines (error'.kind.lines (error'.message world))).phase
        exact Or.inr (Option.some.inj (hlast.symm.trans hphase)).symm

/-! ### Before a proof is asked for -/

/-- A chain command is run as it is asked for. -/
lemma tryTool_chain {world : ToolWorld} {argv : List JsString} {env : JsString → Option JsString}
    {parsed : ParsedArgs} {name : ChainCommandName}
    (hparsed : parseArgs argv toolFlags = .ok parsed)
    (hhelp : (toolOptions parsed env).has (js "help") = false)
    (hname : parsed.command.bind chainCommandName? = some name) :
    tryTool world argv env = runChainCommand world name (toolOptions parsed env)
      ((toolOptions parsed env).has (js "json")) := by
  obtain ⟨text, htext, hcommand⟩ := Option.bind_eq_some_iff.mp hname
  have hnotHelp : ¬((toolOptions parsed env).has (js "help") = true ∨
      parsed.command = some (js "help")) := by
    rw [hhelp, htext]
    rintro (h | h)
    · cases h
    · have hnone : chainCommandName? (js "help") = none := rfl
      rw [Option.some.inj h, hnone] at hcommand
      cases hcommand
  have hnotFunding : text ≠ js "funding" := by
    rintro rfl
    have hnone : chainCommandName? (js "funding") = none := rfl
    rw [hnone] at hcommand
    cases hcommand
  rw [tryTool_eq_runParsed hparsed, runParsed, if_neg hnotHelp]
  simp only [htext, if_neg hnotFunding, hcommand]

/-- The key build that the options name is the committed one, in the files at a point of a run. -/
def BuildMatches (world : ToolWorld) (options : Options) (past : ToolHistory) : Prop :=
  ∃ profile, profileOf world.root (options.string (js "example")) = .ok profile ∧
    KeyBuildMatches world.artifacts (world.files past) profile
      ((options.string (js "zk-dir")).getD profile.zkDir)

section KeyBuild

variable {world : ToolWorld} {profile : ToolProfile} {past : ToolHistory} {s s' : ToolState}

/-- Flags that are checked are as they are. -/
lemma checkFlags_returns {result : Except UsageError α} {a : α}
    (h : (checkFlags result).Returns s a s') : result = .ok a ∧ s = s' := by
  obtain ⟨hresult, heq⟩ := Action.returns_lift_iff.mp h
  exact ⟨mapError_eq_ok_iff.mp hresult, heq⟩

/-- The checks of a prover that have passed. -/
lemma keyBuildMatches_of_checkProver {u : Unit}
    (h : (checkProver world options profile).Returns s u s') :
    KeyBuildMatches world.artifacts (world.files s.events) profile
      ((options.string (js "zk-dir")).getD profile.zkDir) := by
  obtain ⟨⟨⟩, _, hchecked, -⟩ := Action.returns_bind_iff.mp h
  exact checkArtifacts_eq_ok_iff.mp (mapError_eq_ok_iff.mp (congrArg Prod.fst hchecked))

/-- **Proving services are opened on a checked build.**  Unless the key build is the committed one,
opening them throws, and nothing has happened: the indexer has not been asked and no wallet has been
opened. -/
lemma checked_openChainServices
    (hprofile : profileOf world.root (options.string (js "example")) = .ok profile) (json : Bool) :
    Action.Meets (fun s => s.events = past) (openChainServices world options profile true json)
      (fun _ _ => BuildMatches world options past)
      fun _ s => s.events = past ∨ BuildMatches world options past := by
  have hkeeps : ∀ {α : Type} {x : Tool α}, Action.Keeps (fun s => s.events = past) x →
      Action.Meets (fun s => s.events = past) x (fun _ s => s.events = past)
        fun _ s => s.events = past ∨ BuildMatches world options past :=
    fun h => h.meets.weaken (fun _ hs => hs) (fun _ _ hs => hs) fun _ _ hs => Or.inl hs
  unfold openChainServices
  refine (hkeeps (keeps_checkFlags _)).bind fun endpoints =>
    (hkeeps (keeps_checkFlags _)).bind fun proofServer =>
    Action.Meets.bind (Q := fun _ _ => BuildMatches world options past) ⟨?_, ?_⟩ fun _ =>
    ⟨fun _ _ _ hbuild _ => hbuild, fun _ _ _ hbuild _ => Or.inr hbuild⟩
  · intro s u s' hs hreturns
    exact ⟨profile, hprofile, hs ▸ keyBuildMatches_of_checkProver hreturns⟩
  · intro s err s' hs hthrows
    have hkeeps : Action.Keeps (fun s => s.events = past)
        (Action.runUnless (!true) (checkProver world options profile)) :=
      (keeps_checkProver world options profile).runUnless _
    exact Or.inl (hkeeps.of_throws hs hthrows)

/-- A chain command that proves checks its key build before anything happens. -/
lemma checked_runChainCommand {name : ChainCommandName} (hproves : name ≠ .deploy) (json : Bool) :
    Action.Meets (fun s => s.events = []) (runChainCommand world name options json)
      (fun _ _ => BuildMatches world options [])
      fun _ s => s.events = [] ∨ BuildMatches world options [] := by
  unfold runChainCommand
  rw [decide_eq_true hproves]
  refine Action.Meets.bind (Q := fun profile s => s.events = [] ∧
    profileOf world.root (options.string (js "example")) = .ok profile)
    (meets_checkFlags (fun _ _ hprofile hs => ⟨hs, hprofile⟩) fun _ _ _ hs => Or.inl hs)
    fun profile => Action.Meets.of_fact (fun _ hs => hs.2) fun hprofile => ?_
  refine Action.Meets.bind (Q := fun _ s => s.events = [])
    ((keeps_chainCommand world name options profile).meets.weaken (fun _ hs => hs.1)
      (fun _ _ hs => hs) fun _ _ hs => Or.inl hs) fun command => ?_
  exact (checked_openChainServices hprofile json).bind fun opened =>
    ⟨fun _ _ _ hbuild _ => hbuild, fun _ _ _ hbuild _ => Or.inr hbuild⟩

/-- **No proof is asked for on an unchecked build.**  The checks of a key build pass exactly when it
is the committed one.  A run of a command that proves does nothing but print lines unless the build
is the committed one at its start: the indexer is not asked, no wallet is opened, and the command
takes no step. -/
theorem key_build_checked (world : ToolWorld) (argv : List JsString)
    (env : JsString → Option JsString) (files : CommandFiles) {parsed : ParsedArgs}
    {name : ChainCommandName} (hparsed : parseArgs argv toolFlags = .ok parsed)
    (hname : parsed.command.bind chainCommandName? = some name) (hproves : name ≠ .deploy) :
    (∀ view profile zkDir, checkArtifacts world.artifacts view profile zkDir = .ok () ↔
      KeyBuildMatches world.artifacts view profile zkDir) ∧
    ∀ event ∈ (toolMain world argv env ⟨files, []⟩).2.events,
      (∀ line, event ≠ .out line ∧ event ≠ .err line) →
        BuildMatches world (toolOptions parsed env) [] := by
  refine ⟨fun _ _ _ => checkArtifacts_eq_ok_iff, fun event hevent hline => ?_⟩
  cases hhelp : (toolOptions parsed env).has (js "help") with
  | true =>
    -- the usage is printed
    have hrun : toolMain world argv env ⟨files, []⟩ = (0, ⟨files, [.out toolUsage]⟩) := by
      rw [toolMain, tryTool_eq_runParsed hparsed, runParsed, if_pos (Or.inl hhelp)]
      rfl
    rw [hrun, List.mem_singleton] at hevent
    exact absurd hevent (hline toolUsage).1
  | false =>
    have hchecked := @checked_runChainCommand (toolOptions parsed env) world _ hproves
      ((toolOptions parsed env).has (js "json"))
    rw [← tryTool_chain hparsed hhelp hname] at hchecked
    rcases Action.returns_or_throws (tryTool world argv env) ⟨files, []⟩ with
      ⟨status, s, h⟩ | ⟨error, s, h⟩
    · exact hchecked.returns _ status s rfl h
    · refine (hchecked.throws _ error s rfl h).resolve_left fun hnone => ?_
      rw [toolMain_of_throws h, hnone, List.nil_append] at hevent
      obtain ⟨line, -, heq⟩ := List.mem_map.mp hevent
      exact (hline line).2 heq.symm

end KeyBuild

/-! ### A world where everything works -/

/-- A wallet that is synced. -/
def syncedWallet : ToolWallet where
  identity := ⟨⟨js "stagenet", js "coin", js "key", js "unshielded", js "dust"⟩, js "shielded"⟩
  coinPublicKey := js "coin"
  synced := fun _ => .ok ()
  balances := fun _ => .ok ⟨0, 0, [], .empty⟩
  registerForDust := fun mode _ => .ok ⟨mode, 0, none, none, none, none⟩
  close := fun _ => .ok ()

/-- A world where an emitter can be deployed. -/
def workingWorld : ToolWorld where
  root := js "/repository"
  parseUrl := fun _ => some ⟨js "http:", js "localhost"⟩
  number := fun _ => .int 1
  files := fun _ => ⟨fun _ => true, fun _ => .ok []⟩
  artifacts := ⟨zeroSecretHash, fun _ => .ok []⟩
  importModule := fun _ _ => .ok deployedOptions.generated
  latestBlock := fun _ _ => .ok ⟨200, .json ⟨none,
    some (some ⟨some (js "block"), some (.int 1), some (.int 1000), none, some (js "00")⟩)⟩⟩
  maxAttempts := 4
  ledgerParametersFromHex := .ok
  dustParameters := id
  openWallet := fun _ _ => .ok syncedWallet
  tools := deployedTools
  machine := sampleMachine 1
  services := fun _ _ _ => deployedServices
  notFound := fun _ => false
  systemText := fun _ => []

/-- The command line of a deployment. -/
def deployArgv : List JsString :=
  [js "deploy", js "--example=emitter", js "--out=deployment.json",
    js "--emitter-secret-file=emitter.secret", js "--maintenance-key-file=maintenance.key",
    js "--reuse-secret", js "--reuse-maintenance-key", js "--proof-server=http://localhost:6300",
    js "--wallet-mnemonic-file=wallet.txt"]

/-- The command line of a publication. -/
def publishArgv : List JsString :=
  [js "publish", js "--example=emitter", js "--out=publication.json",
    js "--contract=" ++ List.replicate 64 (hexUnit 10), js "--message=hi",
    js "--emitter-secret-file=emitter.secret", js "--proof-server=http://localhost:6300",
    js "--wallet-mnemonic-file=wallet.txt"]

/-- The indexer is asked in the publication, so its key build is the committed one. -/
theorem key_build_checked_publish : ∃ parsed, parseArgs publishArgv toolFlags = .ok parsed ∧
    BuildMatches workingWorld (toolOptions parsed fun _ => none) [] := by
  have hasked : (parseArgs publishArgv toolFlags).toOption.any (fun parsed =>
      parsed.command.bind chainCommandName? = some .publish) = true := by decide +kernel
  have hevent : (toolMain workingWorld publishArgv (fun _ => none)
      ⟨fun _ => none, []⟩).2.events.any (fun event => match event with
        | .latestBlock => true
        | _ => false) = true := by decide +kernel
  obtain ⟨event, hmem, hblock⟩ := List.any_eq_true.mp hevent
  cases hparsed : parseArgs publishArgv toolFlags with
  | error error =>
    rw [hparsed] at hasked
    cases hasked
  | ok parsed =>
    rw [hparsed] at hasked
    refine ⟨parsed, rfl, (key_build_checked workingWorld publishArgv (fun _ => none)
      (fun _ => none) hparsed (of_decide_eq_true hasked) (by decide)).2 event hmem ?_⟩
    intro line
    constructor <;> rintro rfl <;> cases hblock

example : walletPhase (toolMain workingWorld deployArgv (fun _ => none)
    ⟨fun _ => none, []⟩).2.events = some .closed := by decide +kernel

example : walletPhase (toolMain workingWorld (deployArgv ++ [js "--proof-timeout-seconds=15m"])
    (fun _ => none) ⟨fun _ => none, []⟩).2.events = some .ready := by decide +kernel

end MultiPartEvent
