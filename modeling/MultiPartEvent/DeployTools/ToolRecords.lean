import MultiPartEvent.DeployTools.ToolRuns

/-!
# What an exit status of 0 stands for

A chain command that returns has kept its record: the file at the path of the record holds it, and
it was written there as the record of a verified transaction, or as that of a finalized one in a dry
run (`meets_run`).  It runs with the options of the command line and with the services that were
opened for it (`openChainServices_returns`).  So when the tools exit with status 0 after a chain
command, the wallet is closed and the file that `--out` names holds what has been verified
(`exit_zero_records`).
-/

namespace MultiPartEvent

/-! ### What a command that returns has recorded -/

/-- The file at a path holds a record, which has been written there. -/
structure Kept (path : JsString) (record : CommandRecord) (s : CommandState) : Prop where
  file : s.files path = some (.record record)
  written : ∃ before after, s.history = before ++ .wrote path (.record record) :: after

section Kept

variable {tools : CommandTools} {machine : Machine} {services : ChainServices} {path : JsString}
  {record : CommandRecord}

/-- A record that has been written is kept. -/
lemma meets_writeRecord :
    Action.Meets (fun _ => True) (writeRecord machine path record) (fun _ => Kept path record)
      fun _ _ => True := by
  refine ⟨fun s u s' _ h => ?_, fun _ _ _ _ _ => trivial⟩
  obtain ⟨_, middle, hwrite, hrename⟩ := Action.returns_bind_iff.mp h
  rw [writeFileSync_returns hwrite] at hrename
  rw [renameSync_returns (if_pos rfl) hrename]
  exact ⟨if_pos rfl, _, [], rfl⟩

/-- A line that is logged changes no file. -/
lemma keeps_kept_logLine (line : JsString) :
    Action.Keeps (Kept path record) (logLine services line) := by
  intro s hs
  obtain ⟨before, after, hhistory⟩ := hs.written
  refine ⟨hs.file, before, after ++ [.called (.log line) s.files], ?_⟩
  change s.history ++ _ = _
  rw [hhistory]
  simp [Run.call]

/-- After a record that has been written, logging and returning keep it. -/
lemma meets_save_log {α : Type} {a : α} {line : JsString} :
    Action.Meets (fun _ => True)
      (do
        writeRecord machine path record
        logLine services line
        return a)
      (fun b s => b = a ∧ Kept path record s) fun _ _ => True := by
  have hkept : Action.Meets (Kept path record) (logLine services line)
      (fun _ => Kept path record) fun _ _ => True :=
    (keeps_kept_logLine line).meets.weaken (fun _ hs => hs) (fun _ _ hs => hs) fun _ _ _ => trivial
  exact meets_writeRecord.bind fun _ => hkept.bind fun _ =>
    Action.meets_pure _ fun _ hs => ⟨rfl, hs⟩

/-- Logging lines changes no file. -/
lemma meets_kept_logLine (line : JsString) :
    Action.Meets (Kept path record) (logLine services line) (fun _ => Kept path record)
      fun _ _ => True :=
  (keeps_kept_logLine line).meets.weaken (fun _ hs => hs) (fun _ _ hs => hs) fun _ _ _ => trivial

/-- Logging the packages changes no file. -/
lemma meets_kept_logPackages (packages : List PublishedPackage) :
    Action.Meets (Kept path record) (logPackages services packages) (fun _ => Kept path record)
      fun _ _ => True := by
  induction packages with
  | nil => exact Action.meets_pure _ fun _ hs => hs
  | cons pkg packages ih => exact (meets_kept_logLine _).bind fun _ => ih

/-- A deployment that returns has kept a verified record. -/
lemma meets_runDeploy (options : DeployOptions) :
    Action.Meets (fun _ => True) (runDeploy tools machine services options)
      (fun record s => Kept options.out (.deployment record) s ∧ record.stage = .verified)
      fun _ _ => True := by
  unfold runDeploy
  dsimp only
  -- The steps before the last record.
  iterate 18 refine Action.Meets.after fun _ => ?_
  exact meets_save_log.weaken (fun _ _ => trivial) (fun _ _ h => ⟨h.1 ▸ h.2, h.1 ▸ rfl⟩)
    fun _ _ _ => trivial

/-- A pin that returns has kept a verified record. -/
lemma meets_runPin (options : PinOptions) :
    Action.Meets (fun _ => True) (runPin tools machine services options)
      (fun record s => Kept options.out (.pin record) s ∧ record.stage = .verified)
      fun _ _ => True := by
  unfold runPin
  dsimp only
  iterate 13 refine Action.Meets.after fun _ => ?_
  exact meets_save_log.weaken (fun _ _ => trivial) (fun _ _ h => ⟨h.1 ▸ h.2, h.1 ▸ rfl⟩)
    fun _ _ _ => trivial

/-- What has been computed. -/
lemma meets_compute {α : Type} {P : CommandState → Prop} (result : Except JsError α) :
    Action.Meets P (compute result) (fun a s => P s ∧ result = .ok a) fun _ _ => True :=
  Action.meets_lift _ (fun _ _ h hs => ⟨hs, mapError_eq_ok_iff.mp h⟩) fun _ _ _ _ => trivial

/-- A publication that returns has kept a verified record, or stopped at the finalized one in a dry
run. -/
lemma meets_runPublish (options : PublishOptions) :
    Action.Meets (fun _ => True) (runPublish tools machine services options)
      (fun record s => Kept options.out (.publication record) s ∧
        ((options.dryRun = some true ∧ record.stage = .finalized) ∨ record.stage = .verified))
      fun _ _ => True := by
  unfold runPublish
  dsimp only
  iterate 4 refine Action.Meets.after fun _ => ?_
  refine (meets_compute _).bind fun record =>
    Action.Meets.of_fact (fun _ h => h.2) fun hrecord => ?_
  have hstage : record.stage = .finalized := (publicationRecord_eq_ok hrecord).1
  refine (meets_writeRecord.weaken (fun _ _ => trivial) (fun _ _ h => h) fun _ _ h => h).bind
    fun _ => (meets_kept_logLine _).bind fun _ => ?_
  split_ifs with hdry
  · exact Action.meets_pure _ fun _ hs => ⟨hs, Or.inl ⟨hdry, hstage⟩⟩
  · iterate 8 refine Action.Meets.after fun _ => ?_
    refine Action.Meets.after fun packages => meets_writeRecord.bind fun _ =>
      (meets_kept_logLine _).bind fun _ => (meets_kept_logPackages _).bind fun _ => ?_
    refine (Action.meets_failIf fun _ _ _ => trivial).bind fun _ => Action.meets_pure _ ?_
    rintro s ⟨hkept, hverified⟩
    exact ⟨hkept, Or.inr (if_pos (by simpa using hverified))⟩

/-- A chain command that returns has kept a verified record, or the finalized one of a dry run. -/
lemma meets_run (command : ChainCommand) :
    Action.Meets (fun _ => True) (command.run tools machine services)
      (fun record s => Kept command.out record s ∧
        ((command.isDryRun = true ∧ record.stage = .finalized) ∨ record.stage = .verified))
      fun _ _ => True := by
  cases command with
  | deploy options =>
    exact (meets_runDeploy options).bind fun record =>
      Action.meets_pure _ fun _ hs => ⟨hs.1, Or.inr hs.2⟩
  | pin options =>
    exact (meets_runPin options).bind fun record =>
      Action.meets_pure _ fun _ hs => ⟨hs.1, Or.inr hs.2⟩
  | publish options =>
    refine (meets_runPublish options).bind fun record => Action.meets_pure _ ?_
    rintro s ⟨hkept, ⟨hdry, hstage⟩ | hstage⟩
    · exact ⟨hkept, Or.inl ⟨by simpa [ChainCommand.isDryRun] using hdry, hstage⟩⟩
    · exact ⟨hkept, Or.inr hstage⟩

end Kept

/-! ### The options of a command -/

/-- The name of a chain command. -/
def ChainCommand.name : ChainCommand → ChainCommandName
  | .deploy _ => .deploy
  | .publish _ => .publish
  | .pin _ => .pin

/-- A command agrees with the command line: its name, the path of its record, and whether it is a
dry run. -/
structure ChainCommand.Agrees (command : ChainCommand) (name : ChainCommandName)
    (options : Options) : Prop where
  name : command.name = name
  out : options.string (js "out") = some command.out
  dryRun : command.isDryRun = options.has (js "dry-run")

section Options

variable {world : ToolWorld} {name : ChainCommandName} {options : Options} {profile : ToolProfile}
  {command : ChainCommand} {s s' : ToolState}

/-- A flag that is required is there. -/
lemma required_eq_ok {flag what value : JsString} (h : options.required flag what = .ok value) :
    options.string flag = some value := by
  unfold Options.required at h
  cases hstring : options.string flag with
  | none =>
    rw [hstring] at h
    cases h
  | some given =>
    rw [hstring] at h
    exact congrArg some (Except.ok.inj h)

/-- The other commands have no flag of `publish`. -/
lemma dryRun_of_refused (hname : name ≠ .publish) (h : refusePublishFlags name options = .ok ()) :
    options.has (js "dry-run") = false := by
  unfold refusePublishFlags at h
  rw [if_neg hname] at h
  split at h
  · cases h
  · next hnone =>
    have hunset := List.find?_eq_none.mp hnone (js "dry-run") (by decide)
    rw [Option.isSome_iff_ne_none, ne_eq, not_not] at hunset
    simp [Options.has, hunset]

/-- **The options are those of the command line.** -/
lemma chainCommand_returns (h : (chainCommand world name options profile).Returns s command s') :
    command.Agrees name options := by
  obtain ⟨out, _, hout, h⟩ := Action.returns_bind_iff.mp h
  obtain ⟨ttlSeconds, _, -, h⟩ := Action.returns_bind_iff.mp h
  obtain ⟨⟨⟩, _, hrefused, h⟩ := Action.returns_bind_iff.mp h
  have hpath := required_eq_ok (checkFlags_returns hout).1
  have hflags := (checkFlags_returns hrefused).1
  cases name with
  | deploy =>
    iterate 4 obtain ⟨_, _, -, h⟩ := Action.returns_bind_iff.mp h
    obtain ⟨rfl, -⟩ := Action.returns_pure_iff.mp h
    exact ⟨rfl, hpath, (dryRun_of_refused (by decide) hflags).symm⟩
  | publish =>
    iterate 7 obtain ⟨_, _, -, h⟩ := Action.returns_bind_iff.mp h
    obtain ⟨rfl, -⟩ := Action.returns_pure_iff.mp h
    exact ⟨rfl, hpath, by simp [ChainCommand.isDryRun]⟩
  | pin =>
    iterate 5 obtain ⟨_, _, -, h⟩ := Action.returns_bind_iff.mp h
    obtain ⟨rfl, -⟩ := Action.returns_pure_iff.mp h
    exact ⟨rfl, hpath, (dryRun_of_refused (by decide) hflags).symm⟩

end Options

/-! ### What the tools have done -/

/-- The step of a chain command, if the event is one. -/
def ToolEvent.step? : ToolEvent → Option CommandEvent
  | .command event => some event
  | _ => none

/-- The steps of the chain command of a run. -/
def commandHistory (events : ToolHistory) : History := events.filterMap ToolEvent.step?

/-- The files are these, and these are the steps of the chain command so far. -/
structure Untouched (files : CommandFiles) (steps : History) (s : ToolState) : Prop where
  files : s.files = files
  steps : commandHistory s.events = steps

section Untouched

variable {world : ToolWorld} {options : Options} {files : CommandFiles} {steps : History}

/-- What happens besides commands leaves the files untouched. -/
lemma keeps_happens {event : ToolEvent} (hstep : event.step? = none) :
    Action.Keeps (Untouched files steps) (happens event) := by
  rintro s ⟨hfiles, hsteps⟩
  refine ⟨hfiles, ?_⟩
  change commandHistory (s.events ++ [event]) = steps
  rw [commandHistory, List.filterMap_append, ← commandHistory, hsteps]
  simp [hstep]

/-- Asking the wallet leaves the files untouched. -/
lemma keeps_askWallet {α : Type} (answer : ToolHistory → Except SessionError α) :
    Action.Keeps (Untouched files steps) (askWallet answer) := fun _ hs => hs

/-- Logging leaves the files untouched. -/
lemma keeps_toolLog (json : Bool) (line : JsString) :
    Action.Keeps (Untouched files steps) (toolLog json line) := by
  cases json <;> exact keeps_happens rfl

/-- Closing the wallet leaves the files untouched. -/
lemma keeps_closeWallet (wallet : ToolWallet) :
    Action.Keeps (Untouched files steps) (closeWallet wallet) :=
  (keeps_happens rfl).bind fun _ => keeps_askWallet _

/-- Asking the indexer leaves the files untouched. -/
lemma keeps_latestParameters : Action.Keeps (Untouched files steps) (latestParameters world) := by
  refine (Action.keeps_look _).bind fun _ => (keeps_happens rfl).bind fun _ =>
    (Action.keeps_lift _).bind fun block => ?_
  cases block.ledgerParametersHex with
  | none => exact Action.keeps_fail _
  | some hex => exact Action.keeps_lift _

/-- Opening what a chain command needs leaves the files untouched. -/
lemma keeps_openChainServices (profile : ToolProfile) (proves json : Bool) :
    Action.Keeps (Untouched files steps) (openChainServices world options profile proves json) := by
  unfold openChainServices
  refine (keeps_checkFlags _).bind fun _ => (keeps_checkFlags _).bind fun _ =>
    ((keeps_checkProver world options profile).runUnless _).bind fun _ =>
    keeps_latestParameters.bind fun _ => (keeps_toolLog json _).bind fun _ => ?_
  refine Action.Keeps.bind ?_ fun wallet => Action.Keeps.bind ?_ fun _ =>
    (Action.keeps_look _).bind fun _ => (keeps_checkFlags _).bind fun _ => Action.keeps_pure _
  · exact (keeps_checkFlags _).bind fun _ => (keeps_askWallet _).bind fun _ =>
      (keeps_happens rfl).bind fun _ => Action.keeps_pure _
  · exact Action.Keeps.catching ((keeps_askWallet _).bind fun _ => keeps_happens rfl)
      fun _ => (keeps_closeWallet wallet).bind fun _ => Action.keeps_fail _

/-- A command that returns leaves its files and its steps. -/
lemma runCommand_returns {α : Type} {command : Command α} {a : α} {s s' : ToolState}
    (h : (runCommand world command).Returns s a s') :
    ∃ c, command.Returns ⟨s.files, []⟩ a c ∧
      s' = ⟨c.files, s.events ++ c.history.map .command⟩ := by
  have hresult : (command ⟨s.files, []⟩).1 = .ok a := mapError_eq_ok_iff.mp (congrArg Prod.fst h)
  exact ⟨_, Action.returns_of_result hresult, (congrArg Prod.snd h).symm⟩

/-- The files and the steps of a command that runs first. -/
lemma Untouched.run {s : ToolState} (hs : Untouched files [] s) (c : CommandState) :
    Untouched c.files c.history ⟨c.files, s.events ++ c.history.map .command⟩ := by
  refine ⟨rfl, ?_⟩
  have hmap : (c.history.map ToolEvent.command).filterMap ToolEvent.step? = c.history := by
    rw [List.filterMap_map]
    exact List.filterMap_some
  rw [commandHistory, List.filterMap_append, ← commandHistory, hs.steps, List.nil_append, hmap]

end Untouched

/-! ### The services of a run -/

/-- The services that a chain command runs with at a point of a run: those of the world, for the
endpoints of the options and for a wallet that was opened with their settings and has reported a
complete sync, with the values that `openChainServices` sets. -/
structure OpenedServices (world : ToolWorld) (options : Options) (past : ToolHistory)
    (endpoints : Endpoints) (wallet : ToolWallet) (services : ChainServices) : Prop where
  resolved : resolveEndpoints world.parseUrl options = .ok endpoints
  synced : ∃ proofServer parameters settings earlier,
    resolveProofServer world.parseUrl options = .ok proofServer ∧
    walletSettings options endpoints proofServer (world.dustParameters parameters) = .ok settings ∧
    world.openWallet settings earlier = .ok wallet ∧
    wallet.synced (earlier ++ [.opened settings]) = .ok () ∧
    past = earlier ++ [.opened settings] ++ [.synced]
  values : ∃ proofTimeout,
    options.integer (js "proof-timeout-seconds") (.int 900) maxSafeNumber 1 = .ok proofTimeout ∧
    services = { world.services endpoints wallet past with
      network := endpoints.network
      coinPublicKey := wallet.coinPublicKey
      proofTimeoutMs := proofTimeout.times 1000
      requireProofs := true
      allowSecretsInRepository := none
      log := fun _ _ => .ok () }

section Services

variable {world : ToolWorld} {options : Options} {profile : ToolProfile} {s s' : ToolState}

/-- The wallet has answered. -/
lemma askWallet_returns {α : Type} {answer : ToolHistory → Except SessionError α} {a : α}
    (h : (askWallet answer).Returns s a s') : answer s.events = .ok a ∧ s = s' :=
  ⟨mapError_eq_ok_iff.mp (congrArg Prod.fst h), congrArg Prod.snd h⟩

/-- An event that has happened. -/
lemma happens_returns {event : ToolEvent} {u : Unit} (h : (happens event).Returns s u s') :
    s' = { s with events := s.events ++ [event] } := (congrArg Prod.snd h).symm

/-- A wallet that has been opened. -/
lemma openWallet_returns {endpoints : Endpoints} {proofServer dustParameters : JsString}
    {wallet : ToolWallet}
    (h : (openWallet world options endpoints proofServer dustParameters).Returns s wallet s') :
    ∃ settings, walletSettings options endpoints proofServer dustParameters = .ok settings ∧
      world.openWallet settings s.events = .ok wallet ∧
      s'.events = s.events ++ [.opened settings] := by
  obtain ⟨settings, _, hflags, h⟩ := Action.returns_bind_iff.mp h
  obtain ⟨hsettings, rfl⟩ := checkFlags_returns hflags
  obtain ⟨opened, _, hasked, h⟩ := Action.returns_bind_iff.mp h
  obtain ⟨hopened, rfl⟩ := askWallet_returns hasked
  obtain ⟨_, _, hhappens, h⟩ := Action.returns_bind_iff.mp h
  obtain ⟨rfl, rfl⟩ := Action.returns_pure_iff.mp h
  exact ⟨settings, hsettings, hopened, by rw [happens_returns hhappens]⟩

/-- A sync that has been waited for. -/
lemma awaitSynced_returns {wallet : ToolWallet} {u : Unit}
    (h : (awaitSynced wallet).Returns s u s') :
    wallet.synced s.events = .ok () ∧ s'.events = s.events ++ [.synced] := by
  rcases Action.returns_catching_iff.mp h with hbody | ⟨error, _, -, hclosed⟩
  · obtain ⟨⟨⟩, _, hasked, hhappens⟩ := Action.returns_bind_iff.mp hbody
    obtain ⟨hsynced, rfl⟩ := askWallet_returns hasked
    exact ⟨hsynced, by rw [happens_returns hhappens]⟩
  · obtain ⟨_, _, -, hfail⟩ := Action.returns_bind_iff.mp hclosed
    exact absurd hfail Action.not_returns_fail

/-- **The services are those of the run.** -/
lemma openChainServices_returns {proves json : Bool} {opened : ChainServices × ToolWallet}
    (h : (openChainServices world options profile proves json).Returns s opened s') :
    ∃ endpoints, OpenedServices world options s'.events endpoints opened.2 opened.1 := by
  obtain ⟨endpoints, _, hflags, h⟩ := Action.returns_bind_iff.mp h
  obtain ⟨hendpoints, rfl⟩ := checkFlags_returns hflags
  obtain ⟨proofServer, _, hflags, h⟩ := Action.returns_bind_iff.mp h
  obtain ⟨hserver, rfl⟩ := checkFlags_returns hflags
  obtain ⟨_, _, -, h⟩ := Action.returns_bind_iff.mp h
  obtain ⟨parameters, _, -, h⟩ := Action.returns_bind_iff.mp h
  obtain ⟨_, before, -, h⟩ := Action.returns_bind_iff.mp h
  obtain ⟨wallet, _, hwallet, h⟩ := Action.returns_bind_iff.mp h
  obtain ⟨settings, hsettings, hopened, hevents⟩ := openWallet_returns hwallet
  obtain ⟨_, _, hawaited, h⟩ := Action.returns_bind_iff.mp h
  obtain ⟨hsynced, hmore⟩ := awaitSynced_returns hawaited
  obtain ⟨services, _, hlooked, h⟩ := Action.returns_bind_iff.mp h
  obtain ⟨rfl, rfl⟩ := Action.returns_look_iff.mp hlooked
  obtain ⟨proofTimeout, _, hflags, h⟩ := Action.returns_bind_iff.mp h
  obtain ⟨htimeout, rfl⟩ := checkFlags_returns hflags
  obtain ⟨rfl, rfl⟩ := Action.returns_pure_iff.mp h
  rw [hevents] at hsynced hmore
  exact ⟨endpoints, hendpoints,
    ⟨proofServer, parameters, settings, before.events, hserver, hsettings, hopened, hsynced, hmore⟩,
    proofTimeout, htimeout, rfl⟩

end Services

/-- A chain command has come to its end: it has run with the options of the command line and the
services of the run, its record is in the file that was named, and its steps show that the record
was verified, or that it was a dry run, which submits nothing. -/
structure Accomplished (world : ToolWorld) (options : Options) (name : ChainCommandName)
    (files : CommandFiles) (s : ToolState) : Prop where
  /-- The wallet is closed. -/
  closed : walletPhase s.events = some .closed
  recorded : ∃ (profile : ToolProfile) (command : ChainCommand) (past : ToolHistory)
      (endpoints : Endpoints) (wallet : ToolWallet) (services : ChainServices)
      (record : CommandRecord),
    profileOf world.root (options.string (js "example")) = .ok profile ∧
    (chainCommand world name options profile).Returns ⟨files, []⟩ command ⟨files, []⟩ ∧
    command.Agrees name options ∧
    OpenedServices world options past endpoints wallet services ∧
    past ++ (commandHistory s.events).map .command <+: s.events ∧
    (command.run world.tools world.machine services).Returns ⟨files, []⟩ record
      ⟨s.files, commandHistory s.events⟩ ∧
    s.files command.out = some (.record record) ∧
    ((options.has (js "dry-run") = true ∧ record.stage = .finalized ∧
        (commandHistory s.events).countP isSubmission = 0) ∨
      (record.stage = .verified ∧ ∃ before after,
        commandHistory s.events = before ++ .wrote command.out (.record record) :: after ∧
        command.Verified world.tools services before record))

/-- What has happened stays. -/
lemma keeps_past {past : ToolHistory} {event : ToolEvent} :
    Action.Keeps (fun s => past <+: s.events) (happens event) :=
  fun _ hs => hs.trans (List.prefix_append _ _)

/-- What no event but those of commands changes holds on after the record has been printed and the
wallet closed. -/
lemma kept_by_finish {I : ToolState → Prop}
    (hkeeps : ∀ event : ToolEvent, event.step? = none → Action.Keeps I (happens event))
    {record : CommandRecord} {wallet : ToolWallet} {json : Bool} {status : ℕ} {u : Unit}
    {s printed s' : ToolState} (hs : I s)
    (hprinted : Action.Returns (do
      Action.runUnless json (happens (.printed (.record record)))
      return 0) s status printed)
    (hclosed : (closeWallet wallet).Returns printed u s') : I s' := by
  have hprints : Action.Keeps I (do
      Action.runUnless json (happens (.printed (.record record)))
      return (0 : ℕ)) := ((hkeeps _ rfl).runUnless _).bind fun _ => Action.keeps_pure _
  have hcloses : Action.Keeps I (closeWallet wallet) := (hkeeps _ rfl).bind fun _ _ hs => hs
  exact hcloses.of_returns (hprints.of_returns hs hprinted) hclosed

/-- **An exit status of 0 stands for a kept record.**  When the tools exit with status 0 after a
chain command, the wallet is closed, and the file that `--out` names holds the record of what was
verified, after every check it stands for, with the services of the run, or the finalized record of
a dry run, in which nothing was submitted. -/
theorem exit_zero_records (world : ToolWorld) (argv : List JsString)
    (env : JsString → Option JsString) (files : CommandFiles) {parsed : ParsedArgs}
    {name : ChainCommandName} (hparsed : parseArgs argv toolFlags = .ok parsed)
    (hhelp : (toolOptions parsed env).has (js "help") = false)
    (hname : parsed.command.bind chainCommandName? = some name)
    (hzero : (toolMain world argv env ⟨files, []⟩).1 = 0) :
    Accomplished world (toolOptions parsed env) name files
      (toolMain world argv env ⟨files, []⟩).2 := by
  rcases Action.returns_or_throws (tryTool world argv env) ⟨files, []⟩ with
    ⟨status, s, h⟩ | ⟨error, s, h⟩
  · rw [toolMain_of_returns h]
    rw [tryTool_chain hparsed hhelp hname] at h
    have hended := (meets_runChainCommand world name _).returns _ status s (at_start files) h
    refine ⟨hended.1.phase, ?_⟩
    have hstart : Untouched files [] ⟨files, []⟩ := ⟨rfl, rfl⟩
    obtain ⟨profile, _, hflags, h⟩ := Action.returns_bind_iff.mp h
    obtain ⟨hprofile, rfl⟩ := checkFlags_returns hflags
    obtain ⟨command, _, hcommand, h⟩ := Action.returns_bind_iff.mp h
    obtain rfl := (keeps_chainCommand world name _ profile).of_returns rfl hcommand
    obtain ⟨opened, ready, hopened, h⟩ := Action.returns_bind_iff.mp h
    obtain ⟨_, hbody, hclosed⟩ := Action.returns_ending_iff.mp h
    obtain ⟨record, _, hran, hprinted⟩ := Action.returns_bind_iff.mp hbody
    have hready := (keeps_openChainServices profile _ _).of_returns hstart hopened
    obtain ⟨endpoints, hservices⟩ := openChainServices_returns hopened
    obtain ⟨c, hreturned, rfl⟩ := runCommand_returns hran
    rw [hready.files] at hreturned
    have hend : Untouched c.files c.history s :=
      kept_by_finish (fun _ hstep => keeps_happens hstep) (hready.run c) hprinted hclosed
    have hpast : ready.events ++ c.history.map .command <+: s.events :=
      kept_by_finish (I := fun s => ready.events ++ c.history.map .command <+: s.events)
        (fun _ _ => keeps_past) List.prefix_rfl hprinted hclosed
    have hagrees := chainCommand_returns hcommand
    obtain ⟨hkept, hstage⟩ := (meets_run command).returns _ record c trivial hreturned
    obtain ⟨saved, acted, hjournal, hmay⟩ :=
      run_followed world.tools world.machine opened.1 command files
    rw [show (command.run world.tools world.machine opened.1 ⟨files, []⟩).2 = c from
      congrArg Prod.snd hreturned] at hjournal
    refine ⟨profile, command, ready.events, endpoints, opened.2, opened.1, record, hprofile,
      hcommand, hagrees, hservices, ?_⟩
    rw [hend.steps, hend.files]
    refine ⟨hpast, hreturned, hkept.file, ?_⟩
    rcases hstage with ⟨hdry, hfinalized⟩ | hverified
    · have hacted : acted = false := by
        by_contra hsubmitted
        rw [hmay (by simpa using hsubmitted)] at hdry
        cases hdry
      refine Or.inl ⟨hagrees.dryRun.symm.trans hdry, hfinalized, ?_⟩
      exact hjournal.countP_acts.trans (by rw [hacted]; rfl)
    · obtain ⟨before, after, hhistory⟩ := hkept.written
      exact Or.inr ⟨hverified, before, after, hhistory,
        (hjournal.saved_next hhistory (if_pos rfl)).2 hverified⟩
  · exfalso
    rw [toolMain_of_throws h] at hzero
    cases hkind : error.kind <;> simp [hkind, FailureKind.status] at hzero

/-- The emitter is deployed, and its record is kept. -/
theorem exit_zero_records_deploy : ∃ parsed, parseArgs deployArgv toolFlags = .ok parsed ∧
    Accomplished workingWorld (toolOptions parsed fun _ => none) .deploy (fun _ => none)
      (toolMain workingWorld deployArgv (fun _ => none) ⟨fun _ => none, []⟩).2 := by
  have hasked : (parseArgs deployArgv toolFlags).toOption.any (fun parsed =>
      (toolOptions parsed fun _ => none).has (js "help") = false ∧
        parsed.command.bind chainCommandName? = some .deploy) = true := by decide +kernel
  cases hparsed : parseArgs deployArgv toolFlags with
  | error error =>
    rw [hparsed] at hasked
    cases hasked
  | ok parsed =>
    rw [hparsed] at hasked
    obtain ⟨hhelp, hname⟩ := of_decide_eq_true hasked
    exact ⟨parsed, rfl, exit_zero_records workingWorld deployArgv (fun _ => none) (fun _ => none)
      hparsed hhelp hname (by decide +kernel)⟩

end MultiPartEvent
