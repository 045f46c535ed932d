import MultiPartEvent.DeployTools.Artifacts
import MultiPartEvent.DeployTools.CommandRuns
import MultiPartEvent.DeployTools.OpenSession
import MultiPartEvent.Indexer.Waiting

/-!
# The command line of the deploy tools

`toolMain` parses the arguments, checks the flags, reads what a command needs from files, asks the
indexer for the ledger parameters, opens the wallet, waits for its sync and runs the command.  Its
state is the files and all that has happened; the world answers by what has happened, and anything
may fail.

The stand-ins that tests put in the place of the wallet and of the prover are left out.  The report
of a command as JSON is one event, without its text.
-/

namespace MultiPartEvent

/-! ### Configuration -/

/-- Environment variable backing each flag. -/
def toolEnvForFlag (flag : JsString) : Option JsString :=
  [(js "network", js "CMSE_NETWORK"),
    (js "indexer", js "CMSE_INDEXER_URL"),
    (js "indexer-ws", js "CMSE_INDEXER_WS_URL"),
    (js "node", js "CMSE_NODE_URL"),
    (js "proof-server", js "CMSE_PROOF_SERVER_URL"),
    (js "proof-concurrency", js "CMSE_PROOF_CONCURRENCY"),
    (js "wallet-mnemonic-file", js "CMSE_WALLET_MNEMONIC_FILE"),
    (js "wallet-cache-file", js "CMSE_WALLET_CACHE_FILE"),
    (js "sync-timeout-minutes", js "CMSE_SYNC_TIMEOUT_MINUTES"),
    (js "fee-blocks-margin", js "CMSE_FEE_BLOCKS_MARGIN"),
    (js "emitter-secret-file", js "CMSE_EMITTER_SECRET_FILE"),
    (js "maintenance-key-file", js "CMSE_MAINTENANCE_KEY_FILE"),
    (js "zk-dir", js "CMSE_ZK_DIR")].lookup flag

/-- Resolved endpoints. -/
structure Endpoints where
  network : JsString
  indexer : JsString
  indexerWs : JsString
  node : JsString

/-- The WebSocket URL next to an indexer URL. -/
def webSocketUrl (indexer : JsString) : JsString :=
  let url := if js "http" <+: indexer then js "ws" ++ indexer.drop 4 else indexer
  (if url.getLast? = some slash then url.dropLast else url) ++ js "/ws"

/-- Network id and endpoints, from flags, environment or the network's defaults. -/
def resolveEndpoints (parseUrl : UrlParser) (options : Options) :
    Except UsageError Endpoints := do
  let network := networkOf options
  let defaults := networkDefaults network
  let indexer ← indexerUrlOf parseUrl options network
  match (options.string (js "node")).or (defaults.map NetworkEndpoints.node) with
  | none => usage (js "network '" ++ network ++ js "' has no default node; pass --node")
  | some node =>
    let indexerWs := ((options.string (js "indexer-ws")).or
      (defaults.map NetworkEndpoints.indexerWs)).getD (webSocketUrl indexer)
    return ⟨network, indexer, indexerWs, ← httpUrl parseUrl node (js "node")⟩

/-- The host names of this machine. -/
def loopback : List JsString := [js "127.0.0.1", js "localhost", js "::1", js "[::1]"]

/-- The proof server URL, which is on this machine unless a flag allows another. -/
def resolveProofServer (parseUrl : UrlParser) (options : Options) : Except UsageError JsString := do
  let given ← options.required (js "proof-server") (js "a proof server URL")
  let url ← httpUrl parseUrl given (js "proof-server")
  let hostname := ((parseUrl url).map Url.hostname).getD []
  if hostname ∉ loopback ∧ options.has (js "allow-remote-prover") = false then
    usage (js "the proof server " ++ hostname ++
      js (" is not a loopback address; it would see your " ++
        "witness secrets. Run it locally, or pass --allow-remote-prover for one you control"))
  else return url

/-- The flags of the command line. -/
def toolFlags : FlagSpec where
  valued := {js "network", js "indexer", js "indexer-ws", js "node", js "proof-server",
    js "proof-concurrency", js "wallet-mnemonic-file", js "wallet-cache-file",
    js "sync-timeout-minutes", js "fee-blocks-margin", js "emitter-secret-file",
    js "maintenance-key-file", js "zk-dir", js "register-dust", js "example", js "out",
    js "contract", js "message", js "message-hex", js "message-file", js "digest", js "max-parts",
    js "max-block-fraction", js "ttl-seconds", js "proof-timeout-seconds"}
  switches := {js "json", js "help", js "allow-remote-prover", js "reuse-secret",
    js "reuse-maintenance-key", js "dry-run"}
  repeatable := some {js "message", js "message-hex", js "message-file"}

/-! ### The wallet -/

/-- The settings a wallet is opened with. -/
structure WalletSettings where
  endpoints : Endpoints
  proofServerUrl : JsString
  mnemonicFile : JsString
  dustParameters : Opaque
  syncTimeoutMs : JsNumber
  feeBlocksMargin : JsNumber
  stateCacheFile : Option JsString

/-- The chain commands, and `funding` with its mode. -/
inductive ToolResult where
  | record (record : CommandRecord)
  | funding (identity : PublicWalletIdentity) (balances : WalletBalances)
      (registration : Option DustRegistrationReport)

/-- What happens in a run of the tools. -/
inductive ToolEvent where
  /-- A line on stdout. -/
  | out (line : JsString)
  /-- A line on stderr. -/
  | err (line : JsString)
  /-- The report of a command as JSON on stdout. -/
  | printed (result : ToolResult)
  /-- The indexer is asked for its latest block. -/
  | latestBlock
  /-- A wallet has been opened. -/
  | opened (settings : WalletSettings)
  /-- The wallet has reported a complete sync. -/
  | synced
  /-- The wallet has reported its balances after a complete sync. -/
  | balances
  /-- The wallet has registered its NIGHT for DUST generation, or estimated that. -/
  | registered (mode : RegistrationMode)
  /-- A step of a chain command. -/
  | command (event : CommandEvent)
  /-- The wallet is asked to close. -/
  | closed

/-- All that has happened in a run of the tools. -/
abbrev ToolHistory := List ToolEvent

/-- What the tools need from a wallet. -/
structure ToolWallet where
  identity : PublicWalletIdentity
  coinPublicKey : JsString
  /-- Resolves after a complete sync. -/
  synced : ToolHistory → Except SessionError Unit
  balances : ToolHistory → Except SessionError WalletBalances
  registerForDust : RegistrationMode → ToolHistory → Except SessionError DustRegistrationReport
  close : ToolHistory → Except SessionError Unit

/-! ### The world and the state -/

/-- What the tools are run with. -/
structure ToolWorld where
  /-- `repositoryRoot()`. -/
  root : JsString
  parseUrl : UrlParser
  /-- `Number(text)`. -/
  number : JsString → JsNumber
  files : ToolHistory → FileView
  artifacts : ArtifactTools
  /-- `import(url)` of a generated module. -/
  importModule : (path : JsString) → ToolHistory → Except JsError GeneratedModule
  /-- What comes of each attempt of the query for the latest block, and how many there are. -/
  latestBlock : ToolHistory → ℕ → Fetched (GraphqlBody (Option RawBlock))
  maxAttempts : ℕ
  ledgerParametersFromHex : JsString → Except JsError Opaque
  /-- `parameters.dust`. -/
  dustParameters : Opaque → Opaque
  /-- `WalletSession.open(settings)`. -/
  openWallet : WalletSettings → ToolHistory → Except SessionError ToolWallet
  tools : CommandTools
  machine : Machine
  /-- The state source, the prover, the balancer, the submitter and the indexer of a command. -/
  services : Endpoints → ToolWallet → ToolHistory → ChainServices
  /-- What a service threw at last is a `PublicDataError` of the kind `not-found`, which its text
  does not say. -/
  notFound : History → Bool
  /-- The message of the error of a file-system call. -/
  systemText : Option JsString → JsString

/-- The files of the commands, and what has happened. -/
structure ToolState where
  files : CommandFiles
  events : ToolHistory

/-- What the tools throw. -/
inductive ToolError where
  | usage (error : UsageError)
  | artifact (error : ArtifactError)
  | request (error : RequestError)
  | session (error : SessionError)
  /-- An error of a chain command, and whether it is a `PublicDataError` of the kind `not-found`. -/
  | command (error : CommandError) (notFound : Bool)
  | language (error : JsError)

/-- Code of the tools. -/
abbrev Tool := Action ToolError ToolState

/-- Something happens. -/
def happens (event : ToolEvent) : Tool Unit := fun s =>
  (.ok (), { s with events := s.events ++ [event] })

/-- Check flags. -/
def checkFlags {α : Type} (result : Except UsageError α) : Tool α :=
  MonadLiftT.monadLift (result.mapError ToolError.usage)

/-- Read files. -/
def readFiles {α : Type} (world : ToolWorld) (read : FileView → Except ArtifactError α) :
    Tool α := fun s =>
  ((read (world.files s.events)).mapError .artifact, s)

/-- Ask the wallet. -/
def askWallet {α : Type} (answer : ToolHistory → Except SessionError α) : Tool α := fun s =>
  ((answer s.events).mapError .session, s)

/-- Progress goes to stderr when the report is JSON, and to stdout otherwise. -/
def toolLog (json : Bool) (line : JsString) : Tool Unit :=
  happens (if json then .err line else .out line)

/-- Run a chain command on the files. -/
def runCommand {α : Type} (world : ToolWorld) (command : Command α) : Tool α := fun s =>
  let ended := command ⟨s.files, []⟩
  (ended.1.mapError fun error => .command error (world.notFound ended.2.history),
    ⟨ended.2.files, s.events ++ ended.2.history.map .command⟩)

/-- `indexer.latestBlock()`, and its ledger parameters. -/
def latestParameters (world : ToolWorld) : Tool Opaque := do
  let attempts ← Action.look fun s => world.latestBlock s.events
  happens .latestBlock
  let block ← (((query attempts world.maxAttempts).result >>= fun block =>
    toBlock block (js "latest block")).mapError .request : Except ToolError IndexedBlock)
  match block.ledgerParametersHex with
  | none => Action.fail (.request (.publicData .shape
      (js "the indexer did not return ledger parameters")))
  | some hex => ((world.ledgerParametersFromHex hex).mapError .language : Except ToolError Opaque)

/-! ### Opening the wallet -/

/-- The nearest double to a natural number, to even at a tie. -/
def nearestDouble (n : ℕ) : ℕ :=
  let unit := 2 ^ (n.log2 - 52)
  let more := 2 * (n % unit) > unit ∨ 2 * (n % unit) = unit ∧ n / unit % 2 = 1
  (n / unit + if more then 1 else 0) * unit

/-- `n * factor` of an integer that is not negative. -/
def JsNumber.times (n : JsNumber) (factor : ℕ) : JsNumber :=
  match n with
  | .int value => .int (nearestDouble (value.toNat * factor))
  | .other text => .other text

/-- `Number.MAX_SAFE_INTEGER` as a number. -/
def maxSafeNumber : JsNumber := .int maxSafeInteger

/-- The settings of the wallet, from the command line. -/
def walletSettings (options : Options) (endpoints : Endpoints) (proofServerUrl : JsString)
    (dustParameters : Opaque) : Except UsageError WalletSettings := do
  let stateCacheFile := options.string (js "wallet-cache-file")
  let mnemonicFile ← options.required (js "wallet-mnemonic-file") (js "the wallet mnemonic file")
  let syncTimeout ← options.integer (js "sync-timeout-minutes") (.int 60) (.int (24 * 60)) 1
  let feeBlocksMargin ← options.integer (js "fee-blocks-margin") defaultFeeBlocksMargin
    (.int maxFeeBlocksMargin) 0
  return ⟨endpoints, proofServerUrl, mnemonicFile, dustParameters, syncTimeout.times 60000,
    feeBlocksMargin, stateCacheFile⟩

/-- Open the wallet with the command line's sync, cache and fee-margin settings. -/
def openWallet (world : ToolWorld) (options : Options) (endpoints : Endpoints)
    (proofServerUrl : JsString) (dustParameters : Opaque) : Tool ToolWallet := do
  let settings ← checkFlags (walletSettings options endpoints proofServerUrl dustParameters)
  let wallet ← askWallet (world.openWallet settings)
  happens (.opened settings)
  return wallet

/-- `wallet.close()`. -/
def closeWallet (wallet : ToolWallet) : Tool Unit := do
  happens .closed
  askWallet wallet.close

/-! ### Chain commands -/

/-- The chain commands by their names. -/
inductive ChainCommandName where
  | deploy
  | publish
  | pin
  deriving DecidableEq

/-- One message payload per `--message`, `--message-hex` or `--message-file`. -/
def messageOf (files : FileView) (profile : ToolProfile) (given : JsString × JsString) :
    Except ArtifactError Bytes :=
  if given.1 = js "message" then .ok (profile.encodeText given.2)
  else if given.1 = js "message-hex" then
    let clean := (dropHexPrefix given.2).map asciiLower
    if clean ≠ [] ∧ clean.length % 2 = 0 ∧ clean.all (fun u => hexDigits.contains u) = true then
      .ok (hexPairs clean)
    else .error (.usage ⟨js "--message-hex must be non-empty hex"⟩)
  else files.readExisting given.2 (.usage ⟨js "--message-file " ++ given.2 ++ js " does not exist"⟩)

/-- Load an example's generated binding. -/
def loadGeneratedModule (world : ToolWorld) (profile : ToolProfile) : Tool GeneratedModule :=
  fun s =>
    let path := joinPaths profile.managedDir (js "contract/index.js")
    if (world.files s.events).existsSync path = true then
      ((world.importModule path s.events).mapError .language, s)
    else (.error (.usage ⟨path ++ js " does not exist; run npm run compile first"⟩), s)

/-- The flags of `publish` that the other commands refuse. -/
def publishFlags : List JsString :=
  [js "message", js "message-hex", js "message-file", js "max-parts", js "max-block-fraction",
    js "dry-run"]

/-- Refuse the flags of `publish` in another command. -/
def refusePublishFlags (name : ChainCommandName) (options : Options) : Except UsageError Unit :=
  if name = .publish then .ok ()
  else
    match publishFlags.find? fun flag => (options.parsed.flags.get? flag).isSome with
    | some flag => usage (js "--" ++ flag ++ js " is for publish")
    | none => .ok ()

/-- `--max-block-fraction`, a number in (0, 1]. -/
def blockFraction (world : ToolWorld) (options : Options) : Except UsageError JsNumber :=
  let fraction := ((options.string (js "max-block-fraction")).map world.number).getD (.int 1)
  if fraction.finite?.any (fun value => 0 < value ∧ value ≤ 1) = true then .ok fraction
  else usage (js "--max-block-fraction must be in (0, 1]")

/-- The options of `deploy`. -/
def deployCommand (world : ToolWorld) (options : Options) (profile : ToolProfile) (out : JsString)
    (ttlSeconds : JsNumber) : Tool ChainCommand := do
  let emitterSecretFile ← checkFlags (options.required (js "emitter-secret-file")
    (js "a path for the new emitter secret"))
  let maintenanceKeyFile ← checkFlags (options.required (js "maintenance-key-file")
    (js "a path for the new maintenance signing key"))
  let generated ← loadGeneratedModule world profile
  let verifierKeys ← readFiles world fun files =>
    committedVerifierKeys world.artifacts files profile
  return .deploy {
    profile := profile.toExampleProfile
    generated := generated
    verifierKeys := verifierKeys
    emitterSecretFile := emitterSecretFile
    reuseSecret := some (options.has (js "reuse-secret"))
    maintenanceKeyFile := maintenanceKeyFile
    reuseMaintenanceKey := some (options.has (js "reuse-maintenance-key"))
    ttlSeconds := ttlSeconds
    out := out }

/-- The options of `publish`. -/
def publishCommand (world : ToolWorld) (options : Options) (profile : ToolProfile)
    (out : JsString) (ttlSeconds : JsNumber) (address secretFile : JsString)
    (generated : GeneratedModule) : Tool ChainCommand := do
  let messages ← readFiles world fun files =>
    options.parsed.sequence.mapM (messageOf files profile)
  Action.failIf (messages = [])
    (.usage ⟨js "give at least one --message, --message-hex or --message-file"⟩)
  let maxParts ← checkFlags (options.integer (js "max-parts") defaultMaxParts
    (.int maxPartsCeiling) 1)
  let maxBlockFraction ← checkFlags (blockFraction world options)
  return .publish {
    profile := profile.toExampleProfile
    generated := generated
    address := address
    messages := messages
    secretFile := secretFile
    maxParts := maxParts
    ttlSeconds := ttlSeconds
    maxBlockFraction := some maxBlockFraction
    out := out
    dryRun := some (options.has (js "dry-run")) }

/-- The options of `pin`. -/
def pinCommand (options : Options) (profile : ToolProfile) (out : JsString)
    (ttlSeconds : JsNumber) (address secretFile : JsString) (generated : GeneratedModule) :
    Tool ChainCommand := do
  Action.failIf (profile.name ≠ .noticeBoard)
    (.usage ⟨js "pin is the notice board's circuit: --example notice-board"⟩)
  let digest ← checkFlags (do
    hex32 (← options.required (js "digest") (js "the digest to pin")) (js "digest"))
  return .pin {
    profile := profile.toExampleProfile
    generated := generated
    address := address
    digest := hexPairs digest
    secretFile := secretFile
    ttlSeconds := ttlSeconds
    out := out }

/-- A chain command with its options, before a wallet is opened. -/
def chainCommand (world : ToolWorld) (name : ChainCommandName) (options : Options)
    (profile : ToolProfile) : Tool ChainCommand := do
  let out ← checkFlags (options.required (js "out") (js "a path for the public record"))
  let ttlSeconds ← checkFlags (options.integer (js "ttl-seconds") defaultTtlSeconds
    defaultMaxTtlSeconds 1)
  checkFlags (refusePublishFlags name options)
  match name with
  | .deploy => deployCommand world options profile out ttlSeconds
  | .publish | .pin => do
    let address ← checkFlags (do
      hex32 (← options.required (js "contract") (js "the contract address")) (js "contract"))
    let secretFile ← checkFlags (options.required (js "emitter-secret-file")
      (js "the emitter secret file"))
    let generated ← loadGeneratedModule world profile
    if name = .publish then
      publishCommand world options profile out ttlSeconds address secretFile generated
    else pinCommand options profile out ttlSeconds address secretFile generated

/-- The prover of a command: its artifacts and its flag are checked. -/
def checkProver (world : ToolWorld) (options : Options) (profile : ToolProfile) : Tool Unit := do
  let zkDir := (options.string (js "zk-dir")).getD profile.zkDir
  readFiles world fun files => checkArtifacts world.artifacts files profile zkDir
  let _ ← checkFlags (options.integer (js "proof-concurrency") (.int 4) (.int 64) 1)

/-- `wallet.synced()`; the wallet is closed when it throws. -/
def awaitSynced (wallet : ToolWallet) : Tool Unit :=
  Action.catching
    (do
      askWallet wallet.synced
      happens .synced)
    fun error => do
      closeWallet wallet
      Action.fail error

/-- Open what a chain command needs.  The flag of the proof timeout is read at the end. -/
def openChainServices (world : ToolWorld) (options : Options) (profile : ToolProfile)
    (proves json : Bool) : Tool (ChainServices × ToolWallet) := do
  let endpoints ← checkFlags (resolveEndpoints world.parseUrl options)
  let proofServer ← checkFlags (resolveProofServer world.parseUrl options)
  Action.runUnless (!proves) (checkProver world options profile)
  let parameters ← latestParameters world
  toolLog json (js "opening wallet     (syncing with " ++ endpoints.indexer ++ js ")")
  let wallet ← openWallet world options endpoints proofServer (world.dustParameters parameters)
  awaitSynced wallet
  let services ← Action.look fun s => world.services endpoints wallet s.events
  let proofTimeout ← checkFlags (options.integer (js "proof-timeout-seconds") (.int 900)
    maxSafeNumber 1)
  return ({ services with
    network := endpoints.network
    coinPublicKey := wallet.coinPublicKey
    proofTimeoutMs := proofTimeout.times 1000
    requireProofs := true
    allowSecretsInRepository := none
    log := fun _ _ => .ok () }, wallet)

/-- Run `deploy`, `publish` or `pin`. -/
def runChainCommand (world : ToolWorld) (name : ChainCommandName) (options : Options)
    (json : Bool) : Tool ℕ := do
  let profile ← checkFlags (profileOf world.root (options.string (js "example")))
  let command ← chainCommand world name options profile
  let opened ← openChainServices world options profile (decide (name ≠ .deploy)) json
  Action.ending
    (do
      let record ← runCommand world (command.run world.tools world.machine opened.1)
      Action.runUnless (!json) (happens (.printed (.record record)))
      return 0)
    (closeWallet opened.2)

/-! ### Funding -/

/-- Run a wallet step that needs a complete sync. -/
def whenSynced {α : Type} (json : Bool) (step : ToolHistory → Except SessionError α) : Tool α :=
  Action.catching (askWallet step) fun error =>
    match error with
    | .session (.notSynced error) => do
      toolLog json (js "not synced         " ++ error.detail ++ js "; " ++ error.reason)
      toolLog json
        (js "                   no balance is shown before the sync is complete; run it again")
      Action.fail (.command (.commandFailure
        (js ("the wallet is not synced, so its balances are " ++
          "unknown (not zero); run `funding` again, with --wallet-cache-file to resume"))) false)
    | error => Action.fail error

/-- The line about a NIGHT UTxO. -/
def utxoLine (utxo : NightUtxo) : JsString :=
  js "  UTxO " ++ utxo.intentHash ++ js "#" ++ decimal utxo.outputNo ++ js " " ++
    decimal utxo.value ++ js " STAR, created " ++ utxo.ctime ++ js ", DUST registration " ++
    (if utxo.registeredForDustGeneration then js "yes" else js "no")

/-- The name of a mode of registration. -/
def RegistrationMode.text : RegistrationMode → JsString
  | .estimate => js "estimate"
  | .register => js "register"

/-- The line about a registration. -/
def registrationLine (report : DustRegistrationReport) : JsString :=
  js "DUST registration  " ++ report.mode.text ++ js ": " ++ decimal report.unregistered ++
    js " unregistered UTxO" ++
    (report.fee.map fun fee => js ", fee " ++ decimal fee ++ js " SPECK").getD [] ++
    (report.transactionId.map fun id => js ", transaction " ++ id).getD [] ++
    (report.note.map fun note => js " (" ++ note ++ js ")").getD []

/-- Log lines, one after another. -/
def toolLogAll (json : Bool) : List JsString → Tool Unit
  | [] => pure ()
  | line :: lines => do
    toolLog json line
    toolLogAll json lines

/-- Print the wallet's public addresses and balances; optionally register NIGHT for DUST. -/
def runFunding (wallet : ToolWallet) (mode : Option RegistrationMode) (json : Bool) :
    Tool ToolResult := do
  let identity := wallet.identity
  toolLogAll json
    [js "network            " ++ identity.networkId,
      js "unshielded address " ++ identity.unshieldedAddress,
      js "shielded address   " ++ identity.shieldedAddress,
      js "DUST address       " ++ identity.dustAddress,
      js "coin public key    " ++ identity.coinPublicKey]
  let balances ← whenSynced json wallet.balances
  happens .balances
  toolLogAll json
    ([js "NIGHT              " ++ decimal balances.night ++ js " STAR (" ++
        decimal balances.nightUtxos.length ++ js " UTxO)"] ++
      balances.nightUtxos.map utxoLine ++
      [js "DUST               " ++ decimal balances.dust ++ js " SPECK"])
  match mode with
  | none => return .funding identity balances none
  | some mode => do
    let report ← whenSynced json (wallet.registerForDust mode)
    happens (.registered mode)
    toolLog json (registrationLine report)
    return .funding identity balances (some report)

/-- The mode of `--register-dust`, if it is given. -/
def registrationMode (options : Options) : Except UsageError (Option RegistrationMode) :=
  match options.string (js "register-dust") with
  | none => .ok none
  | some text =>
    if text = js "estimate" then .ok (some .estimate)
    else if text = js "register" then .ok (some .register)
    else usage (js "--register-dust is estimate or register")

/-- Run `funding`. -/
def runFundingCommand (world : ToolWorld) (options : Options) (json : Bool) : Tool ℕ := do
  let mode ← checkFlags (registrationMode options)
  let endpoints ← checkFlags (resolveEndpoints world.parseUrl options)
  let proofServer ← checkFlags (resolveProofServer world.parseUrl options)
  let parameters ← latestParameters world
  let wallet ← openWallet world options endpoints proofServer (world.dustParameters parameters)
  Action.ending
    (do
      let report ← runFunding wallet mode json
      Action.runUnless (!json) (happens (.printed report))
      return 0)
    (closeWallet wallet)

/-! ### The command line -/

/-- `USAGE`. -/
def toolUsage : JsString :=
  js "deploy-tools — deploy and exercise this repository's examples on a live network
(not part of the library; run from a clone after npm ci, npm run compile and, for
publish and pin, npm run compile:zk)

  npm run deploy-tools -- funding [--register-dust estimate|register]
  npm run deploy-tools -- deploy  --example emitter|notice-board --out <new record.json>
                                  --emitter-secret-file <new path> --maintenance-key-file <new path>
                                  [--reuse-secret] [--reuse-maintenance-key]
  npm run deploy-tools -- publish --example emitter|notice-board --contract <address>
                                  (--message <text> | --message-hex <hex> | --message-file <path>)...
                                  --emitter-secret-file <path> --out <new record.json>
                                  [--max-parts <n>] [--max-block-fraction <f>] [--dry-run]
  npm run deploy-tools -- pin     --example notice-board --contract <address> --digest <64 hex>
                                  --emitter-secret-file <path> --out <new record.json>

publish: every message is one package (256-byte parts, the last zero-padded) in an intent
of its own; several messages go into ONE transaction, one intent each. --message is text
in the example's format (emitter: UTF-8; notice-board: 4-byte big-endian length, then
UTF-8); --message-hex and --message-file are the payload bytes. The record (finalized
public bytes, identifiers, each package's segment and intent hash) is written before the
one submission; after inclusion every package is verified from the raw bytes.
Default part cap " ++
  defaultMaxParts.text ++
  js " (--max-parts up to " ++
  decimal maxPartsCeiling ++
  js "; the block limits decide the real maximum).

Network (flag or environment variable; defaults are stagenet's public endpoints):
  --network CMSE_NETWORK (stagenet)   --indexer CMSE_INDEXER_URL   --indexer-ws CMSE_INDEXER_WS_URL
  --node CMSE_NODE_URL                --proof-server CMSE_PROOF_SERVER_URL (loopback only, unless
  --allow-remote-prover)              --proof-concurrency CMSE_PROOF_CONCURRENCY (4)
  --zk-dir CMSE_ZK_DIR (build/zk/<example>, from npm run compile:zk)
  --ttl-seconds (" ++
  defaultTtlSeconds.text ++
  js ", at most " ++
  defaultMaxTtlSeconds.text ++
  js ")   --proof-timeout-seconds (900)
Secrets (paths only; files are mode 0600, outside every Git working tree):
  --wallet-mnemonic-file CMSE_WALLET_MNEMONIC_FILE   --emitter-secret-file CMSE_EMITTER_SECRET_FILE
  --maintenance-key-file CMSE_MAINTENANCE_KEY_FILE
Wallet sync (every command waits for a COMPLETE sync of the shielded, unshielded and DUST
wallets; a first sync downloads every ledger event and can take long):
  --sync-timeout-minutes CMSE_SYNC_TIMEOUT_MINUTES (60)   progress is printed every 30 s;
  --wallet-cache-file CMSE_WALLET_CACHE_FILE (optional; mode 0600, outside every Git working tree)
      saves the synced wallet state and restores it on the next run. It holds private wallet
      data (no keys): protect it like a secret file.
If the sync does not complete in time the command prints \"not synced\" and exits 1; balances
are never printed from an incomplete sync.
Wallet fees: --fee-blocks-margin CMSE_FEE_BLOCKS_MARGIN (5; an integer from 0 to 100)
  the wallet declares, and the ledger consumes, the fee the transaction would need after
  the fee prices rose for this many blocks (up to about 4.6% per block on stagenet: 5
  blocks ≈ ×1.25 the required fee, 100 blocks ≈ ×89). Too small a margin can get a
  transaction refused when prices rise before it is included.
Output: --json prints the public record as JSON on stdout (progress goes to stderr).

Exit status: 0 success; 1 a check or transaction failed (or the wallet is not synced);
2 usage or input error; 3 not found.
"

/-- The kinds of errors `toolMain` tells apart. -/
inductive FailureKind where
  | notSynced
  | usage
  | input
  | notFound
  | failed
  deriving DecidableEq

/-- The kind of an error of the language. -/
def JsError.failureKind : JsError → FailureKind
  | .rangeError _ => .input
  | .error _ | .packageCheckError _ _ => .failed

/-- The kind of an error of a file. -/
def FileError.failureKind : FileError → FailureKind
  | .secretFileError _ _ | .walletCacheError _ _ => .input
  | .language error => error.failureKind
  | .system _ => .failed

/-- The kind of an error. -/
def ToolError.kind : ToolError → FailureKind
  | .usage _ | .artifact (.usage _) => .usage
  | .artifact (.file error) | .session (.file error) | .command (.file error) _ => error.failureKind
  | .artifact (.language error) | .session (.language error) | .language error =>
    error.failureKind
  | .artifact (.mismatch _) | .artifact (.verifierKeyMismatch _) => .failed
  | .request (.publicData .notFound _) => .notFound
  | .request _ => .failed
  | .session (.notSynced _) => .notSynced
  | .session (.facade _) => .failed
  | .command (.commandFailure _) _ => .failed
  | .command (.library error) notFound => if notFound then .notFound else error.failureKind

/-- The message of an error of a file. -/
def fileMessage (world : ToolWorld) : FileError → JsString
  | .system code => world.systemText code
  | .language error => error.message
  | .secretFileError path detail => js "secret file " ++ path ++ js ": " ++ detail
  | .walletCacheError path detail => js "wallet cache " ++ path ++ js ": " ++ detail

/-- `error.message`. -/
def ToolError.message (world : ToolWorld) : ToolError → JsString
  | .usage error | .artifact (.usage error) => error.message
  | .artifact (.file error) | .session (.file error) | .command (.file error) _ =>
    fileMessage world error
  | .artifact (.language error) | .session (.language error) | .language error => error.message
  | .artifact (.mismatch detail) | .artifact (.verifierKeyMismatch detail) => detail
  | .request (.publicData _ detail) => detail
  | .request (.uncaught text) => text
  | .session (.notSynced error) => error.message
  | .session (.facade text) => text
  | .command (.commandFailure message) _ => message
  | .command (.library error) _ => error.message

/-- The exit status of an error. -/
def FailureKind.status : FailureKind → ℕ
  | .notSynced | .failed => 1
  | .usage | .input => 2
  | .notFound => 3

/-- The lines about an error. -/
def FailureKind.lines (kind : FailureKind) (message : JsString) : List JsString :=
  match kind with
  | .notSynced => [js "not synced: " ++ message]
  | .usage => [js "error: " ++ message, js "run `npm run deploy-tools -- --help` for usage"]
  | .input => [js "error: " ++ message]
  | .notFound => [js "not found: " ++ message]
  | .failed => [js "failed: " ++ message]

/-- A chain command by its name. -/
def chainCommandName? (text : JsString) : Option ChainCommandName :=
  [(js "deploy", .deploy), (js "publish", .publish), (js "pin", .pin)].lookup text

/-- The options of a command line. -/
def toolOptions (parsed : ParsedArgs) (env : JsString → Option JsString) : Options :=
  ⟨parsed, env, toolEnvForFlag⟩

/-- What a parsed command line asks for. -/
def runParsed (world : ToolWorld) (parsed : ParsedArgs) (env : JsString → Option JsString) :
    Tool ℕ := do
  let options := toolOptions parsed env
  let json := options.has (js "json")
  if options.has (js "help") = true ∨ parsed.command = some (js "help") then do
    happens (.out toolUsage)
    return 0
  else
    match parsed.command with
    | none => do
      happens (.err toolUsage)
      return 2
    | some command =>
      if command = js "funding" then runFundingCommand world options json
      else
        match chainCommandName? command with
        | some name => runChainCommand world name options json
        | none => Action.fail (.usage ⟨js "unknown command '" ++ command ++ js "'"⟩)

/-- The `try` block of `main`. -/
def tryTool (world : ToolWorld) (argv : List JsString) (env : JsString → Option JsString) :
    Tool ℕ := do
  let parsed ← checkFlags (parseArgs argv toolFlags)
  runParsed world parsed env

/-- Run the deploy tools: the exit status, and what has happened. -/
def toolMain (world : ToolWorld) (argv : List JsString) (env : JsString → Option JsString)
    (s : ToolState) : ℕ × ToolState :=
  match tryTool world argv env s with
  | (.ok status, s') => (status, s')
  | (.error error, s') =>
    (error.kind.status,
      { s' with events := s'.events ++
          (error.kind.lines (error.message world)).map ToolEvent.err })

end MultiPartEvent
