import MultiPartEvent.DeployTools.CircuitCall
import MultiPartEvent.DeployTools.Deploy
import MultiPartEvent.DeployTools.WalletCache

/-!
# What the chain commands work on

A chain command changes files and calls the services it is given.  Its state is the files and the
history: every call with the files of that moment, and every file written.  Services and the machine
answer by the history, so two calls alike may be answered differently and any step may fail.

A record is written to a temporary file, which is then renamed; so the file at the record's path
holds a whole record or what it held before (`writeRecord_returns`).
-/

namespace MultiPartEvent

/-! ### Records -/

/-- The examples the tools know. -/
inductive ExampleName where
  | emitter
  | noticeBoard
  deriving DecidableEq

/-- The text of an example's name. -/
def ExampleName.text : ExampleName → JsString
  | .emitter => js "emitter"
  | .noticeBoard => js "notice-board"

/-- An example, as far as the commands use it. -/
structure ExampleProfile where
  name : ExampleName
  /-- The event name N the example's protocol opted into the multi-part rule. -/
  eventName : JsString
  /-- The emitting circuit. -/
  entryPoint : JsString

/-- A transaction the chain included. -/
structure IncludedTransaction where
  hash : JsString
  rawHex : JsString
  status : JsString
  identifiers : List JsString
  blockHeight : JsNumber
  blockHash : JsString

/-- How far a command has come. -/
inductive Stage where
  | built
  | finalized
  | submitted
  | included
  | verified
  deriving DecidableEq

/-- Public deployment record. -/
structure DeploymentRecord where
  stage : Stage
  exampleName : ExampleName
  eventName : JsString
  network : JsString
  address : JsString
  operations : List JsString
  verifierKeySha256 : InsertionMap JsString JsString
  maintenanceVerifyingKey : SignatureVerifyingKey
  /-- The public authority commitment of the example whitelist. -/
  emitterAuthority : JsString
  finalized : Option FinalizedTransactionRecord
  submittedId : Option JsString
  inclusion : Option IncludedTransaction

/-- Size and SHA-256 of a message. -/
structure MessageDigest where
  bytes : ℕ
  sha256 : JsString

/-- One package's outcome after inclusion. -/
structure PublishedPackage where
  segment : JsNumber
  parts : ℕ
  /-- The package verified from the included raw bytes: placement and merged payload. -/
  verified : Bool
  issues : List JsString

/-- Public publication record. -/
structure PublicationRecord where
  stage : Stage
  exampleName : ExampleName
  eventName : JsString
  network : JsString
  contract : JsString
  messages : List MessageDigest
  /-- The finalized public bytes, identifiers and each package's intent. -/
  finalized : FinalizedRecord
  /-- Normalized cost of the finalized transaction (fractions of a block). -/
  normalizedCost : List (JsString × ℚ)
  submittedId : Option JsString
  inclusion : Option IncludedTransaction
  /-- Others merged intents into the transaction before inclusion. -/
  merged : Option Bool
  packages : Option (List PublishedPackage)

/-- Public record of a pin. -/
structure PinRecord where
  stage : Stage
  network : JsString
  contract : JsString
  digest : JsString
  finalized : FinalizedTransactionRecord
  submittedId : Option JsString
  inclusion : Option IncludedTransaction
  pinnedCount : Option JsString

/-- A record of one of the commands. -/
inductive CommandRecord where
  | deployment (record : DeploymentRecord)
  | publication (record : PublicationRecord)
  | pin (record : PinRecord)

/-- The stage of a record. -/
def CommandRecord.stage : CommandRecord → Stage
  | .deployment record => record.stage
  | .publication record => record.stage
  | .pin record => record.stage

/-- The recorded bytes of the finalized transaction, as hex. -/
def CommandRecord.transactionHex? : CommandRecord → Option JsString
  | .deployment record => record.finalized.map FinalizedTransactionRecord.transactionHex
  | .publication record => some record.finalized.transactionHex
  | .pin record => some record.finalized.transactionHex

/-! ### State -/

/-- What a file holds: the text of a record, or something else. -/
inductive FileContent where
  | record (record : CommandRecord)
  | other

/-- The files, by their paths. -/
abbrev CommandFiles := JsString → Option FileContent

/-- A call of a service. -/
inductive ServiceCall where
  | currentParameters
  /-- The state source is read for a transaction that is being built. -/
  | stateSource
  | provider (call : ProviderCall)
  | submitTx (tx : Transaction)
  | waitForInclusion (identifiers : List JsString) (timeoutMs : JsNumber)
  | contractState (address : JsString)
  | log (line : JsString)

/-- What happens in a command: a call, with the files of that moment, or a file that is written. -/
inductive CommandEvent where
  | called (call : ServiceCall) (files : CommandFiles)
  | wrote (path : JsString) (content : FileContent)

/-- What has happened so far. -/
abbrev History := List CommandEvent

/-- The files, and what has happened. -/
structure CommandState where
  files : CommandFiles
  history : History

/-- What a command throws. -/
inductive CommandError where
  /-- `CommandFailure`. -/
  | commandFailure (message : JsString)
  /-- An error of the library, of the language or of a service. -/
  | library (error : JsError)
  | file (error : FileError)

/-- Code of a command. -/
abbrev Command := Action CommandError CommandState

/-- Code that changes nothing. -/
def compute {α : Type} (result : Except JsError α) : Command α :=
  MonadLiftT.monadLift (result.mapError CommandError.library)

/-- A value that must be there. -/
def required {α : Type} (value : Option α) (message : JsString) : Except CommandError α :=
  match value with
  | some a => .ok a
  | none => .error (.commandFailure message)

/-! ### Files -/

/-- How writing a file turns out: done, or failed with a part of it left or not. -/
inductive WriteOutcome where
  | done
  | failed (error : FileError) (left : Bool)

/-- The machine a command runs on: how its file-system calls turn out, its clock and its
randomness. -/
structure Machine where
  /-- `process.pid`. -/
  pid : ℕ
  /-- `Date.now()`. -/
  now : History → ℕ
  /-- `randomBytes(32)`. -/
  randomBytes : History → Bytes
  writeFileSync : History → (path : JsString) → WriteOutcome
  /-- The error of `renameSync`, if it fails. -/
  renameSync : History → (source target : JsString) → Option FileError
  /-- `writeSecretFile` on a path where there is no file. -/
  writeSecretFile : History → (path content : JsString) → (allowInsideRepository : Bool) →
    WriteOutcome
  readProtectedFile : History → (path : JsString) → Except FileError JsString

/-- The state after a file is written. -/
def CommandState.wrote (s : CommandState) (path : JsString) (content : FileContent) :
    CommandState where
  files other := if other = path then some content else s.files other
  history := s.history ++ [.wrote path content]

/-- The state without a file. -/
def CommandState.without (s : CommandState) (path : JsString) : CommandState :=
  { s with files := fun other => if other = path then none else s.files other }

/-- Write a file as it turns out. -/
def writeAs (outcome : WriteOutcome) (path : JsString) (content : FileContent) :
    Command Unit := fun s =>
  match outcome with
  | .done => (.ok (), s.wrote path content)
  | .failed error left => (.error (.file error), if left then s.wrote path .other else s)

/-- `writeFileSync(path, text)`. -/
def writeFileSync (machine : Machine) (path : JsString) (content : FileContent) :
    Command Unit := fun s =>
  writeAs (machine.writeFileSync s.history path) path content s

/-- `renameSync(source, target)`. -/
def renameSync (machine : Machine) (source target : JsString) : Command Unit := fun s =>
  match machine.renameSync s.history source target, s.files source with
  | some error, _ => (.error (.file error), s)
  | none, none => (.error (.file (.system (some (js "ENOENT")))), s)
  | none, some content => (.ok (), (s.without source).wrote target content)

/-- `writeRecord(path, record)`. -/
def writeRecord (machine : Machine) (path : JsString) (record : CommandRecord) : Command Unit := do
  let temporary := path ++ js ".tmp-" ++ decimal machine.pid
  writeFileSync machine temporary (.record record)
  renameSync machine temporary path

/-- `assertNewRecord(path)`. -/
def assertNewRecord (path : JsString) : Command Unit := do
  let found ← Action.look fun s => (s.files path).isSome
  Action.failIf (found = true)
    (.commandFailure (js "the record " ++ path ++ js " already exists; choose a new path"))

/-- `writeSecretFile(path, content, options)`, by how it turns out; an existing file is never
overwritten. -/
def createSecretFile (machine : Machine) (path content : JsString) (allowInsideRepository : Bool) :
    Command Unit := fun s =>
  match machine.writeSecretFile s.history path content allowInsideRepository,
    (s.files path).isSome with
  | .done, true =>
    (.error (.file (.secretFileError path (js "already exists; refusing to overwrite it"))), s)
  | .failed error _, true => (.error (.file error), s)
  | outcome, false => writeAs outcome path .other s

/-- `createWitnessSecretFile(path, options)`. -/
def createWitnessSecretFile (machine : Machine) (path : JsString) (allowInsideRepository : Bool) :
    Command Unit := do
  let secret ← Action.look fun s => machine.randomBytes s.history
  createSecretFile machine path (bytesToHex secret ++ js "\n") allowInsideRepository

/-- `readProtectedFile(path)`. -/
def readProtected (machine : Machine) (path : JsString) : Command JsString := do
  let text ← Action.look fun s => machine.readProtectedFile s.history path
  (text.mapError .file : Except CommandError JsString)

/-- `readWitnessSecret(path)`. -/
def readWitnessSecret (machine : Machine) (path : JsString) : Command Bytes := do
  let text := trimText (← readProtected machine path)
  Action.failIf (isAddress text = false)
    (.file (.secretFileError path (js "does not hold exactly 64 lowercase hex characters")))
  return hexPairs text

/-- A ledger signing key as stored in a protected file. -/
structure StoredSigningKey where
  tag : JsString
  value : JsString

/-- `writeSigningKeyFile(path, key, options)`. -/
def writeSigningKeyFile (machine : Machine) (path : JsString) (key : StoredSigningKey)
    (allowInsideRepository : Bool) : Command Unit :=
  createSecretFile machine path ((Json.object [(js "kind", .string (js "maintenance-signing-key")),
    (js "tag", .string key.tag), (js "value", .string key.value)]).stringify ++ js "\n")
      allowInsideRepository

/-- The signing key of the text of its file. -/
def signingKeyOf (path text : JsString) : Except FileError StoredSigningKey :=
  match readJson text with
  | none => .error (.secretFileError path (js "is not JSON"))
  | some .null => .error (.language (.error (js "Cannot read properties of null (reading 'kind')")))
  | some (.object members) =>
    match isText (member? members (js "kind")) (js "maintenance-signing-key"),
      member? members (js "tag"), member? members (js "value") with
    | true, some (.string tag), some (.string value) => .ok ⟨tag, value⟩
    | _, _, _ => .error (.secretFileError path (js "is not a maintenance signing key file"))
  | some _ => .error (.secretFileError path (js "is not a maintenance signing key file"))

/-- `readSigningKeyFile(path)`. -/
def readSigningKeyFile (machine : Machine) (path : JsString) : Command StoredSigningKey := do
  let text ← readProtected machine path
  ((signingKeyOf path text).mapError .file : Except CommandError StoredSigningKey)

/-! ### Services -/

/-- What the chain commands are given. -/
structure ChainServices where
  network : JsString
  coinPublicKey : JsString
  proofTimeoutMs : JsNumber
  /-- False only for offline tests with stand-in providers. -/
  requireProofs : Bool
  /-- Secret files may be created inside a Git working tree. -/
  allowSecretsInRepository : Option Bool
  stateSource : History → PublicationStateSource
  /-- The latest block and its ledger parameters. -/
  currentParameters : History → Except JsError (PinnedBlock × Opaque)
  providers : History → Providers
  submitTx : History → Transaction → Except JsError JsString
  /-- A transaction carrying any of these identifiers, or none after the timeout. -/
  waitForInclusion : History → (identifiers : List JsString) → (timeoutMs : JsNumber) →
    Except JsError (Option IncludedTransaction)
  /-- The contract's current serialized state, if it exists. -/
  contractState : History → (address : JsString) → Except JsError (Option Bytes)
  log : History → (line : JsString) → Except JsError Unit

/-- `secretOptions(services)`. -/
def ChainServices.secretOptions (services : ChainServices) : Bool :=
  services.allowSecretsInRepository = some true

/-- A run that calls services, answered as of its start. -/
def callServices {κ α : Type} (call : κ → ServiceCall) (run : History → Run κ α) :
    Command α := fun s =>
  ((run s.history).result.mapError .library,
    { s with history := s.history ++ (run s.history).calls.map fun c => .called (call c) s.files })

/-- One call of a service and its answer. -/
def ask {α : Type} (call : ServiceCall) (answer : History → Except JsError α) : Command α :=
  callServices id fun history => Run.call call (answer history)

/-- `services.log(line)`. -/
def logLine (services : ChainServices) (line : JsString) : Command Unit :=
  ask (.log line) fun history => services.log history line

/-- `services.waitForInclusion(identifiers, timeoutMs)`. -/
def waitForInclusion (services : ChainServices) (identifiers : List JsString)
    (timeoutMs : JsNumber) : Command (Option IncludedTransaction) :=
  ask (.waitForInclusion identifiers timeoutMs) fun history =>
    services.waitForInclusion history identifiers timeoutMs

/-- `services.contractState(address)`. -/
def contractState (services : ChainServices) (address : JsString) : Command (Option Bytes) :=
  ask (.contractState address) fun history => services.contractState history address

/-- `inclusionTimeout(ttl)`. -/
def inclusionTimeout (machine : Machine) (ttl : JsDate) : Command JsNumber :=
  Action.look fun s =>
    match ttl.time with
    | some time => .int (max 60000 (time - machine.now s.history + 60000))
    | none => .other ⟨js "NaN", Or.inr (by decide)⟩

end MultiPartEvent
