import MultiPartEvent.DeployTools.CommandState

/-!
# The chain commands

`runDeploy`, `runPublish` and `runPin` build a transaction, finalize it, write their record, submit
the recorded bytes, wait for the inclusion and check what the chain shows.  Every secret is
overwritten afterwards, which no later step sees; so the code that does is left out.
-/

namespace MultiPartEvent

/-! ### What the commands use -/

/-- A value of the generated code. -/
inductive RuntimeValue where
  | bytes (value : Bytes)
  | bigint (value : ℤ)
  /-- Anything else, `undefined` too. -/
  | other

/-- Private state that answers the `emitterSecret` witness. -/
structure EmitterPrivateState where
  emitterSecret : Bytes

/-- A generated circuit: its context and one argument. -/
abbrev GeneratedCircuit :=
  CircuitContext EmitterPrivateState → Bytes → Except JsError CircuitResults

/-- An instance of the generated contract class. -/
structure GeneratedContract where
  impureCircuits : JsString → Option GeneratedCircuit
  /-- The serialized state of `initialState(context, authority)`. -/
  initialState : (coinPublicKey : JsString) → (authority : Bytes) → Except JsError Bytes

/-- A generated contract module. -/
structure GeneratedModule where
  /-- `new Contract(emitterWitnesses)`. -/
  contract : Except JsError GeneratedContract
  ledger : (state : Opaque) → Except JsError (JsString → RuntimeValue)
  /-- `pureCircuits.emitterAuthorityOf`. -/
  emitterAuthorityOf : Option ((secret : Bytes) → Except JsError RuntimeValue)

/-- What the commands take from outside the repository. -/
structure CommandTools where
  assembly : AssemblyEnv
  deploy : DeployEnv
  /-- `parameters.normalizeFullness(tx.cost(parameters, true))`. -/
  normalizedCost : Transaction → Opaque → Except JsError (List (JsString × ℚ))
  /-- `fraction.toFixed(4)`. -/
  toFixed : ℚ → JsString
  sha256 : Bytes → Bytes
  sampleSigningKey : History → StoredSigningKey
  signatureVerifyingKey : StoredSigningKey → Except JsError SignatureVerifyingKey

/-- What finalization takes from outside the repository. -/
def CommandTools.finalizeEnv (tools : CommandTools) : FinalizeEnv :=
  ⟨tools.assembly.ledger, tools.normalizedCost, tools.toFixed⟩

/-- `verifierKeySha256(bytes)`. -/
def CommandTools.verifierKeySha256 (tools : CommandTools) (bytes : Bytes) : JsString :=
  bytesToHex (tools.sha256 bytes)

/-- `generated.ledger(RuntimeContractState.deserialize(stateBytes).data)`. -/
def ledgerView (tools : CommandTools) (generated : GeneratedModule) (stateBytes : Bytes) :
    Except JsError (JsString → RuntimeValue) := do
  generated.ledger (← tools.assembly.runtimeState stateBytes)

/-- `value instanceof Uint8Array && bytesEqual(value, expected)`. -/
def RuntimeValue.isBytes (value : RuntimeValue) (expected : Bytes) : Bool :=
  match value with
  | .bytes actual => bytesEqual actual expected
  | _ => false

/-- What `runDeploy` works with. -/
structure DeployOptions where
  profile : ExampleProfile
  generated : GeneratedModule
  verifierKeys : InsertionMap JsString Bytes
  emitterSecretFile : JsString
  reuseSecret : Option Bool
  maintenanceKeyFile : JsString
  reuseMaintenanceKey : Option Bool
  ttlSeconds : JsNumber
  /-- Public deployment record, rewritten at every stage. -/
  out : JsString

/-- What `runPublish` works with. -/
structure PublishOptions where
  profile : ExampleProfile
  generated : GeneratedModule
  address : JsString
  /-- One payload per package, in order. -/
  messages : List Bytes
  secretFile : JsString
  maxParts : JsNumber
  ttlSeconds : JsNumber
  /-- Largest fraction of a block any cost dimension may use (default 1). -/
  maxBlockFraction : Option JsNumber
  /-- Public record, written before submission. -/
  out : JsString
  /-- Build, prove, balance and record, but do not submit. -/
  dryRun : Option Bool

/-- What `runPin` works with. -/
structure PinOptions where
  profile : ExampleProfile
  generated : GeneratedModule
  address : JsString
  /-- The 32-byte digest to pin. -/
  digest : Bytes
  secretFile : JsString
  ttlSeconds : JsNumber
  /-- Public record, written before submission. -/
  out : JsString

/-- Wait for a transaction with one of the identifiers; it is an error that there is none. -/
def reportedInclusion (machine : Machine) (services : ChainServices) (identifiers : List JsString)
    (ttl : JsDate) (notSeen : JsString) : Command IncludedTransaction := do
  let inclusion ← waitForInclusion services identifiers (← inclusionTimeout machine ttl)
  (required inclusion notSeen : Except CommandError IncludedTransaction)

/-- The line about an inclusion. -/
def includedLine (inclusion : IncludedTransaction) : JsString :=
  js "included           " ++ inclusion.hash ++ js " at block " ++ inclusion.blockHeight.text ++
    js ", status " ++ inclusion.status

/-- `SUCCESS`, the status of a transaction that was applied as a whole. -/
def success : JsString := js "SUCCESS"

/-! ### Deploy -/

/-- `EMITTER_AUTHORITY_TAG`. -/
def emitterAuthorityTag : JsString := js "example:emitter-authority:v1"

/-- `SECRET_LENGTH`. -/
def secretLength : ℕ := 32

/-- `emitterAuthorityOf(secret)`. -/
def emitterAuthorityOf (sha256 : Bytes → Bytes) (secret : Bytes) : Except JsError Bytes := do
  throwIf (secret.length ≠ secretLength)
    (.rangeError (js "secret must be " ++ decimal secretLength ++ js " bytes"))
  return sha256 (zeroExtend secretLength (textEncode emitterAuthorityTag) ++ secret)

/-- The emitter secret's authority, as the client and the contract compute it. -/
def deployAuthority (tools : CommandTools) (machine : Machine) (services : ChainServices)
    (options : DeployOptions) : Command Bytes := do
  Action.runUnless (options.reuseSecret = some true)
    (createWitnessSecretFile machine options.emitterSecretFile services.secretOptions)
  let secret ← readWitnessSecret machine options.emitterSecretFile
  let authority ← compute (emitterAuthorityOf tools.sha256 secret)
  let onChainRule ← compute (match options.generated.emitterAuthorityOf with
    | some rule => rule secret
    | none => .ok .other)
  Action.failIf (onChainRule.isBytes authority = false)
    (.commandFailure (js "the contract's emitterAuthorityOf disagrees with the client's"))
  return authority

/-- The verifying key of the maintenance signing key. -/
def maintenanceKey (tools : CommandTools) (machine : Machine) (services : ChainServices)
    (options : DeployOptions) : Command SignatureVerifyingKey := do
  Action.runUnless (options.reuseMaintenanceKey = some true) (do
    let key ← Action.look fun s => tools.sampleSigningKey s.history
    writeSigningKeyFile machine options.maintenanceKeyFile key services.secretOptions)
  let signingKey ← readSigningKeyFile machine options.maintenanceKeyFile
  compute (tools.signatureVerifyingKey signingKey)

/-- A deployment with the block and the parameters it is built on. -/
structure PinnedDeploy where
  built : BuiltDeploy
  block : PinnedBlock
  ledgerParameters : Opaque

/-- Build the deployment of the constructed state. -/
def buildDeployment (tools : CommandTools) (services : ChainServices) (options : DeployOptions)
    (authority : Bytes) (maintenanceVerifyingKey : SignatureVerifyingKey) :
    Command PinnedDeploy := do
  let contract ← compute options.generated.contract
  let initialState ← compute (contract.initialState services.coinPublicKey authority)
  let current ← ask .currentParameters services.currentParameters
  let built ← compute (buildDeployTransaction tools.deploy
    { network := services.network
      initialState := initialState
      verifierKeys := options.verifierKeys
      maintenanceCommittee := [maintenanceVerifyingKey]
      maintenanceThreshold := none
      ttl := ttlAfter current.1.timestampSeconds options.ttlSeconds })
  return ⟨built, current.1, current.2⟩

/-- The record of a deployment that has been built. -/
def builtRecord (services : ChainServices) (options : DeployOptions) (built : BuiltDeploy)
    (authority : Bytes) (maintenanceVerifyingKey : SignatureVerifyingKey) : DeploymentRecord where
  stage := .built
  exampleName := options.profile.name
  eventName := options.profile.eventName
  network := services.network
  address := built.address
  operations := built.operations
  verifierKeySha256 := built.verifierKeyHashes
  maintenanceVerifyingKey := maintenanceVerifyingKey
  emitterAuthority := bytesToHex authority
  finalized := none
  submittedId := none
  inclusion := none

/-- Finalize a deployment. -/
def finalizeDeployment (tools : CommandTools) (services : ChainServices) (options : DeployOptions)
    (pinned : PinnedDeploy) : Command FinalizedTransactionRecord :=
  callServices .provider fun history =>
    finalizeTransaction tools.finalizeEnv (services.providers history) pinned.built.transaction
      { network := services.network
        purpose := js "deploy " ++ options.profile.name.text
        proofTimeoutMs := services.proofTimeoutMs
        ttl := pinned.built.ttl
        ledgerParameters := pinned.ledgerParameters
        block := pinned.block
        check := deployIntentCheck tools.deploy pinned.built
        costCheck := some (blockFullnessCheck tools.finalizeEnv (.int 1))
        requireProofs := some services.requireProofs }

/-- The checks of the deployed state. -/
def checkDeployed (tools : CommandTools) (options : DeployOptions) (built : BuiltDeploy)
    (maintenanceVerifyingKey : SignatureVerifyingKey) (authority stateBytes : Bytes) :
    Command Unit := do
  let deployed ← compute (tools.deploy.deserializeState stateBytes)
  match built.verifierKeyHashes.entries.find? fun entry =>
      ((deployed.operation entry.1).bind ContractOperation.verifierKey).map
        tools.verifierKeySha256 ≠ some entry.2 with
  | some entry => Action.fail (.commandFailure
      (js "deployed " ++ entry.1 ++ js " verifier key differs from the committed one"))
  | none => do
    let maintenance := deployed.maintenanceAuthority
    Action.failIf (maintenance.threshold ≠ 1 ∨
        maintenance.committee.map SignatureVerifyingKey.value ≠ [maintenanceVerifyingKey.value])
      (.commandFailure (js "the deployed maintenance authority is not the recorded key"))
    let view ← compute (ledgerView tools options.generated stateBytes)
    Action.failIf ((view (js "emitterAuthority")).isBytes authority = false)
      (.commandFailure (js "the deployed emitter authority differs from the recorded one"))

/-- `runDeploy(services, options)`. -/
def runDeploy (tools : CommandTools) (machine : Machine) (services : ChainServices)
    (options : DeployOptions) : Command DeploymentRecord := do
  let save := fun record => writeRecord machine options.out (.deployment record)
  assertNewRecord options.out
  let authority ← deployAuthority tools machine services options
  let maintenanceVerifyingKey ← maintenanceKey tools machine services options
  let pinned ← buildDeployment tools services options authority maintenanceVerifyingKey
  let built := pinned.built
  let record := builtRecord services options built authority maintenanceVerifyingKey
  save record
  logLine services (js "contract address   " ++ built.address ++ js " (recorded before submission)")
  let finalized ← finalizeDeployment tools services options pinned
  let record := { record with stage := .finalized, finalized := some finalized }
  save record
  let submittedId ← callServices .submitTx fun history =>
    submitSavedTransaction tools.assembly.ledger (services.submitTx history) finalized
      (deployIntentCheck tools.deploy built) (some services.requireProofs)
  let record := { record with stage := .submitted, submittedId := some submittedId }
  save record
  logLine services (js "submitted          " ++ submittedId)
  let inclusion ← reportedInclusion machine services finalized.identifiers built.ttl
    (js "the deployment was not seen before its TTL; inspect " ++ built.address ++
      js " before trying again (never deploy twice blindly)")
  let record := { record with stage := .included, inclusion := some inclusion }
  save record
  logLine services (includedLine inclusion)
  Action.failIf (inclusion.status ≠ success)
    (.commandFailure (js "deployment status " ++ inclusion.status))
  let stateBytes ← contractState services built.address
  let stateBytes ← (required stateBytes (js "the deployed contract is not visible yet") :
    Except CommandError Bytes)
  checkDeployed tools options built maintenanceVerifyingKey authority stateBytes
  let record := { record with stage := .verified }
  save record
  logLine services
    (js "verified           operations, verifier keys, maintenance authority, authority")
  return record

/-! ### Publish -/

/-- `bindingFromContract` of the emitting circuit. -/
def bindingFromContract {PS : Type}
    (emitPart : CircuitContext PS → Bytes → Except JsError CircuitResults)
    (entryPoint : JsString) (createPrivateState : PS) : EmissionBinding PS where
  entryPoint := entryPoint
  emitPart := emitPart
  createPrivateState _ := createPrivateState

/-- A circuit of the generated contract. -/
def requiredCircuit (generated : GeneratedModule) (missing name : JsString) :
    Command GeneratedCircuit := do
  let contract ← compute generated.contract
  (required (contract.impureCircuits name) missing : Except CommandError GeneratedCircuit)

/-- The request of one message. -/
def packageRequest (options : PublishOptions) (binding : EmissionBinding EmitterPrivateState)
    (message : Bytes) : Except JsError (PackageRequest EmitterPrivateState) := do
  return ⟨options.address, .text options.profile.eventName, binding, ← splitPayload message⟩

/-- Build the transaction of the messages. -/
def buildPublication (tools : CommandTools) (machine : Machine) (services : ChainServices)
    (options : PublishOptions) : Command BuiltTransaction := do
  Action.failIf (options.messages.length = 0)
    (.library (.rangeError (js "give at least one message")))
  let secret ← readWitnessSecret machine options.secretFile
  let emitPart ← requiredCircuit options.generated
    (js "the contract has no " ++ options.profile.entryPoint ++ js " circuit")
      options.profile.entryPoint
  let binding := bindingFromContract emitPart options.profile.entryPoint ⟨secret⟩
  let requests ← compute (options.messages.mapM (packageRequest options binding))
  ask .stateSource fun history =>
    buildPackagesTransaction tools.assembly (services.stateSource history)
      { network := services.network
        coinPublicKey := services.coinPublicKey
        maxParts := some options.maxParts
        ttlSeconds := some options.ttlSeconds
        maxTtlSeconds := none
        maxAssemblyAttempts := none
        keyLocation := none } requests

/-- The line about a built publication. -/
def builtLine (built : BuiltTransaction) : JsString :=
  js "built              " ++ decimal built.packages.length ++ js " package(s) (" ++
    List.intercalate (js ", ") (built.packages.map fun pkg =>
      decimal pkg.parts.length ++ js " part(s) at segment " ++ pkg.segment.text) ++
    js ") on block " ++ built.block.height.text

/-- Finalize a publication. -/
def finalizePublication (tools : CommandTools) (services : ChainServices) (options : PublishOptions)
    (built : BuiltTransaction) : Command FinalizedRecord :=
  callServices .provider fun history =>
    finalizeTransactionPackages tools.finalizeEnv (services.providers history) built
      { proofTimeoutMs := services.proofTimeoutMs
        costCheck :=
          some (blockFullnessCheck tools.finalizeEnv (options.maxBlockFraction.getD (.int 1)))
        requireProofs := some services.requireProofs }

/-- The record of a publication that has been finalized. -/
def publicationRecord (tools : CommandTools) (services : ChainServices) (options : PublishOptions)
    (built : BuiltTransaction) (finalized : FinalizedRecord) :
    Except JsError PublicationRecord := do
  let finalTx ← deserializeFinal tools.assembly.ledger (← hexToBytes finalized.transactionHex)
    services.requireProofs (js "after serialization")
  let normalizedCost ← tools.normalizedCost finalTx built.ledgerParameters
  return {
    stage := .finalized
    exampleName := options.profile.name
    eventName := options.profile.eventName
    network := services.network
    contract := options.address
    messages :=
      options.messages.map fun message => ⟨message.length, tools.verifierKeySha256 message⟩
    finalized := finalized
    normalizedCost := normalizedCost
    submittedId := none
    inclusion := none
    merged := none
    packages := none }

/-- The line about a finalized publication. -/
def finalizedLine (tools : CommandTools) (record : PublicationRecord) : JsString :=
  js "finalized          " ++ decimal (record.finalized.transactionHex.length / 2) ++
    js " bytes; block usage " ++
    ((record.normalizedCost.lookup (js "blockUsage")).map tools.toFixed).getD (js "?") ++
    js " of a block; recorded before submission"

/-- What `runPublish` verifies the included transaction against. -/
def publishTarget (services : ChainServices) (options : PublishOptions)
    (inclusion : IncludedTransaction) : VerifyTransactionOptions where
  contract := options.address
  entryPoint := options.profile.entryPoint
  name := .text options.profile.eventName
  network := services.network
  status := inclusion.status
  transactionHash := some inclusion.hash
  limits := none

/-- The outcome of one recorded package. -/
def publishedPackage (verification : TransactionVerification) (pkg : PackageRecord) :
    Except JsError PublishedPackage := do
  let expected ← hexToBytes pkg.partsHex.flatten
  let found :=
    verification.packages.find? fun entry => JsNumber.int entry.package.segment = pkg.segment
  let issues := verification.issues ++
    ((found.map CheckedPackage.placement).getD [js "no package at this segment"]) ++
    ((found.map fun entry => entry.package.issues).getD [])
  let verified := issues.length = 0 ∧
    (found.bind fun entry => entry.package.payload).any (bytesEqual · expected) = true
  return {
    segment := pkg.segment
    parts := pkg.partsHex.length
    verified := verified
    issues := if verified ∨ issues.length > 0 then issues else [js "the merged payload differs"] }

/-- The line about one package. -/
def packageLine (pkg : PublishedPackage) : JsString :=
  js "package            segment " ++ pkg.segment.text ++ js ", " ++ decimal pkg.parts ++
    js " part(s): " ++
    (if pkg.verified = true then js "verified from the raw bytes"
    else js "NOT verified: " ++ List.intercalate (js "; ") pkg.issues)

/-- Write a line about each package. -/
def logPackages (services : ChainServices) : List PublishedPackage → Command Unit
  | [] => return ()
  | pkg :: packages => do
    logLine services (packageLine pkg)
    logPackages services packages

/-- The stage after the packages of the included transaction have been checked. -/
def publishedStage (packages : List PublishedPackage) : Stage :=
  if packages.all PublishedPackage.verified = true then .verified else .included

/-- `runPublish(services, options)`. -/
def runPublish (tools : CommandTools) (machine : Machine) (services : ChainServices)
    (options : PublishOptions) : Command PublicationRecord := do
  let save := fun record => writeRecord machine options.out (.publication record)
  assertNewRecord options.out
  let built ← buildPublication tools machine services options
  logLine services (builtLine built)
  let finalized ← finalizePublication tools services options built
  let record ← compute (publicationRecord tools services options built finalized)
  save record
  logLine services (finalizedLine tools record)
  if options.dryRun = some true then return record else do
  let submittedId ← callServices .submitTx fun history =>
    submitRecord tools.assembly.ledger (services.submitTx history) finalized
      (some services.requireProofs)
  let record := { record with stage := .submitted, submittedId := some submittedId }
  save record
  logLine services (js "submitted          " ++ submittedId)
  let inclusion ← reportedInclusion machine services finalized.identifiers built.ttl
    (js ("the publication was not seen before its TTL; it was not included. " ++
      "Inspect public state; do not resubmit blindly"))
  let included ← compute (do
    deserializeTransaction tools.assembly.ledger (← hexToBytes inclusion.rawHex))
  let location := locateRecord included finalized
  let record := { record with
    stage := .included, inclusion := some inclusion, merged := some location.merged }
  save record
  Action.failIf (location.contains = false) (.commandFailure
    (js "the included transaction does not contain the packages: " ++ location.reason.getD []))
  let verification ← compute (verifyTransactionPackages included
      (publishTarget services options inclusion))
  let packages ← compute (finalized.packages.mapM (publishedPackage verification))
  let record := { record with stage := publishedStage packages, packages := some packages }
  save record
  logLine services (includedLine inclusion ++
    (if location.merged = true then js " (others merged intents into it)" else []))
  logPackages services packages
  Action.failIf (packages.all PublishedPackage.verified = false)
    (.commandFailure (js "a package did not verify from the raw bytes"))
  return record

/-! ### Pin -/

/-- `countOf(state)`. -/
def countOf (tools : CommandTools) (generated : GeneratedModule) (state : Option Bytes) :
    Except JsError (Option ℤ) :=
  match state with
  | none => .ok none
  | some stateBytes => do
    let view ← ledgerView tools generated stateBytes
    match view (js "pinnedCount") with
    | .bigint count => return some count
    | _ => return none

/-- `view.pinnedDigest` is the digest, in a state that is there. -/
def showsDigest (tools : CommandTools) (options : PinOptions) (state : Option Bytes) :
    Except JsError Bool :=
  match state with
  | none => .ok false
  | some stateBytes => do
    let view ← ledgerView tools options.generated stateBytes
    return (view (js "pinnedDigest")).isBytes options.digest

/-- The count of the board before the pin, and the built call. -/
structure PinnedCall where
  countBefore : Option ℤ
  built : BuiltCall

/-- Build the call of the pin circuit. -/
def buildPin (tools : CommandTools) (machine : Machine) (services : ChainServices)
    (options : PinOptions) : Command PinnedCall := do
  Action.failIf (options.profile.name ≠ .noticeBoard)
    (.library (.rangeError (js "pin is the notice board's circuit (--example notice-board)")))
  Action.failIf (options.digest.length ≠ 32) (.library (.rangeError (js "the digest is 32 bytes")))
  let secret ← readWitnessSecret machine options.secretFile
  let pin ← requiredCircuit options.generated (js "the contract has no pin circuit") (js "pin")
  let before ← contractState services options.address
  let countBefore ← compute (countOf tools options.generated before)
  let built ← ask .stateSource fun history =>
    buildCircuitCallTransaction tools.assembly (services.stateSource history)
      { network := services.network
        address := options.address
        circuit := js "pin"
        coinPublicKey := services.coinPublicKey
        execute := fun context => pin context options.digest
        privateState := EmitterPrivateState.mk secret
        ttlSeconds := some options.ttlSeconds
        keyLocation := none }
  return ⟨countBefore, built⟩

/-- Finalize a pin. -/
def finalizePin (tools : CommandTools) (services : ChainServices) (built : BuiltCall) :
    Command FinalizedTransactionRecord :=
  callServices .provider fun history =>
    finalizeTransaction tools.finalizeEnv (services.providers history) built.transaction
      { network := services.network
        purpose := js "pin"
        proofTimeoutMs := services.proofTimeoutMs
        ttl := built.ttl
        ledgerParameters := built.ledgerParameters
        block := built.block
        check := callIntentCheck built.target
        costCheck := some (blockFullnessCheck tools.finalizeEnv (.int 1))
        requireProofs := some services.requireProofs }

/-- The count of the board after the pin, in a state that shows it. -/
def pinnedCount (tools : CommandTools) (options : PinOptions) (countBefore : Option ℤ)
    (after : Option Bytes) : Except CommandError ℤ := do
  let notShown := CommandError.commandFailure (js "the board's state does not show the pin")
  let shown ← (showsDigest tools options after).mapError CommandError.library
  let countAfter ← (countOf tools options.generated after).mapError CommandError.library
  match shown, countAfter with
  | true, some count =>
    if countBefore.all (fun before => count = before + 1) = true then .ok count else .error notShown
  | _, _ => .error notShown

/-- `runPin(services, options)`. -/
def runPin (tools : CommandTools) (machine : Machine) (services : ChainServices)
    (options : PinOptions) : Command PinRecord := do
  let save := fun record => writeRecord machine options.out (.pin record)
  assertNewRecord options.out
  let pinned ← buildPin tools machine services options
  let built := pinned.built
  let finalized ← finalizePin tools services built
  let record : PinRecord := {
    stage := .finalized
    network := services.network
    contract := options.address
    digest := bytesToHex options.digest
    finalized := finalized
    submittedId := none
    inclusion := none
    pinnedCount := none }
  save record
  let submittedId ← callServices .submitTx fun history =>
    submitSavedTransaction tools.assembly.ledger (services.submitTx history) finalized
      (callIntentCheck built.target) (some services.requireProofs)
  let record := { record with stage := .submitted, submittedId := some submittedId }
  save record
  logLine services (js "submitted          pin " ++ bytesToHex options.digest ++ js ": " ++
    submittedId)
  let inclusion ← reportedInclusion machine services finalized.identifiers built.ttl
    (js "the pin was not seen before its TTL; inspect public state")
  let record := { record with stage := .included, inclusion := some inclusion }
  save record
  logLine services (includedLine inclusion)
  Action.failIf (inclusion.status ≠ success)
    (.commandFailure (js "pin status " ++ inclusion.status))
  let after ← contractState services options.address
  let countAfter ← (pinnedCount tools options pinned.countBefore after : Except CommandError ℤ)
  let record := { record with stage := .verified, pinnedCount := some (integerText countAfter) }
  save record
  logLine services (js "verified           pinnedDigest set; pinnedCount " ++
    integerText countAfter)
  return record

end MultiPartEvent
