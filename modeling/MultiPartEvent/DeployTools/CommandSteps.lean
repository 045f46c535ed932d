import MultiPartEvent.DeployTools.CommandRuns
import MultiPartEvent.Interleaving

/-!
# The steps of the chain commands

Each command as a `Process`: the same code, in steps between which other processes may change the
files. A record is written in two of them, the temporary file and the renaming.  What lies between
two uses of the files is one step: another process can neither change it nor tell when it happens.

Run alone, a process does what its command does (`ChainCommand.steps_alone`).
-/

namespace MultiPartEvent

/-- A chain command in steps. -/
abbrev CommandProcess := Process CommandError CommandState

/-- The steps of `writeRecord(path, record)`. -/
def writeRecordSteps (machine : Machine) (path : JsString) (record : CommandRecord) :
    CommandProcess Unit := do
  let temporary := path ++ js ".tmp-" ++ decimal machine.pid
  writeFileSync machine temporary (.record record)
  renameSync machine temporary path

/-- The steps of `runDeploy(services, options)`. -/
def runDeploySteps (tools : CommandTools) (machine : Machine) (services : ChainServices)
    (options : DeployOptions) : CommandProcess DeploymentRecord := do
  let save := fun record => writeRecordSteps machine options.out (.deployment record)
  assertNewRecord options.out
  let authority ← deployAuthority tools machine services options
  let maintenanceVerifyingKey ← maintenanceKey tools machine services options
  let pinned ← buildDeployment tools services options authority maintenanceVerifyingKey
  let built := pinned.built
  let record := builtRecord services options built authority maintenanceVerifyingKey
  save record
  logLine services (js "contract address   " ++ built.address ++ js " (recorded before submission)")
  let finalized ← finalizeDeployment tools services options pinned
  let record := { record with stage := .finalized, finalized := some finalized }
  save record
  let submittedId ← callServices .submitTx fun history =>
    submitSavedTransaction tools.assembly.ledger (services.submitTx history) finalized
      (deployIntentCheck tools.deploy built) (some services.requireProofs)
  let record := { record with stage := .submitted, submittedId := some submittedId }
  save record
  logLine services (js "submitted          " ++ submittedId)
  let inclusion ← reportedInclusion machine services finalized.identifiers built.ttl
    (js "the deployment was not seen before its TTL; inspect " ++ built.address ++
      js " before trying again (never deploy twice blindly)")
  let record := { record with stage := .included, inclusion := some inclusion }
  save record
  logLine services (includedLine inclusion)
  (Action.failIf (inclusion.status ≠ success)
    (.commandFailure (js "deployment status " ++ inclusion.status)) : Command Unit)
  let stateBytes ← contractState services built.address
  let stateBytes ← (required stateBytes (js "the deployed contract is not visible yet") :
    Except CommandError Bytes)
  checkDeployed tools options built maintenanceVerifyingKey authority stateBytes
  let record := { record with stage := .verified }
  save record
  logLine services
    (js "verified           operations, verifier keys, maintenance authority, authority")
  return record

/-- The steps of `runPublish(services, options)`. -/
def runPublishSteps (tools : CommandTools) (machine : Machine) (services : ChainServices)
    (options : PublishOptions) : CommandProcess PublicationRecord := do
  let save := fun record => writeRecordSteps machine options.out (.publication record)
  assertNewRecord options.out
  let built ← buildPublication tools machine services options
  logLine services (builtLine built)
  let finalized ← finalizePublication tools services options built
  let record ← compute (publicationRecord tools services options built finalized)
  save record
  logLine services (finalizedLine tools record)
  if options.dryRun = some true then return record else do
  let submittedId ← callServices .submitTx fun history =>
    submitRecord tools.assembly.ledger (services.submitTx history) finalized
      (some services.requireProofs)
  let record := { record with stage := .submitted, submittedId := some submittedId }
  save record
  logLine services (js "submitted          " ++ submittedId)
  let inclusion ← reportedInclusion machine services finalized.identifiers built.ttl
    (js ("the publication was not seen before its TTL; it was not included. " ++
      "Inspect public state; do not resubmit blindly"))
  let included ← compute (do
    deserializeTransaction tools.assembly.ledger (← hexToBytes inclusion.rawHex))
  let location := locateRecord included finalized
  let record := { record with
    stage := .included, inclusion := some inclusion, merged := some location.merged }
  save record
  (Action.failIf (location.contains = false) (.commandFailure
    (js "the included transaction does not contain the packages: " ++ location.reason.getD [])) :
      Command Unit)
  let verification ← compute (verifyTransactionPackages included
      (publishTarget services options inclusion))
  let packages ← compute (finalized.packages.mapM (publishedPackage verification))
  let record := { record with stage := publishedStage packages, packages := some packages }
  save record
  logLine services (includedLine inclusion ++
    (if location.merged = true then js " (others merged intents into it)" else []))
  logPackages services packages
  (Action.failIf (packages.all PublishedPackage.verified = false)
    (.commandFailure (js "a package did not verify from the raw bytes")) : Command Unit)
  return record

/-- The steps of `runPin(services, options)`. -/
def runPinSteps (tools : CommandTools) (machine : Machine) (services : ChainServices)
    (options : PinOptions) : CommandProcess PinRecord := do
  let save := fun record => writeRecordSteps machine options.out (.pin record)
  assertNewRecord options.out
  let pinned ← buildPin tools machine services options
  let built := pinned.built
  let finalized ← finalizePin tools services built
  let record : PinRecord := {
    stage := .finalized
    network := services.network
    contract := options.address
    digest := bytesToHex options.digest
    finalized := finalized
    submittedId := none
    inclusion := none
    pinnedCount := none }
  save record
  let submittedId ← callServices .submitTx fun history =>
    submitSavedTransaction tools.assembly.ledger (services.submitTx history) finalized
      (callIntentCheck built.target) (some services.requireProofs)
  let record := { record with stage := .submitted, submittedId := some submittedId }
  save record
  logLine services (js "submitted          pin " ++ bytesToHex options.digest ++ js ": " ++
    submittedId)
  let inclusion ← reportedInclusion machine services finalized.identifiers built.ttl
    (js "the pin was not seen before its TTL; inspect public state")
  let record := { record with stage := .included, inclusion := some inclusion }
  save record
  logLine services (includedLine inclusion)
  (Action.failIf (inclusion.status ≠ success)
    (.commandFailure (js "pin status " ++ inclusion.status)) : Command Unit)
  let after ← contractState services options.address
  let countAfter ← (pinnedCount tools options pinned.countBefore after : Except CommandError ℤ)
  let record := { record with stage := .verified, pinnedCount := some (integerText countAfter) }
  save record
  logLine services (js "verified           pinnedDigest set; pinnedCount " ++
    integerText countAfter)
  return record

/-- The steps of a command, with its record as the result. -/
def ChainCommand.steps (command : ChainCommand) (tools : CommandTools) (machine : Machine)
    (services : ChainServices) : CommandProcess CommandRecord :=
  match command with
  | .deploy options => do return .deployment (← runDeploySteps tools machine services options)
  | .publish options => do return .publication (← runPublishSteps tools machine services options)
  | .pin options => do return .pin (← runPinSteps tools machine services options)

/-! ### The same code -/

section Alone

variable (tools : CommandTools) (machine : Machine) (services : ChainServices)

/-- Writing a record. -/
@[simp] lemma writeRecordSteps_alone (path : JsString) (record : CommandRecord) :
    (writeRecordSteps machine path record).alone = writeRecord machine path record := by
  simp only [writeRecordSteps, writeRecord, Process.alone_bind, Process.alone_lift]

/-- A deployment step by step, run alone, is the deployment. -/
lemma runDeploySteps_alone (options : DeployOptions) :
    (runDeploySteps tools machine services options).alone =
      runDeploy tools machine services options := by
  simp only [runDeploySteps, runDeploy, Process.alone_bind, Process.alone_lift,
    Process.alone_lift_except, Process.alone_pure, writeRecordSteps_alone]

/-- A publication step by step, run alone, is the publication. -/
lemma runPublishSteps_alone (options : PublishOptions) :
    (runPublishSteps tools machine services options).alone =
      runPublish tools machine services options := by
  simp only [runPublishSteps, runPublish, Process.alone_bind, Process.alone_lift,
    writeRecordSteps_alone]
  split
  · rfl
  · simp only [Process.alone_bind, Process.alone_lift, Process.alone_pure, writeRecordSteps_alone]

/-- A pin step by step, run alone, is the pin. -/
lemma runPinSteps_alone (options : PinOptions) :
    (runPinSteps tools machine services options).alone = runPin tools machine services options := by
  simp only [runPinSteps, runPin, Process.alone_bind, Process.alone_lift,
    Process.alone_lift_except, Process.alone_pure, writeRecordSteps_alone]

/-- **Without interference a process does what its command does.** -/
theorem ChainCommand.steps_alone (command : ChainCommand) :
    (command.steps tools machine services).alone = command.run tools machine services := by
  cases command with
  | deploy options =>
    simp only [ChainCommand.steps, ChainCommand.run, Process.alone_bind, Process.alone_pure,
      runDeploySteps_alone]
  | publish options =>
    simp only [ChainCommand.steps, ChainCommand.run, Process.alone_bind, Process.alone_pure,
      runPublishSteps_alone]
  | pin options =>
    simp only [ChainCommand.steps, ChainCommand.run, Process.alone_bind, Process.alone_pure,
      runPinSteps_alone]

end Alone

end MultiPartEvent
