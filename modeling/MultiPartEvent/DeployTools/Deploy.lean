import MultiPartEvent.Publisher.Generic

/-!
# Deployment transactions

The constructor's initial state with the verifier keys of every provable circuit and a maintenance
authority, in one `ContractDeploy` action.  The address is known as soon as the transaction is
built.
-/

namespace MultiPartEvent

/-- A verifying key of the ledger's signatures. -/
structure SignatureVerifyingKey where
  tag : JsString
  value : JsString
  deriving DecidableEq

/-- `ContractMaintenanceAuthority`. -/
structure MaintenanceAuthority where
  committee : List SignatureVerifyingKey
  threshold : ℕ
  counter : ℕ

/-- A contract state as a deployment sets it up and reads it back. -/
structure DeployState extends ContractState where
  /-- `state.operations()`. -/
  operations : List EntryPoint
  maintenanceAuthority : MaintenanceAuthority
  /-- The data of the contract. -/
  content : Opaque

/-- `state.setOperation(name, operation)` for an operation that is there. -/
def DeployState.setOperation (state : DeployState) (name : JsString)
    (operation : ContractOperation) : DeployState :=
  { state with
    operation := fun other => if other = name then some operation else state.operation other }

/-- `ContractDeploy`: the address, and the serialized state it deploys. -/
structure ContractDeploy where
  address : JsString
  initialState : Bytes

/-- What deployments take from outside the repository. -/
structure DeployEnv where
  /-- `ContractState.deserialize(bytes)`. -/
  deserializeState : Bytes → Except JsError DeployState
  /-- `operation.verifierKey = key`. -/
  setVerifierKey : ContractOperation → Bytes → Except JsError ContractOperation
  /-- `new ContractDeploy(state)`, with its random nonce. -/
  contractDeploy : DeployState → ContractDeploy
  /-- `Transaction.fromParts(network, undefined, undefined, Intent.new(ttl).addDeploy(deploy))`. -/
  deployTransaction : (network : JsString) → (ttl : JsDate) → ContractDeploy →
    Except JsError Transaction
  /-- The deployment of an action that is no call. -/
  deployOf : Opaque → Option ContractDeploy
  /-- The SHA-256 hash as hex. -/
  sha256Hex : Bytes → JsString

/-- What to deploy. -/
structure DeployPlan where
  network : JsString
  /-- The serialized initial state from the generated constructor. -/
  initialState : Bytes
  /-- Verifier key per provable circuit. -/
  verifierKeys : InsertionMap JsString Bytes
  maintenanceCommittee : List SignatureVerifyingKey
  /-- Default 1. -/
  maintenanceThreshold : Option JsNumber
  ttl : JsDate

/-- A deployment ready to be proven and balanced. -/
structure BuiltDeploy where
  transaction : Transaction
  /-- Address the contract will have. -/
  address : JsString
  /-- Serialized state being deployed. -/
  stateBytes : Bytes
  operations : List JsString
  /-- SHA-256 of each installed verifier key, by entry point.  Entry points are identifiers, whose
  order in an object is that of their insertion. -/
  verifierKeyHashes : InsertionMap JsString JsString
  ttl : JsDate

/-- One round of the loop over the operations: the operation's verifier key is installed. -/
def installVerifierKey (env : DeployEnv) (verifierKeys : InsertionMap JsString Bytes)
    (st : DeployState × InsertionMap JsString JsString) (name : JsString) :
    Except JsError (DeployState × InsertionMap JsString JsString) :=
  match verifierKeys.get? name with
  | none | some [] => .error (.rangeError (js "no verifier key for circuit '" ++ name ++ js "'"))
  | some key =>
    match st.1.operation name with
    | none => .error (.rangeError (js "no operation '" ++ name ++ js "'"))
    | some operation => do
      let operation ← env.setVerifierKey operation key
      return (st.1.setOperation name operation, st.2.set name (env.sha256Hex key))

/-- Build the unproven deployment transaction. -/
def buildDeployTransaction (env : DeployEnv) (plan : DeployPlan) : Except JsError BuiltDeploy := do
  throwIf (plan.maintenanceCommittee.length = 0)
    (.rangeError (js "the maintenance committee needs at least one verifying key"))
  let threshold ←
    match (plan.maintenanceThreshold.getD (.int 1)).inRange 1
      (min plan.maintenanceCommittee.length maxSafeInteger) with
    | none => .error (.rangeError (js "maintenance threshold must be 1..committee size"))
    | some threshold => .ok threshold
  let state ← env.deserializeState plan.initialState
  let operations := sortBy compareCodeUnits (state.operations.map entryPointText)
  let _ ← (sortBy compareCodeUnits plan.verifierKeys.keys).mapM fun name =>
    throwIf (name ∉ operations)
      (.rangeError (js "verifier key for unknown circuit '" ++ name ++ js "'"))
  let (state, verifierKeyHashes) ←
    operations.foldlM (installVerifierKey env plan.verifierKeys) (state, .empty)
  let state := { state with maintenanceAuthority := ⟨plan.maintenanceCommittee, threshold, 0⟩ }
  let deploy := env.contractDeploy state
  let transaction ← env.deployTransaction plan.network plan.ttl deploy
  return ⟨transaction, deploy.address, deploy.initialState, operations, verifierKeyHashes, plan.ttl⟩

/-- The check of one action of an intent; `found` deployments have been found before. -/
def checkDeployAction (env : DeployEnv) (built : BuiltDeploy) (stage : JsString) (intent : Intent)
    (found : ℕ) (action : ContractAction) : Except JsError ℕ := do
  let fail := JsError.packageCheckError stage
  match action with
  | .other content =>
    match env.deployOf content with
    | none => return found
    | some deploy => do
      throwIf (deploy.address ≠ built.address) (fail (js "an intent deploys another contract"))
      throwIf (bytesEqual deploy.initialState built.stateBytes = false)
        (fail (js "the deployed state differs from the built state"))
      throwIf (intent.actions.length ≠ 1) (fail (js "the deploy intent carries other actions"))
      return found + 1
  | .call call => do
    throwIf (call.address = built.address) (fail (js "an intent calls the contract being deployed"))
    return found

/-- Check that a transaction still deploys exactly the built contract. -/
def deployIntentCheck (env : DeployEnv) (built : BuiltDeploy) : IntentCheck := fun tx stage => do
  let found ← tx.intents.values.foldlM (fun found intent =>
    intent.actions.foldlM (checkDeployAction env built stage intent) found) 0
  throwIf (found ≠ 1) (.packageCheckError stage
    (js "expected one deployment of " ++ built.address ++ js ", found " ++ decimal found))

end MultiPartEvent
