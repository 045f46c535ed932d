import MultiPartEvent.Js.Date
import MultiPartEvent.Publisher.Guard

/-!
# Composing a transaction, one intent each

For each package the emitting circuit runs once per part, every part against one pinned block
and contract state, and all of the package's calls go into one intent.  `addCalls` draws the
intent's segment; segment 0 is malformed and a taken segment would receive the calls too, so
both draws are redrawn.

What happens outside the repository is the parameter `AssemblyEnv`: the ledger module, the
segments drawn and the randomness of the communication commitments.  The n-th call of `addCalls`
uses the n-th draw, so a run is determined by the sequence of draws, and the loop over the
packages threads how many draws it has used.
-/

namespace MultiPartEvent

/-! ### Configuration and requests -/

/-- Default largest package, in parts. -/
def defaultMaxParts : JsNumber := .int 8

/-- Ceiling for the configurable part cap. -/
def maxPartsCeiling : ℕ := 1024

/-- Largest number of packages in one transaction. -/
def maxPackages : ℕ := 16

/-- Default TTL after the pinned block's time. -/
def defaultTtlSeconds : JsNumber := .int 1200

/-- Default upper bound for the TTL. -/
def defaultMaxTtlSeconds : JsNumber := .int 3600

/-- Default number of draws per intent. -/
def defaultMaxAssemblyAttempts : JsNumber := .int 8

/-- The block whose state and parameters a transaction is built on. -/
structure PinnedBlock where
  hash : JsString
  height : JsNumber
  /-- Block time in seconds since the Unix epoch. -/
  timestampSeconds : JsNumber

/-- Contract state and ledger parameters at one block. -/
structure ContractSnapshot where
  /-- `contractState.serialize()`. -/
  contractState : Bytes
  ledgerParameters : Opaque

/-- Public data the publisher reads: one latest block, then states at that block. -/
structure PublicationStateSource where
  latestBlock : Except JsError PinnedBlock
  contractStateAt : (address blockHash : JsString) → Except JsError ContractSnapshot

/-- Input to a key-location resolver. -/
structure KeyLocationInput where
  address : JsString
  entryPoint : JsString
  verifierKey : Bytes

/-- Maps a call to the key location the proof provider resolves. -/
abbrev KeyLocationResolver := KeyLocationInput → Except JsError JsString

/-- The canonical key location `contract:<address>/<entryPoint>?vk=<sha256 of the key>`. -/
def canonicalKeyLocation (sha256Hex : Bytes → JsString) : KeyLocationResolver := fun input => do
  throwIf (isAddress input.address = false)
    (.rangeError (js "key location: address must be 64 lowercase hex characters"))
  throwIf (input.entryPoint.length = 0 ∨ charUnit '/' ∈ input.entryPoint ∨
      charUnit '?' ∈ input.entryPoint)
    (.rangeError (js "key location: entry point must be non-empty without '/' or '?'"))
  return js "contract:" ++ input.address ++ js "/" ++ input.entryPoint ++ js "?vk=" ++
    sha256Hex input.verifierKey

/-- Publisher configuration, shared by every package of one transaction. -/
structure PublisherConfig where
  network : JsString
  /-- The submitting wallet's coin public key. -/
  coinPublicKey : JsString
  maxParts : Option JsNumber
  ttlSeconds : Option JsNumber
  maxTtlSeconds : Option JsNumber
  maxAssemblyAttempts : Option JsNumber
  keyLocation : Option KeyLocationResolver

/-- A validated configuration. -/
structure ResolvedConfig where
  network : JsString
  coinPublicKey : JsString
  maxParts : ℕ
  ttlSeconds : ℕ
  maxAssemblyAttempts : ℕ
  keyLocation : KeyLocationResolver

/-- A field that must be an integer of `1..max`. -/
def positiveInteger (value : JsNumber) (name : JsString) (max : ℕ) : Except JsError ℕ :=
  match value.inRange 1 (min max maxSafeInteger) with
  | some n => .ok n
  | none => .error (.rangeError (name ++ js " must be an integer from 1 through " ++ decimal max))

/-- Validate and complete a publisher configuration. -/
def resolvePublisherConfig (sha256Hex : Bytes → JsString) (config : PublisherConfig) :
    Except JsError ResolvedConfig := do
  throwIf (config.network.length = 0) (.rangeError (js "network must be non-empty"))
  throwIf (config.coinPublicKey.length = 0) (.rangeError (js "coinPublicKey must be non-empty"))
  let maxTtlSeconds ← positiveInteger (config.maxTtlSeconds.getD defaultMaxTtlSeconds)
    (js "maxTtlSeconds") maxSafeInteger
  let maxParts ← positiveInteger (config.maxParts.getD defaultMaxParts) (js "maxParts")
    maxPartsCeiling
  let ttlSeconds ← positiveInteger (config.ttlSeconds.getD defaultTtlSeconds) (js "ttlSeconds")
    maxTtlSeconds
  let maxAssemblyAttempts ← positiveInteger
    (config.maxAssemblyAttempts.getD defaultMaxAssemblyAttempts) (js "maxAssemblyAttempts") 64
  return ⟨config.network, config.coinPublicKey, maxParts, ttlSeconds, maxAssemblyAttempts,
    config.keyLocation.getD (canonicalKeyLocation sha256Hex)⟩

/-- What a circuit runs in, as `createCircuitContext` builds it. -/
structure CircuitContext (PS : Type) where
  entryPoint : JsString
  contract : JsString
  coinPublicKey : JsString
  contractState : Opaque
  privateState : PS
  timestampSeconds : JsNumber
  blockHash : JsString

/-- The query context of the runtime: the encoded state, and what else a call reads. -/
structure RuntimeQueryContext where
  state : Opaque
  address : JsString
  block : Opaque
  effects : Opaque
  /-- The commitments inserted during the call and their indices. -/
  comIndices : List (Opaque × ℕ)

/-- Shielded coins a call touches; either list may be absent. -/
structure ZswapLocalState where
  inputs : Option (List Opaque)
  outputs : Option (List Opaque)

/-- The trace of one executed circuit call. -/
structure CallProofData where
  contractAddress : JsString
  circuitId : JsString
  commCommData : Option Opaque
  zswapLocalState : ZswapLocalState
  initialQueryContext : RuntimeQueryContext
  finalQueryContext : RuntimeQueryContext
  publicTranscript : List Op
  privateTranscriptOutputs : Opaque
  input : Opaque
  output : Opaque

/-- An event an execution emits. -/
structure EmittedEvent where
  address : JsString
  eventType : JsString
  data : EncodedStateValue

/-- What the publisher reads of the result of a circuit. -/
structure CircuitResults where
  callProofDataTrace : List CallProofData
  events : List EmittedEvent

/-- The emitting circuit of an adopter. -/
structure EmissionBinding (PS : Type) where
  /-- Name of the emitting circuit. -/
  entryPoint : JsString
  /-- Executes the circuit for one part. -/
  emitPart : CircuitContext PS → Bytes → Except JsError CircuitResults
  /-- Fresh private state for the execution of the part at an index. -/
  createPrivateState : ℕ → PS

/-- One package to publish. -/
structure PackageRequest (PS : Type) where
  contract : JsString
  /-- The event name N the circuit emits. -/
  name : NameInput
  binding : EmissionBinding PS
  /-- The parts in order. -/
  parts : List Bytes

/-- The width check of one part. -/
def checkPartWidth (label : JsString) (item : Bytes × ℕ) : Except JsError Unit :=
  throwIf (item.1.length ≠ partLength) (.rangeError
    (label ++ js ": part " ++ decimal (item.2 + 1) ++ js " is " ++ decimal item.1.length ++
      js " bytes, not 256"))

/-- Reject a package request before any state query; its name as 32 bytes. -/
def preflightPackage {PS : Type} (request : PackageRequest PS) (maxParts : ℕ) (label : JsString) :
    Except JsError Bytes := do
  throwIf (isAddress request.contract = false)
    (.rangeError (label ++ js ": contract must be 64 lowercase hex characters"))
  throwIf (request.binding.entryPoint.length = 0)
    (.rangeError (label ++ js ": the binding has no entry point"))
  let name ← eventName request.name
  let count := request.parts.length
  throwIf (count < 1 ∨ count > maxParts) (.rangeError
    (label ++ js " has " ++ decimal count ++ js " parts; the configured limit is 1.." ++
      decimal maxParts))
  let _ ← request.parts.zipIdx.mapM (checkPartWidth label)
  return name

/-! ### Calls -/

/-- The ledger's query context: the encoded state and its commitments. -/
structure QueryContext where
  state : Opaque
  address : JsString
  block : Opaque
  effects : Opaque
  commitments : List (Opaque × ℕ)

/-- `context.insertCommitment(commitment, index)`. -/
def QueryContext.insertCommitment (context : QueryContext) (commitment : Opaque × ℕ) :
    QueryContext :=
  { context with commitments := context.commitments ++ [commitment] }

/-- The ledger query context a call's pre-transcript starts from, with its commitments. -/
def ledgerQueryContext (trace : CallProofData) : QueryContext :=
  trace.finalQueryContext.comIndices.foldl QueryContext.insertCommitment
    { state := trace.initialQueryContext.state
      address := trace.initialQueryContext.address
      block := trace.initialQueryContext.block
      effects := trace.initialQueryContext.effects
      commitments := [] }

/-- A native call before its transcript is partitioned. -/
structure PrePartitionCall where
  address : JsString
  entryPoint : JsString
  operation : ContractOperation
  context : QueryContext
  program : List Op
  privateTranscriptOutputs : Opaque
  input : Opaque
  output : Opaque
  /-- Randomness of the communication commitment. -/
  randomness : Opaque
  keyLocation : JsString

/-- The native pre-partition call for one executed circuit call. -/
def prePartitionCallFor (trace : CallProofData) (contractState : ContractState)
    (keyLocation : JsString) (randomness : Opaque) : Except JsError PrePartitionCall :=
  match contractState.operation trace.circuitId with
  | none => .error (.error (js "no operation '" ++ trace.circuitId ++ js "'"))
  | some operation => .ok
    { address := trace.contractAddress
      entryPoint := trace.circuitId
      operation := operation
      context := ledgerQueryContext trace
      program := trace.publicTranscript
      privateTranscriptOutputs := trace.privateTranscriptOutputs
      input := trace.input
      output := trace.output
      randomness := randomness
      keyLocation := keyLocation }

/-- What assembly takes from outside the repository. -/
structure AssemblyEnv where
  ledger : LedgerModule
  /-- `RuntimeContractState.deserialize(bytes)`. -/
  runtimeState : Bytes → Except JsError Opaque
  /-- The SHA-256 hash as hex. -/
  sha256Hex : Bytes → JsString
  /-- `Transaction.fromPartsRandomized(network)`. -/
  fromPartsRandomized : JsString → Transaction
  /-- `tx.addCalls(guaranteedOnly, calls, parameters, ttl)` when it draws the given
  segment. -/
  addCalls : Transaction → List PrePartitionCall → Opaque → JsDate → ℕ → Except JsError Transaction
  /-- The segment drawn by the n-th call of `addCalls`. -/
  draws : ℕ → ℕ
  /-- The commitment randomness of each call given to the n-th call of `addCalls`. -/
  randomness : ℕ → ℕ → Opaque

/-- An intent added to a transaction. -/
structure AddedIntent where
  transaction : Transaction
  segment : ℕ
  /-- How many segments were drawn for it. -/
  attempts : ℕ

/-- The segments of a transaction that held no intent before. -/
def addedSegments (before next : Transaction) : List ℕ :=
  next.intents.keys.filter (fun segment => segment ∉ before.intents.keys)

/-- The one segment that was added, unless it is 0 or none was. -/
def freshSegment (before next : Transaction) : Option ℕ :=
  match addedSegments before next with
  | [segment] => if segment ≠ 0 then some segment else none
  | _ => none

/-- The redraw loop, with its remaining attempts and the number of the current one. -/
def addGuaranteedIntentLoop (env : AssemblyEnv) (tx : Transaction)
    (calls : ℕ → Except JsError (List PrePartitionCall)) (ledgerParameters : Opaque) (ttl : JsDate)
    (maxAttempts drawn : ℕ) : (remaining attempts : ℕ) → Except JsError AddedIntent
  | 0, _ => .error (.error (js "assembly drew segment 0 or a taken segment in all " ++
      decimal maxAttempts ++ js " attempts"))
  | remaining + 1, attempts => do
    let draw := drawn + (attempts - 1)
    let next ← env.addCalls tx (← calls draw) ledgerParameters ttl (env.draws draw)
    match freshSegment tx next with
    | some segment => return ⟨next, segment, attempts⟩
    | none =>
      addGuaranteedIntentLoop env tx calls ledgerParameters ttl maxAttempts drawn remaining
        (attempts + 1)

/-- Add one intent of guaranteed-only calls, redrawing while the ledger picks segment 0 or a
segment that already holds an intent.  `drawn` segments have been drawn before. -/
def addGuaranteedIntent (env : AssemblyEnv) (tx : Transaction)
    (calls : ℕ → Except JsError (List PrePartitionCall)) (ledgerParameters : Opaque) (ttl : JsDate)
    (maxAttempts drawn : ℕ) : Except JsError AddedIntent :=
  addGuaranteedIntentLoop env tx calls ledgerParameters ttl maxAttempts drawn maxAttempts 1

/-- The check of one execution: one trace of the circuit, and one `Misc` event with the part's
value. -/
def checkExecution (results : CircuitResults) (expectedValue : Bytes)
    (contract entryPoint label : JsString) : Except JsError CallProofData := do
  let fail := fun detail => JsError.packageCheckError (js "execution") (label ++ js ": " ++ detail)
  match results.callProofDataTrace with
  | [trace] => do
    throwIf (trace.contractAddress ≠ contract ∨ trace.circuitId ≠ entryPoint)
      (fail (js "trace targets another contract or circuit"))
    throwIf (trace.commCommData ≠ none) (fail (js "the emission made a cross-contract call"))
    throwIf (((trace.zswapLocalState.inputs.map List.length).getD 0) > 0 ∨
        ((trace.zswapLocalState.outputs.map List.length).getD 0) > 0)
      (fail (js "the emission touched shielded coins"))
    throwIf (results.events.length ≠ 1)
      (fail (js "emitted " ++ decimal results.events.length ++ js " events, expected 1"))
    match results.events with
    | [] => .error (fail (js "did not emit one Misc event from the contract"))
    | event :: _ => do
      throwIf (event.address ≠ contract ∨ event.eventType ≠ js "misc")
        (fail (js "did not emit one Misc event from the contract"))
      match decodeMiscValue event.data with
      | .error err => .error (fail (js "event value: " ++ err.message))
      | .ok value => do
        throwIf (bytesEqual value expectedValue = false)
          (fail (js "emitted bytes differ from the part (name or payload)"))
        return trace
  | traces => .error (fail (js "produced " ++ decimal traces.length ++
      js " call traces, expected 1"))

/-! ### The transaction -/

/-- An assembled, unproven transaction. -/
structure BuiltTransaction where
  transaction : Transaction
  /-- One expectation per package, in request order. -/
  packages : List ExpectedPackage
  /-- Guaranteed transcripts per package, frozen right after assembly. -/
  frozenTranscripts : List (List Transcript)
  block : PinnedBlock
  ledgerParameters : Opaque
  ttl : JsDate
  /-- Draws per package. -/
  assemblyAttempts : List ℕ

/-- What the loop over the packages works with. -/
structure Assembly where
  resolved : ResolvedConfig
  /-- How many packages are requested. -/
  count : ℕ
  names : List Bytes
  block : PinnedBlock
  snapshots : InsertionMap JsString ContractSnapshot
  ledgerParameters : Opaque
  ttl : JsDate

/-- The label of the request at an index. -/
def requestLabel (count index : ℕ) : JsString :=
  if count = 1 then js "package" else js "package " ++ decimal (index + 1)

/-- Read the state of a request's contract unless it has been read. -/
def readSnapshot {PS : Type} (source : PublicationStateSource) (blockHash : JsString)
    (snapshots : InsertionMap JsString ContractSnapshot) (request : PackageRequest PS) :
    Except JsError (InsertionMap JsString ContractSnapshot) :=
  if request.contract ∈ snapshots.keys then .ok snapshots
  else do
    return snapshots.set request.contract (← source.contractStateAt request.contract blockHash)

/-- Everything before the loop: validation, then one latest block and the contracts' states. -/
def startAssembly {PS : Type} (env : AssemblyEnv) (source : PublicationStateSource)
    (config : PublisherConfig) (requests : List (PackageRequest PS)) : Except JsError Assembly := do
  let resolved ← resolvePublisherConfig env.sha256Hex config
  throwIf (requests.length < 1 ∨ requests.length > maxPackages) (.rangeError
    (js "a transaction holds 1.." ++ decimal maxPackages ++ js " packages"))
  let names ← requests.zipIdx.mapM fun item =>
    preflightPackage item.1 resolved.maxParts (requestLabel requests.length item.2)
  let block ← source.latestBlock
  throwIf (block.hash.length = 0) (.error (js "latest block has no hash"))
  match block.timestampSeconds.inRange 1 maxSafeInteger with
  | none => .error (.rangeError (js "block time must be a positive integer number of seconds"))
  | some seconds => do
    let snapshots ← requests.foldlM (readSnapshot source block.hash) .empty
    match snapshots.values with
    | [] => .error (.error (js "no contract state"))
    | first :: _ =>
      return ⟨resolved, requests.length, names, block, snapshots, first.ledgerParameters,
        .ofMilliseconds ((seconds + resolved.ttlSeconds) * 1000)⟩

/-- The label of the parts of the request at an index. -/
def partLabel (count index : ℕ) : JsString :=
  if count = 1 then js "part" else js "package " ++ decimal (index + 1) ++ js " part"

/-- Execute one part from the pinned state. -/
def executePart {PS : Type} (asm : Assembly) (request : PackageRequest PS) (name : Bytes)
    (runtimeState : Opaque) (label : JsString) (item : Bytes × ℕ) :
    Except JsError CallProofData := do
  let results ← request.binding.emitPart
    { entryPoint := request.binding.entryPoint
      contract := request.contract
      coinPublicKey := asm.resolved.coinPublicKey
      contractState := runtimeState
      privateState := request.binding.createPrivateState item.2
      timestampSeconds := asm.block.timestampSeconds
      blockHash := asm.block.hash } item.1
  checkExecution results (← eventValue name item.1) request.contract request.binding.entryPoint
    (label ++ js " " ++ decimal (item.2 + 1))

/-- A request ready for its intent: its name, and what its calls are made of. -/
structure PreparedRequest where
  name : Bytes
  ledgerState : ContractState
  keyLocation : JsString
  /-- The checked execution of each part. -/
  traces : List CallProofData

/-- Read the contract's operation and execute every part of a request. -/
def prepareRequest {PS : Type} (env : AssemblyEnv) (asm : Assembly) (request : PackageRequest PS)
    (index : ℕ) : Except JsError PreparedRequest := do
  let name ← match asm.names[index]? with
    | some name => .ok name
    | none => eventName request.name
  match asm.snapshots.get? request.contract with
  | none => .error (.error (js "missing snapshot"))
  | some snapshot => do
    let runtimeState ← env.runtimeState snapshot.contractState
    let ledgerState ← env.ledger.deserializeState snapshot.contractState
    let entryPoint := request.binding.entryPoint
    match (ledgerState.operation entryPoint).bind ContractOperation.verifierKey with
    | none | some [] => .error (.error (js "contract " ++ request.contract ++
        js " has no verifier key for '" ++ entryPoint ++ js "'"))
    | some verifierKey => do
      let keyLocation ← asm.resolved.keyLocation ⟨request.contract, entryPoint, verifierKey⟩
      let traces ← request.parts.zipIdx.mapM
        (executePart asm request name runtimeState (partLabel asm.count index))
      return ⟨name, ledgerState, keyLocation, traces⟩

/-- The calls of a request, with the randomness of the given call of `addCalls`. -/
def PreparedRequest.calls (prepared : PreparedRequest) (env : AssemblyEnv) (draw : ℕ) :
    Except JsError (List PrePartitionCall) :=
  prepared.traces.zipIdx.mapM fun item =>
    prePartitionCallFor item.1 prepared.ledgerState prepared.keyLocation
      (env.randomness draw item.2)

/-- The state of the loop over the packages. -/
structure AssemblyState where
  transaction : Transaction
  packages : List ExpectedPackage
  attempts : List ℕ
  /-- How many segments have been drawn. -/
  drawn : ℕ

/-- One round of the loop: one request, one intent. -/
def assembleRequest {PS : Type} (env : AssemblyEnv) (asm : Assembly) (st : AssemblyState)
    (item : PackageRequest PS × ℕ) : Except JsError AssemblyState := do
  let (request, index) := item
  let prepared ← prepareRequest env asm request index
  let added ← addGuaranteedIntent env st.transaction (prepared.calls env) asm.ledgerParameters
    asm.ttl asm.resolved.maxAssemblyAttempts st.drawn
  return {
    transaction := added.transaction
    packages := st.packages ++ [
      { network := asm.resolved.network
        contract := request.contract
        entryPoint := request.binding.entryPoint
        name := prepared.name
        segment := .int added.segment
        parts := request.parts }]
    attempts := st.attempts ++ [added.attempts]
    drawn := st.drawn + added.attempts }

/-- The loop over a list of requests with their indices, from the empty transaction. -/
def assembleRequests {PS : Type} (env : AssemblyEnv) (asm : Assembly)
    (items : List (PackageRequest PS × ℕ)) : Except JsError AssemblyState :=
  items.foldlM (assembleRequest env asm)
    ⟨env.fromPartsRandomized asm.resolved.network, [], [], 0⟩

/-- The guaranteed transcript of an action of a package. -/
def frozenTranscript (action : ContractAction) : Except JsError Transcript :=
  match action.guaranteed? with
  | none => .error (.packageCheckError (js "after assembly")
      (js "a call lost its guaranteed transcript"))
  | some transcript => .ok transcript

/-- Build the unproven transaction holding the given packages, one intent each. -/
def buildPackagesTransaction {PS : Type} (env : AssemblyEnv) (source : PublicationStateSource)
    (config : PublisherConfig) (requests : List (PackageRequest PS)) :
    Except JsError BuiltTransaction := do
  let asm ← startAssembly env source config requests
  let st ← assembleRequests env asm requests.zipIdx
  assertTransactionPackages st.transaction st.packages (js "after assembly") none
  let frozenTranscripts ← st.packages.mapM fun pkg =>
    (((st.transaction.intentAt pkg.segment).map Intent.actions).getD []).mapM frozenTranscript
  return ⟨st.transaction, st.packages, frozenTranscripts, asm.block, asm.ledgerParameters, asm.ttl,
    st.attempts⟩

end MultiPartEvent
