import MultiPartEvent.Publisher.Generic

/-!
# Transactions with one circuit call

A transaction with one guaranteed call of a contract circuit, for a circuit that changes the
contract's state.  Such a call is never batched with the parts of a package, which are executed from
one state.
-/

namespace MultiPartEvent

/-- `new Date((block.timestampSeconds + ttlSeconds) * 1000)`.  No block is older than the epoch,
where a `JsDate` starts. -/
def ttlAfter (timestampSeconds ttlSeconds : JsNumber) : JsDate :=
  match timestampSeconds.finite?, ttlSeconds.finite? with
  | some timestamp, some seconds =>
    if 0 ≤ timestamp + seconds then .ofMilliseconds ⌊(timestamp + seconds) * 1000⌋₊ else ⟨none⟩
  | _, _ => ⟨none⟩

/-- One circuit call to build. -/
structure CircuitCallPlan (PS : Type) where
  network : JsString
  /-- Contract address, 64 lowercase hex characters. -/
  address : JsString
  /-- The circuit to call. -/
  circuit : JsString
  /-- The submitting wallet's coin public key. -/
  coinPublicKey : JsString
  /-- Runs the generated circuit. -/
  execute : CircuitContext PS → Except JsError CircuitResults
  /-- Private state answering the circuit's witnesses. -/
  privateState : PS
  /-- TTL after the pinned block time (default 1200 s). -/
  ttlSeconds : Option JsNumber
  keyLocation : Option KeyLocationResolver

/-- A built single-call transaction. -/
structure BuiltCall where
  transaction : Transaction
  address : JsString
  circuit : JsString
  segment : ℕ
  block : PinnedBlock
  ledgerParameters : Opaque
  ttl : JsDate

/-- What the check of a call knows of it. -/
structure CallTarget where
  address : JsString
  circuit : JsString
  segment : ℕ

/-- The target of a built call. -/
def BuiltCall.target (built : BuiltCall) : CallTarget :=
  ⟨built.address, built.circuit, built.segment⟩

/-- The action is a call of the target's circuit. -/
def CallTarget.calledBy (built : CallTarget) (action : ContractAction) : Bool :=
  match action with
  | .call call => call.address = built.address ∧ entryPointText call.entryPoint = built.circuit
  | .other _ => false

/-- The check of the actions of the intents besides the call's own. -/
def checkOtherIntent (built : CallTarget) (stage : JsString) (entry : ℕ × Intent) :
    Except JsError Unit :=
  if entry.1 = built.segment then return ()
  else throwIf (entry.2.actions.any built.calledBy = true) (.packageCheckError stage
    (js "segment " ++ decimal entry.1 ++ js " also calls " ++ built.circuit))

/-- Check the call's own intent: exactly one guaranteed-only call to the address and circuit,
nothing else in that intent, and no call to that circuit in any other intent. -/
def callIntentCheck (built : CallTarget) : IntentCheck := fun tx stage => do
  let fail := JsError.packageCheckError stage
  match tx.intents.get? built.segment with
  | none => throw (fail (js "no intent at segment " ++ decimal built.segment))
  | some intent =>
    match intent.actions with
    | [.call call] => do
      throwIf (call.address ≠ built.address ∨ entryPointText call.entryPoint ≠ built.circuit)
        (fail (js "the call targets another contract or circuit"))
      throwIf (call.fallibleTranscript ≠ none) (fail (js "the call has a fallible transcript"))
      throwIf (call.guaranteedTranscript = none) (fail (js "the call has no guaranteed transcript"))
      throwIf (intent.guaranteedUnshieldedOffer ≠ none ∨ intent.fallibleUnshieldedOffer ≠ none ∨
          intent.dustActions ≠ none) (fail (js "the call intent carries offers or DUST actions"))
      let _ ← tx.intents.entries.mapM (checkOtherIntent built stage)
      return ()
    | [.other _] => throw (fail (js "the action is not a contract call"))
    | actions => throw (fail (js "the call intent has " ++ decimal actions.length ++ js " actions"))

/-- The check of an execution: one trace of the circuit, without a cross-contract call and without
shielded coins. -/
def checkCircuitTrace (results : CircuitResults) (address circuit : JsString) :
    Except JsError CallProofData := do
  let fail := JsError.packageCheckError (js "execution")
  match results.callProofDataTrace with
  | [trace] => do
    throwIf (trace.contractAddress ≠ address ∨ trace.circuitId ≠ circuit)
      (fail (js "trace targets another contract or circuit"))
    throwIf (trace.commCommData ≠ none) (fail (js "the circuit made a cross-contract call"))
    throwIf (((trace.zswapLocalState.inputs.map List.length).getD 0) > 0 ∨
        ((trace.zswapLocalState.outputs.map List.length).getD 0) > 0)
      (fail (js "the circuit touched shielded coins"))
    return trace
  | traces => throw (fail (js "produced " ++ decimal traces.length ++ js " call traces"))

/-- `DEFAULT_MAX_ASSEMBLY_ATTEMPTS`, as the number of draws. -/
def circuitCallAttempts : ℕ := 8

/-- Execute one circuit against the state at the latest block and assemble it as one guaranteed
call. -/
def buildCircuitCallTransaction {PS : Type} (env : AssemblyEnv) (source : PublicationStateSource)
    (plan : CircuitCallPlan PS) : Except JsError BuiltCall := do
  throwIf (isAddress plan.address = false)
    (.rangeError (js "address must be 64 lowercase hex characters"))
  let block ← source.latestBlock
  let snapshot ← source.contractStateAt plan.address block.hash
  let runtimeState ← env.runtimeState snapshot.contractState
  let ledgerState ← env.ledger.deserializeState snapshot.contractState
  match (ledgerState.operation plan.circuit).bind ContractOperation.verifierKey with
  | none | some [] =>
    throw (.error (js "contract has no verifier key for '" ++ plan.circuit ++ js "'"))
  | some verifierKey => do
    let result ← plan.execute
      { entryPoint := plan.circuit
        contract := plan.address
        coinPublicKey := plan.coinPublicKey
        contractState := runtimeState
        privateState := plan.privateState
        timestampSeconds := block.timestampSeconds
        blockHash := block.hash }
    let trace ← checkCircuitTrace result plan.address plan.circuit
    let keyLocation ← plan.keyLocation.getD (canonicalKeyLocation env.sha256Hex)
      ⟨plan.address, plan.circuit, verifierKey⟩
    let ttl := ttlAfter block.timestampSeconds (plan.ttlSeconds.getD defaultTtlSeconds)
    let assembled ← addGuaranteedIntent env (env.fromPartsRandomized plan.network)
      (fun draw => do
        return [← prePartitionCallFor trace ledgerState keyLocation (env.randomness draw 0)])
      snapshot.ledgerParameters ttl circuitCallAttempts 0
    let built : BuiltCall :=
      ⟨assembled.transaction, plan.address, plan.circuit, assembled.segment, block,
      snapshot.ledgerParameters, ttl⟩
    callIntentCheck built.target built.transaction (js "after assembly")
    return built

end MultiPartEvent
