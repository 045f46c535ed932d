import MultiPartEvent.Calls
import MultiPartEvent.Js.Numbers
import MultiPartEvent.Publisher.Compose
import MultiPartEvent.Publisher.Record
import MultiPartEvent.Reader.Transaction

/-!
# Finalizing, submitting and locating a transaction

A built transaction is proven, balanced and checked without ever being rebuilt, then only its
record is kept.  `submitRecord` submits exactly the recorded bytes after checking them against
the record; `locateRecord` decides where a transaction found on chain stands relative to it.

The wallet and the proof server are called through `Run`, so that what has been called is part
of the outcome also when a later check throws.
-/

namespace MultiPartEvent

/-- What a provider answers: a transaction of this ledger module, or something else. -/
inductive ProviderAnswer where
  | transaction (tx : Transaction)
  | bytes
  /-- An object with a `version`. -/
  | versioned
  /-- Anything else, by its `typeof`. -/
  | other (typeName : JsString)

/-- The two providers of a finalization. -/
structure Providers where
  /-- Proves every call, with a timeout. -/
  proveTx : Transaction → JsNumber → Except JsError ProviderAnswer
  /-- Pays fees and binds, with the intents' TTL. -/
  balanceTx : Transaction → JsDate → Except JsError ProviderAnswer

/-- A call of a provider. -/
inductive ProviderCall where
  | proveTx (tx : Transaction) (timeout : JsNumber)
  | balanceTx (tx : Transaction) (ttl : JsDate)

/-- Require a provider answer to be a live transaction of this process's ledger module. -/
def requireLedgerTransaction (answer : ProviderAnswer) (stage provider : JsString) :
    Except JsError Transaction :=
  let fail := fun shape => JsError.packageCheckError stage
    (js "the " ++ provider ++ js " returned " ++ shape ++
      js ", not a ledger-v9 transaction of this process; wrap the provider with an adapter")
  match answer with
  | .transaction tx => .ok tx
  | .bytes => .error (fail (js "serialized bytes"))
  | .versioned => .error (fail (js "a version-tagged payload"))
  | .other typeName => .error (fail typeName)

/-- Hook that refuses a transaction whose cost does not fit the pinned parameters. -/
abbrev CostCheck := Transaction → Opaque → JsString → Except JsError Unit

/-- What finalization takes from outside the repository. -/
structure FinalizeEnv where
  ledger : LedgerModule
  /-- `parameters.normalizeFullness(tx.cost(parameters, true))`: each dimension's fraction of a
  block. -/
  normalizedCost : Transaction → Opaque → Except JsError (List (JsString × ℚ))
  /-- `fraction.toFixed(4)`. -/
  toFixed : ℚ → JsString

/-- Default cost check: every dimension is at most the given number of blocks. -/
def blockFullnessCheck (env : FinalizeEnv) (maxFraction : JsNumber) : CostCheck :=
  fun tx parameters stage =>
    match env.normalizedCost tx parameters with
    | .error err => .error (.packageCheckError stage
        (js "cost exceeds the block limits: " ++ err.message))
    | .ok normalized => do
      let _ ← normalized.mapM fun dimension =>
        throwIf (maxFraction.exceededBy dimension.2 = true) (.packageCheckError stage
          (dimension.1 ++ js " uses " ++ env.toFixed dimension.2 ++ js " of a block (limit " ++
            maxFraction.text ++ js ")"))

/-- Options for `finalizeTransactionPackages`. -/
structure FinalizeOptions where
  /-- Per-request proof-server timeout, milliseconds. -/
  proofTimeoutMs : JsNumber
  costCheck : Option CostCheck
  /-- Require the final bytes to be a proven and bound transaction (default true). -/
  requireProofs : Option Bool

/-- The markers of a proven, bound transaction. -/
def finalMarkers : Markers := ⟨js "signature", js "proof", js "binding"⟩

/-- Deserialize saved final bytes, requiring a proven, bound transaction unless told otherwise. -/
def deserializeFinal (ledger : LedgerModule) (bytes : Bytes) (requireProofs : Bool)
    (stage : JsString) : Except JsError Transaction :=
  if requireProofs = false then deserializeTransaction ledger bytes
  else
    match ledger.deserialize finalMarkers bytes with
    | .ok tx => .ok tx
    | .error err => .error (.packageCheckError stage
        (js "bytes are not a proven, bound transaction: " ++ err.message))

/-- `tx.intents?.get(segment)?.intentHash(segment)`. -/
def Transaction.intentHash? (tx : Transaction) : JsNumber → Option JsString
  | .int (.ofNat segment) => (tx.intents.get? segment).map fun intent => intent.intentHash segment
  | _ => none

/-- The hash of the intent at a package's segment. -/
def intentHashAt (tx : Transaction) (segment : JsNumber) (stage : JsString) :
    Except JsError JsString :=
  match tx.intentHash? segment with
  | none => .error (.packageCheckError stage (js "a package intent disappeared"))
  | some hash => .ok hash

/-- The record of one package of the final transaction. -/
def packageRecord (tx : Transaction) (pkg : ExpectedPackage) : Except JsError PackageRecord := do
  let intentHash ← intentHashAt tx pkg.segment (js "after serialization")
  return ⟨pkg.contract, pkg.entryPoint, bytesToHex pkg.name, pkg.segment,
    pkg.parts.map bytesToHex, intentHash⟩

/-- The record of the final bytes and of the transaction they deserialize to. -/
def finalizedRecord (built : BuiltTransaction) (bytes : Bytes) (roundTrip : Transaction) :
    Except JsError FinalizedRecord := do
  let packages ← built.packages.mapM (packageRecord roundTrip)
  let ttl ← built.ttl.toISOString
  return {
    network := (built.packages.head?.map ExpectedPackage.network).getD []
    transactionHex := bytesToHex bytes
    transactionHash := transactionHashOf roundTrip
    identifiers := roundTrip.identifiers
    packages := packages
    ttl := ttl
    blockHash := built.block.hash
    blockHeight := some built.block.height }

/-- Prove once, balance once, and check every package's intent after each stage and after a
serialization round trip. -/
def finalizeTransactionPackages (env : FinalizeEnv) (providers : Providers)
    (built : BuiltTransaction) (options : FinalizeOptions) : Run ProviderCall FinalizedRecord := do
  throwIf (options.proofTimeoutMs.inRange 1 maxSafeInteger = none)
    (.rangeError (js "proofTimeoutMs must be a positive safe integer"))
  let costCheck := options.costCheck.getD (blockFullnessCheck env (.int 1))
  let check := fun (tx : Transaction) stage =>
    assertTransactionPackages tx built.packages stage (some built.frozenTranscripts)
  check built.transaction (js "before proving")
  let proven ← Run.call (.proveTx built.transaction options.proofTimeoutMs)
    (providers.proveTx built.transaction options.proofTimeoutMs)
  let proven ← requireLedgerTransaction proven (js "after proving") (js "prover")
  check proven (js "after proving")
  costCheck proven built.ledgerParameters (js "after proving")
  let finalized ← Run.call (.balanceTx proven built.ttl) (providers.balanceTx proven built.ttl)
  let finalized ← requireLedgerTransaction finalized (js "after balancing") (js "balancer")
  check finalized (js "after balancing")
  costCheck finalized built.ledgerParameters (js "after balancing")
  let bytes := finalized.serialize
  let roundTrip ← deserializeFinal env.ledger bytes (options.requireProofs.getD true)
    (js "after serialization")
  check roundTrip (js "after serialization")
  finalizedRecord built bytes roundTrip

/-- The check of one recorded intent hash. -/
def checkIntentHash (tx : Transaction) (stage : JsString) (pkg : PackageRecord) :
    Except JsError Unit := do
  let hash ← intentHashAt tx pkg.segment stage
  throwIf (hash ≠ pkg.intentHash)
    (.packageCheckError stage (js "saved bytes do not match a recorded intent hash"))

/-- Everything before the submission: the transaction the saved bytes deserialize to, checked
against the record. -/
def checkedTransaction (ledger : LedgerModule) (record : FinalizedRecord) (requireProofs : Bool) :
    Except JsError Transaction := do
  let stage := js "before submission"
  let bytes ← hexToBytes record.transactionHex
  let snapshot ← deserializeFinal ledger bytes requireProofs stage
  let expected ← expectedFromRecord record
  assertTransactionPackages snapshot expected stage none
  throwIf (transactionHashOf snapshot ≠ record.transactionHash)
    (.packageCheckError stage (js "saved bytes do not match the recorded transaction hash"))
  throwIf (snapshot.identifiers.length ≠ record.identifiers.length ∨
      (snapshot.identifiers.zipIdx.any fun item =>
        record.identifiers[item.2]? ≠ some item.1) = true)
    (.packageCheckError stage (js "saved bytes do not match the recorded identifiers"))
  let _ ← record.packages.mapM (checkIntentHash snapshot stage)
  return snapshot

/-- Submit exactly the saved finalized bytes once, after re-checking them against the record. -/
def submitRecord (ledger : LedgerModule) (submitTx : Transaction → Except JsError JsString)
    (record : FinalizedRecord) (requireProofs : Option Bool) : Run Transaction JsString := do
  let snapshot ← checkedTransaction ledger record (requireProofs.getD true)
  Run.call snapshot (submitTx snapshot)

/-- Where a transaction stands relative to a record. -/
structure RecordLocation where
  /-- It contains every recorded package's intent unchanged. -/
  contains : Bool
  /-- It does, and others merged intents into it. -/
  merged : Bool
  reason : Option JsString
  deriving DecidableEq

/-- Decide whether a transaction contains the recorded packages. -/
def locateRecord (tx : Transaction) (record : FinalizedRecord) : RecordLocation :=
  if (record.identifiers.all fun identifier => tx.identifiers.contains identifier) = false then
    ⟨false, false, some (js "a recorded identifier is missing")⟩
  else
    match record.packages.find? (fun pkg => tx.intentHash? pkg.segment ≠ some pkg.intentHash) with
    | some pkg =>
      ⟨false, false, some (js "the package intent at segment " ++ pkg.segment.text ++
        js " differs")⟩
    | none =>
      match (do assertTransactionPackages tx (← expectedFromRecord record) (js "locate") none) with
      | .error err => ⟨false, false, some err.message⟩
      | .ok () =>
        let merged : Bool :=
          match transactionHashOf tx, record.transactionHash with
          | some hash, some recorded => hash ≠ recorded
          | _, _ => tx.identifiers.length ≠ record.identifiers.length
        ⟨true, merged, none⟩

end MultiPartEvent
