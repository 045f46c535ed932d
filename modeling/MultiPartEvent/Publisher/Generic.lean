import MultiPartEvent.Publisher.Gate

/-!
# Transactions other than packages

A deployment, or the call of a state-changing circuit, is finalized and submitted with the
discipline of packages; what is checked at every stage is the caller's own intent.
-/

namespace MultiPartEvent

/-- Checks the caller's own intent at one stage. -/
abbrev IntentCheck := (tx : Transaction) → (stage : JsString) → Except JsError Unit

/-- The public record of a finalized transaction. -/
structure FinalizedTransactionRecord where
  network : JsString
  /-- What the transaction does. -/
  purpose : JsString
  transactionHex : JsString
  transactionHash : Option JsString
  identifiers : List JsString
  ttl : JsString
  blockHash : JsString
  blockHeight : JsNumber
  deriving DecidableEq

/-- Options for `finalizeTransaction`. -/
structure FinalizeTransactionOptions where
  network : JsString
  purpose : JsString
  proofTimeoutMs : JsNumber
  ttl : JsDate
  ledgerParameters : Opaque
  block : PinnedBlock
  check : IntentCheck
  costCheck : Option CostCheck
  /-- Require the final bytes to be proven and bound (default true). -/
  requireProofs : Option Bool

/-- The answer of a provider is a transaction of this ledger module. -/
def requireTransaction (answer : ProviderAnswer) (stage provider : JsString) :
    Except JsError Transaction :=
  match answer with
  | .transaction tx => .ok tx
  | .bytes | .versioned | .other _ => .error (.packageCheckError stage
      (js "the " ++ provider ++ js " did not return a ledger-v9 transaction of this process"))

/-- Prove once, balance once, and run the intent and cost checks at every stage. -/
def finalizeTransaction (env : FinalizeEnv) (providers : Providers) (unproven : Transaction)
    (options : FinalizeTransactionOptions) : Run ProviderCall FinalizedTransactionRecord := do
  let costCheck := options.costCheck.getD (blockFullnessCheck env (.int 1))
  options.check unproven (js "before proving")
  let proven ← Run.call (.proveTx unproven options.proofTimeoutMs)
    (providers.proveTx unproven options.proofTimeoutMs)
  let proven ← requireTransaction proven (js "after proving") (js "prover")
  options.check proven (js "after proving")
  costCheck proven options.ledgerParameters (js "after proving")
  let finalized ← Run.call (.balanceTx proven options.ttl) (providers.balanceTx proven options.ttl)
  let finalized ← requireTransaction finalized (js "after balancing") (js "balancer")
  options.check finalized (js "after balancing")
  costCheck finalized options.ledgerParameters (js "after balancing")
  let bytes := finalized.serialize
  let roundTrip ← deserializeFinal env.ledger bytes (options.requireProofs.getD true)
    (js "after serialization")
  options.check roundTrip (js "after serialization")
  let ttl ← options.ttl.toISOString
  return {
    network := options.network
    purpose := options.purpose
    transactionHex := bytesToHex bytes
    transactionHash := transactionHashOf roundTrip
    identifiers := roundTrip.identifiers
    ttl := ttl
    blockHash := options.block.hash
    blockHeight := options.block.height }

/-- Everything before the submission: the transaction the saved bytes deserialize to, checked
against the record and the caller's intent. -/
def checkedSavedTransaction (ledger : LedgerModule) (record : FinalizedTransactionRecord)
    (check : IntentCheck) (requireProofs : Bool) : Except JsError Transaction := do
  let stage := js "before submission"
  let bytes ← hexToBytes record.transactionHex
  let snapshot ← deserializeFinal ledger bytes requireProofs stage
  check snapshot stage
  throwIf (transactionHashOf snapshot ≠ record.transactionHash)
    (.packageCheckError stage (js "saved bytes do not match the recorded hash"))
  throwIf (snapshot.identifiers.length ≠ record.identifiers.length ∨
      (snapshot.identifiers.zipIdx.any fun item =>
        record.identifiers[item.2]? ≠ some item.1) = true)
    (.packageCheckError stage (js "saved bytes do not match the recorded identifiers"))
  return snapshot

/-- Submit exactly the saved bytes once. -/
def submitSavedTransaction (ledger : LedgerModule)
    (submitTx : Transaction → Except JsError JsString)
    (record : FinalizedTransactionRecord) (check : IntentCheck) (requireProofs : Option Bool) :
    Run Transaction JsString := do
  let snapshot ← checkedSavedTransaction ledger record check (requireProofs.getD true)
  Run.call snapshot (submitTx snapshot)

/-! ### What is submitted -/

variable {ledger : LedgerModule} {submitTx : Transaction → Except JsError JsString}

/-- The checks before the submission return the transaction of the saved bytes. -/
lemma deserializes_of_checkedSavedTransaction {record : FinalizedTransactionRecord}
    {check : IntentCheck} {requireProofs : Bool} {tx : Transaction}
    (h : checkedSavedTransaction ledger record check requireProofs = .ok tx) :
    ∃ bytes, hexToBytes record.transactionHex = .ok bytes ∧
      Deserializes ledger requireProofs bytes tx := by
  obtain ⟨bytes, hbytes, h⟩ := bind_eq_ok_iff.mp h
  obtain ⟨snapshot, hsnapshot, h⟩ := bind_eq_ok_iff.mp h
  obtain ⟨_, -, h⟩ := bind_eq_ok_iff.mp h
  obtain ⟨_, -, h⟩ := bind_eq_ok_iff.mp h
  obtain ⟨_, -, h⟩ := bind_eq_ok_iff.mp h
  rw [pure_eq_ok_iff] at h
  subst h
  exact ⟨bytes, hbytes, deserializeFinal_eq_ok_iff.mp hsnapshot⟩

end MultiPartEvent
