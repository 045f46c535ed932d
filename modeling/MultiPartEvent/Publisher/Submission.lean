import MultiPartEvent.Publisher.Gate

/-!
# Submission and location of finalized records

`submission_gate` is the contract of the last two steps of the publisher: the one irrevocable
side effect happens exactly for consistent records, and every record finalization returns is
consistent, is located in its own transaction, and stays so through a JSON round trip.
-/

namespace MultiPartEvent

/-- A transaction holds what a record says, whatever else it holds. -/
structure Located (tx : Transaction) (record : FinalizedRecord) : Prop where
  identifiers : ∀ identifier ∈ record.identifiers, identifier ∈ tx.identifiers
  intentHashes : ∀ entry ∈ record.packages, tx.intentHash? entry.segment = some entry.intentHash
  packages : ∃ expected, expectedFromRecord record = .ok expected ∧
    assertTransactionPackages tx expected (js "locate") none = .ok ()

/-- A transaction that holds what a record says contains it; it is merged when its hash, or else
the number of its identifiers, differs. -/
lemma Located.locateRecord_eq {tx : Transaction} {record : FinalizedRecord}
    (h : Located tx record) : ∃ merged, locateRecord tx record = ⟨true, merged, none⟩ ∧
      (∀ hash recorded, transactionHashOf tx = some hash → record.transactionHash = some recorded →
        (merged = true ↔ hash ≠ recorded)) ∧
      (transactionHashOf tx = none ∨ record.transactionHash = none →
        (merged = true ↔ tx.identifiers.length ≠ record.identifiers.length)) := by
  obtain ⟨expected, hexpected, hguard⟩ := h.packages
  have hall :
      (record.identifiers.all fun identifier => tx.identifiers.contains identifier) = true := by
    rw [List.all_eq_true]
    exact fun identifier hidentifier => List.contains_iff_mem.mpr (h.identifiers _ hidentifier)
  have hfind : record.packages.find?
      (fun pkg => tx.intentHash? pkg.segment ≠ some pkg.intentHash) = none := by
    rw [List.find?_eq_none]
    intro entry hentry hne
    exact of_decide_eq_true hne (h.intentHashes entry hentry)
  have hchecks :
      (do assertTransactionPackages tx (← expectedFromRecord record) (js "locate") none) =
      Except.ok () := by
    rw [hexpected, ok_bind, hguard]
  refine ⟨_, by rw [locateRecord, hall, if_neg (by decide), hfind]; simp only [hchecks]; rfl, ?_,
    ?_⟩
  · intro hash recorded hhash hrecorded
    simp [hhash, hrecorded]
  · intro hnone
    rcases hnone with hnone | hnone
    · simp [hnone]
    · cases transactionHashOf tx <;> simp [hnone]

/-- A record consistent with a transaction is located in it, and nothing was merged. -/
lemma Gate.locateRecord_eq {ledger : LedgerModule} {requireProofs : Bool} {tx : Transaction}
    {record : FinalizedRecord} (h : Gate ledger requireProofs record tx) :
    locateRecord tx record = ⟨true, false, none⟩ := by
  obtain ⟨expected, hexpected, hholds⟩ := h.packages
  have hlocated : Located tx record :=
    { identifiers := fun _ hidentifier => h.identifiers ▸ hidentifier
      intentHashes := h.intentHashes
      packages := ⟨expected, hexpected, assertTransactionPackages_none_eq_ok_iff.mpr hholds⟩ }
  obtain ⟨merged, hlocate, hhashes, hlengths⟩ := hlocated.locateRecord_eq
  have hmerged : merged = false := by
    rw [← Bool.not_eq_true]
    cases hown : transactionHashOf tx with
    | none =>
      rw [hlengths (Or.inl hown), h.identifiers]
      simp
    | some hash =>
      rw [hhashes hash hash hown (h.hash ▸ hown)]
      simp
  rw [hlocate, hmerged]

/-- Submitting a record consistent with a transaction submits that transaction, once. -/
lemma submitRecord_of_gate {ledger : LedgerModule} {record : FinalizedRecord}
    {requireProofs : Option Bool} {tx : Transaction}
    (h : Gate ledger (requireProofs.getD true) record tx)
    (submitTx : Transaction → Except JsError JsString) :
    submitRecord ledger submitTx record requireProofs = Run.call tx (submitTx tx) := by
  have hcheck := checkedTransaction_eq_ok_iff.mpr h
  rw [submitRecord, hcheck]
  rfl

/-- Submitting any other record throws and calls nobody. -/
lemma submitRecord_of_not_gate {ledger : LedgerModule} {record : FinalizedRecord}
    {requireProofs : Option Bool} (h : ∀ tx, ¬Gate ledger (requireProofs.getD true) record tx)
    (submitTx : Transaction → Except JsError JsString) :
    ∃ err, (submitRecord ledger submitTx record requireProofs).Throws [] err := by
  cases hcheck : checkedTransaction ledger record (requireProofs.getD true) with
  | ok tx => exact absurd (checkedTransaction_eq_ok_iff.mp hcheck) (h tx)
  | error err =>
    refine ⟨err, Run.throws_bind_iff.mpr (Or.inl ?_)⟩
    rw [hcheck, Run.throws_lift_iff]
    exact ⟨rfl, rfl⟩

section Finalized

variable {env : FinalizeEnv} {providers : Providers} {built : BuiltTransaction}
  {options : FinalizeOptions} {calls : List ProviderCall} {record : FinalizedRecord}
  {proven finalized roundTrip : Transaction}

/-- The final transaction holds every built package. -/
lemma Finalized.holds
    (h : Finalized env providers built options calls record proven finalized roundTrip) :
    built.packages ≠ [] ∧ (built.packages.map ExpectedPackage.segment).Nodup ∧
      ∀ pkg ∈ built.packages, ∃ segment intent, HoldsPackage roundTrip pkg none segment intent := by
  obtain ⟨stage, hguard⟩ := h.accepted roundTrip (by simp)
  obtain ⟨hne, hnodup, hall⟩ := assertTransactionPackages_eq_ok_iff.mp hguard
  refine ⟨hne, hnodup, fun pkg hpkg => ?_⟩
  obtain ⟨index, hindex⟩ := List.getElem?_of_mem hpkg
  obtain ⟨segment, intent, hholds⟩ := hall index pkg hindex
  exact ⟨segment, intent, hholds.placed, hholds.found, hholds.holds, by simp, hholds.offer⟩

/-- The record of a finalization encodes packages the final transaction holds, each at the
segment of a built one. -/
lemma Finalized.expected
    (h : Finalized env providers built options calls record proven finalized roundTrip) :
    ∃ expected, expectedFromRecord record = .ok expected ∧ expected ≠ [] ∧
      (expected.map ExpectedPackage.segment).Nodup ∧
      ∀ pkg ∈ expected, (∃ p ∈ built.packages, p.segment = pkg.segment) ∧
        ∃ segment intent, HoldsPackage roundTrip pkg none segment intent := by
  obtain ⟨hne, hnodup, hholds⟩ := h.holds
  refine ⟨_, (recordOf_finalizedRecord h.record).expectedFromRecord_eq, by simpa using hne, ?_, ?_⟩
  · rw [List.map_map]
    exact hnodup
  · intro pkg hpkg
    obtain ⟨p, hp, rfl⟩ := List.mem_map.mp hpkg
    obtain ⟨segment, intent, hp'⟩ := hholds p hp
    exact ⟨⟨p, hp, rfl⟩, segment, intent, hp'.onNetwork record.network⟩

/-- The record of a finalization is consistent with the final transaction. -/
theorem Finalized.gate
    (h : Finalized env providers built options calls record proven finalized roundTrip) :
    Gate env.ledger (options.requireProofs.getD true) record roundTrip := by
  have hrecord := recordOf_finalizedRecord h.record
  refine ⟨⟨finalized.serialize, ?_, h.deserializes⟩, ?_, hrecord.hash.symm,
    hrecord.identifiers.symm, fun entry hentry => ?_⟩
  · rw [hrecord.bytes, hexToBytes_bytesToHex]
  · obtain ⟨expected, hexpected, hne, hnodup, hholds⟩ := h.expected
    exact ⟨expected, hexpected, hne, hnodup, fun pkg hpkg => (hholds pkg hpkg).2⟩
  · obtain ⟨_, -, -, hhash⟩ := hrecord.entries hentry
    exact hhash

/-- The segments of a finalized record are integers. -/
lemma Finalized.segments
    (h : Finalized env providers built options calls record proven finalized roundTrip)
    {entry : PackageRecord} (hentry : entry ∈ record.packages) :
    ∃ segment, entry.segment = .int segment := by
  obtain ⟨pkg, hpkg, hsegment, -⟩ := (recordOf_finalizedRecord h.record).entries hentry
  obtain ⟨segment, _, hholds⟩ := h.holds.2.2 pkg hpkg
  exact ⟨segment, hsegment.trans hholds.placed.1⟩

end Finalized

/-- **The submission gate accepts exactly consistent records, and every finalized record passes
it.**  A record consistent with the transaction its bytes deserialize to is submitted once; any
other is refused without a call.  A finalization that returns has called prover and balancer
once each, and its record encodes the built packages, passes the gate before and after a JSON
round trip, and is located in its own transaction. -/
theorem submission_gate (env : FinalizeEnv) :
    (∀ (submitTx : Transaction → Except JsError JsString) record (requireProofs : Option Bool),
      (∀ tx, Gate env.ledger (requireProofs.getD true) record tx →
        (submitRecord env.ledger submitTx record requireProofs).calls = [tx] ∧
        (submitRecord env.ledger submitTx record requireProofs).result = submitTx tx) ∧
      ((∀ tx, ¬Gate env.ledger (requireProofs.getD true) record tx) →
        ∃ err, (submitRecord env.ledger submitTx record requireProofs).Throws [] err)) ∧
    ∀ providers built options calls record,
      (∀ p ∈ built.packages, ∀ q ∈ built.packages, p.network = q.network) →
      (finalizeTransactionPackages env providers built options).Returns calls record →
      ∃ proven finalized roundTrip reread,
        calls = [.proveTx built.transaction options.proofTimeoutMs,
          .balanceTx proven built.ttl] ∧
        providers.balanceTx proven built.ttl = .ok (.transaction finalized) ∧
        Deserializes env.ledger (options.requireProofs.getD true) finalized.serialize roundTrip ∧
        expectedFromRecord record = .ok built.packages ∧
        Gate env.ledger (options.requireProofs.getD true) record roundTrip ∧
        readRecord record.text = some reread ∧
        Gate env.ledger (options.requireProofs.getD true) reread roundTrip ∧
        locateRecord roundTrip record = ⟨true, false, none⟩ ∧
        locateRecord roundTrip reread = ⟨true, false, none⟩ := by
  constructor
  · intro submitTx record requireProofs
    refine ⟨fun tx hgate => ?_, fun hnone => submitRecord_of_not_gate hnone submitTx⟩
    rw [submitRecord_of_gate hgate submitTx]
    exact ⟨rfl, rfl⟩
  · intro providers built options calls record hnetwork hreturns
    obtain ⟨proven, finalized, roundTrip, h⟩ := finalizeTransactionPackages_returns hreturns
    have hgate := h.gate
    have hexpected : expectedFromRecord record = .ok built.packages :=
      (recordOf_finalizedRecord h.record).expectedFromRecord_eq_packages hnetwork
    have hreread := readRecord_text fun entry hentry => h.segments hentry
    have hgate' : Gate env.ledger (options.requireProofs.getD true)
        { record with blockHeight := record.blockHeight.bind finiteNumber } roundTrip :=
      ⟨hgate.bytes, hgate.packages, hgate.hash, hgate.identifiers, hgate.intentHashes⟩
    exact ⟨proven, finalized, roundTrip, _, h.calls, h.balances, h.deserializes, hexpected, hgate,
      hreread, hgate', hgate.locateRecord_eq, hgate'.locateRecord_eq⟩

/-- An environment whose ledger reads any bytes as one given proven, bound transaction. -/
def singleTransactionEnv (tx : Transaction) : FinalizeEnv where
  ledger :=
    { deserialize := fun markers _ =>
        if markers = finalMarkers then .ok tx else .error (.error (js "invalid bytes"))
      deserializeEvent := fun _ => .error (.error [])
      deserializeState := fun _ => .error (.error []) }
  normalizedCost := fun _ _ => .ok [(js "readTime", 1 / 2)]
  toFixed := fun _ => []

/-- The ledger of the single transaction reads nothing else. -/
lemma deserializes_singleTransactionEnv {tx tx' : Transaction} {bytes : Bytes}
    (h : Deserializes (singleTransactionEnv tx).ledger true bytes tx') : tx' = tx :=
  (Except.ok.inj (h : (.ok tx : Except JsError Transaction) = .ok tx')).symm

/-- A transaction of one emission of one part, at segment 5. -/
def onePartTransaction : Transaction where
  intents :=
    InsertionMap.empty.set 5 (emissionIntent (List.replicate 64 (hexUnit 10)) (js "emitPart")
    [List.replicate 32 7 ++ List.replicate 256 1])
  fallibleOffer := .empty
  ownHash := some (js "aa")
  identifiers := [js "id"]
  serialize := [1, 2]

/-- The transaction as it is built. -/
def onePartBuilt : BuiltTransaction where
  transaction := onePartTransaction
  packages :=
    [⟨js "net", List.replicate 64 (hexUnit 10), js "emitPart", List.replicate 32 7, .int 5,
    [List.replicate 256 1]⟩]
  frozenTranscripts := [[emissionTranscript (List.replicate 32 7 ++ List.replicate 256 1)]]
  block := ⟨js "b", .int 1, .int 1000⟩
  ledgerParameters := []
  ttl := .ofMilliseconds 2200000
  assemblyAttempts := [1]

/-- Providers that answer the transaction they are given. -/
def echoProviders : Providers where
  proveTx := fun tx _ => .ok (.transaction tx)
  balanceTx := fun tx _ => .ok (.transaction tx)

/-- Finalizing the transaction of one part returns a record. -/
lemma finalize_onePartBuilt : ∃ calls record,
    (finalizeTransactionPackages (singleTransactionEnv onePartTransaction) echoProviders
      onePartBuilt ⟨.int 1000, none, none⟩).Returns calls record := by
  have hrun : (finalizeTransactionPackages (singleTransactionEnv onePartTransaction) echoProviders
      onePartBuilt ⟨.int 1000, none, none⟩).result.toOption.isSome = true := by decide +kernel
  obtain ⟨record, hrecord⟩ := Option.isSome_iff_exists.mp hrun
  exact ⟨_, record, rfl, toOption_eq_some_iff.mp hrecord⟩

/-- A package of one part is finalized; its record is submitted, and refused once its
transaction hash has been removed. -/
theorem submission_gate_one_part :
    let env := singleTransactionEnv onePartTransaction
    let submitTx : Transaction → Except JsError JsString := fun _ => .ok (js "id")
    ∃ calls record, (finalizeTransactionPackages env echoProviders onePartBuilt
        ⟨.int 1000, none, none⟩).Returns calls record ∧ calls.length = 2 ∧
      (submitRecord env.ledger submitTx record none).calls = [onePartTransaction] ∧
      ∃ err, (submitRecord env.ledger submitTx { record with transactionHash := none } none).Throws
        [] err := by
  intro env submitTx
  obtain ⟨calls, record, hreturns⟩ := finalize_onePartBuilt
  obtain ⟨hsubmit, hfinalize⟩ := submission_gate env
  have hnetwork : ∀ p ∈ onePartBuilt.packages, ∀ q ∈ onePartBuilt.packages,
      p.network = q.network := by
    intro p hp q hq
    rw [List.mem_singleton.mp hp, List.mem_singleton.mp hq]
  obtain ⟨proven, finalized, roundTrip, reread, hcalls, -, hbytes, -, hgate, -⟩ :=
    hfinalize _ _ _ _ _ hnetwork hreturns
  have hroundTrip : roundTrip = onePartTransaction := deserializes_singleTransactionEnv hbytes
  refine ⟨calls, record, hreturns, by rw [hcalls]; rfl, ?_, ?_⟩
  · exact hroundTrip ▸ ((hsubmit submitTx record none).1 roundTrip hgate).1
  · refine (hsubmit submitTx { record with transactionHash := none } none).2 fun tx' hgate' => ?_
    obtain ⟨bytes, -, hbytes'⟩ := hgate'.bytes
    have hhash := hgate'.hash
    rw [deserializes_singleTransactionEnv hbytes'] at hhash
    cases hhash

end MultiPartEvent
