import MultiPartEvent.Publisher.Finalize

/-!
# The submission gate

`Gate` says when a record is consistent with the transaction its bytes deserialize to.
`checkedTransaction_eq_ok_iff` is the connection with the checks of `submitRecord`; from it,
submission happens exactly for consistent records, and every finalized record is consistent,
also after it has been written as JSON and read back.
-/

namespace MultiPartEvent

/-- Bytes deserialize to a transaction, as proven and bound where that is required. -/
def Deserializes (ledger : LedgerModule) (requireProofs : Bool) (bytes : Bytes) (tx : Transaction) :
    Prop :=
  if requireProofs = true then ledger.deserialize finalMarkers bytes = .ok tx
  else deserializeTransaction ledger bytes = .ok tx

/-- A record is consistent with a transaction: its bytes deserialize to it, it holds every
recorded package at distinct segments, and its hashes and identifiers are the recorded ones. -/
structure Gate (ledger : LedgerModule) (requireProofs : Bool) (record : FinalizedRecord)
    (tx : Transaction) : Prop where
  bytes : ∃ bytes, hexToBytes record.transactionHex = .ok bytes ∧
    Deserializes ledger requireProofs bytes tx
  packages : ∃ expected, expectedFromRecord record = .ok expected ∧ expected ≠ [] ∧
    (expected.map ExpectedPackage.segment).Nodup ∧
    ∀ pkg ∈ expected, ∃ segment intent, HoldsPackage tx pkg none segment intent
  hash : transactionHashOf tx = record.transactionHash
  identifiers : tx.identifiers = record.identifiers
  intentHashes : ∀ pkg ∈ record.packages, tx.intentHash? pkg.segment = some pkg.intentHash

section Checks

variable {ledger : LedgerModule} {requireProofs : Bool} {stage : JsString}
  {record : FinalizedRecord} {tx : Transaction}

/-- Deserialization of final bytes, whatever stage it names in its error. -/
lemma deserializeFinal_eq_ok_iff {bytes : Bytes} :
    deserializeFinal ledger bytes requireProofs stage = .ok tx ↔
      Deserializes ledger requireProofs bytes tx := by
  unfold deserializeFinal Deserializes
  cases requireProofs with
  | false => simp
  | true => cases ledger.deserialize finalMarkers bytes <;> simp

/-- The hash of an intent that is there. -/
lemma intentHashAt_eq_ok_iff {segment : JsNumber} {hash : JsString} :
    intentHashAt tx segment stage = .ok hash ↔ tx.intentHash? segment = some hash := by
  unfold intentHashAt
  cases tx.intentHash? segment <;> simp

/-- Comparing lists place by place. -/
lemma identifiers_differ_iff {l l' : List JsString} :
    ¬(l.length ≠ l'.length ∨ (l.zipIdx.any fun item => l'[item.2]? ≠ some item.1) = true) ↔
      l = l' := by
  rw [not_or, not_not, Bool.not_eq_true, List.any_eq_false]
  constructor
  · intro h
    obtain ⟨hlength, hall⟩ := h
    refine List.ext_getElem hlength fun i hi hi' => ?_
    have hplace : (l[i], i) ∈ l.zipIdx :=
      List.mk_mem_zipIdx_iff_getElem?.mpr (List.getElem?_eq_getElem hi)
    have hsame := hall _ hplace
    rw [decide_eq_true_iff, not_not, List.getElem?_eq_getElem hi', Option.some.injEq] at hsame
    exact hsame.symm
  · intro h
    subst h
    refine ⟨rfl, fun item hitem hne => ?_⟩
    exact of_decide_eq_true hne (List.mk_mem_zipIdx_iff_getElem?.mp hitem)

/-- The guard accepts a transaction without frozen transcripts exactly when it holds each of
the packages, at distinct segments. -/
lemma assertTransactionPackages_none_eq_ok_iff {expected : List ExpectedPackage} :
    assertTransactionPackages tx expected stage none = .ok () ↔
      expected ≠ [] ∧ (expected.map ExpectedPackage.segment).Nodup ∧
        ∀ pkg ∈ expected, ∃ segment intent, HoldsPackage tx pkg none segment intent := by
  rw [assertTransactionPackages_eq_ok_iff]
  refine and_congr_right fun _ => and_congr_right fun _ => ?_
  constructor
  · intro h pkg hpkg
    obtain ⟨index, hindex⟩ := List.getElem?_of_mem hpkg
    exact h index pkg hindex
  · intro h index pkg hindex
    exact h pkg (List.mem_of_getElem? hindex)

/-- **The checks before submission accept exactly consistent records.** -/
theorem checkedTransaction_eq_ok_iff :
    checkedTransaction ledger record requireProofs = .ok tx ↔
      Gate ledger requireProofs record tx := by
  have hhashes : ∀ snapshot : Transaction,
      (∃ results, record.packages.mapM (checkIntentHash snapshot (js "before submission")) =
        .ok results) ↔ ∀ pkg ∈ record.packages, snapshot.intentHash? pkg.segment =
          some pkg.intentHash := by
    intro snapshot
    rw [exists_mapM_eq_ok_iff]
    refine forall₂_congr fun pkg _ => ?_
    rw [checkIntentHash, bind_eq_ok_iff]
    constructor
    · intro h
      obtain ⟨hash, hhash, hsame⟩ := h
      rw [throwIf_eq_ok_iff, not_not] at hsame
      exact hsame ▸ intentHashAt_eq_ok_iff.mp hhash
    · intro h
      exact ⟨pkg.intentHash, intentHashAt_eq_ok_iff.mpr h, by simp⟩
  constructor
  · intro h
    obtain ⟨bytes, hbytes, h⟩ := bind_eq_ok_iff.mp h
    obtain ⟨snapshot, hsnapshot, h⟩ := bind_eq_ok_iff.mp h
    obtain ⟨expected, hexpected, h⟩ := bind_eq_ok_iff.mp h
    obtain ⟨_, hguard, h⟩ := bind_eq_ok_iff.mp h
    obtain ⟨_, hhash, h⟩ := bind_eq_ok_iff.mp h
    obtain ⟨_, hidentifiers, h⟩ := bind_eq_ok_iff.mp h
    obtain ⟨results, hresults, h⟩ := bind_eq_ok_iff.mp h
    rw [pure_eq_ok_iff] at h
    subst h
    rw [throwIf_eq_ok_iff, not_not] at hhash
    rw [throwIf_eq_ok_iff, identifiers_differ_iff] at hidentifiers
    exact
      { bytes := ⟨bytes, hbytes, deserializeFinal_eq_ok_iff.mp hsnapshot⟩
        packages := ⟨expected, hexpected, assertTransactionPackages_none_eq_ok_iff.mp hguard⟩
        hash := hhash
        identifiers := hidentifiers
        intentHashes := (hhashes snapshot).mp ⟨results, hresults⟩ }
  · intro h
    obtain ⟨bytes, hbytes, hsnapshot⟩ := h.bytes
    obtain ⟨expected, hexpected, hholds⟩ := h.packages
    obtain ⟨results, hresults⟩ := (hhashes tx).mpr h.intentHashes
    refine bind_eq_ok_iff.mpr ⟨bytes, hbytes, bind_eq_ok_iff.mpr
      ⟨tx, deserializeFinal_eq_ok_iff.mpr hsnapshot, bind_eq_ok_iff.mpr ⟨expected, hexpected,
        bind_eq_ok_iff.mpr ⟨(), assertTransactionPackages_none_eq_ok_iff.mpr hholds,
          bind_eq_ok_iff.mpr ⟨(), ?_, bind_eq_ok_iff.mpr ⟨(), ?_, bind_eq_ok_iff.mpr
            ⟨results, hresults, rfl⟩⟩⟩⟩⟩⟩⟩
    · rw [throwIf_eq_ok_iff, not_not]
      exact h.hash
    · rw [throwIf_eq_ok_iff, identifiers_differ_iff]
      exact h.identifiers

end Checks

/-! ### Finalized records -/

/-- What finalization leaves behind: both providers called once, and a record of the
transaction the final bytes deserialize to. -/
structure Finalized (env : FinalizeEnv) (providers : Providers) (built : BuiltTransaction)
    (options : FinalizeOptions) (calls : List ProviderCall) (record : FinalizedRecord)
    (proven finalized roundTrip : Transaction) : Prop where
  proves : providers.proveTx built.transaction options.proofTimeoutMs = .ok (.transaction proven)
  balances : providers.balanceTx proven built.ttl = .ok (.transaction finalized)
  calls : calls = [.proveTx built.transaction options.proofTimeoutMs, .balanceTx proven built.ttl]
  accepted : ∀ tx ∈ [built.transaction, proven, finalized, roundTrip],
    ∃ stage, assertTransactionPackages tx built.packages stage (some built.frozenTranscripts) =
      .ok ()
  deserializes : Deserializes env.ledger (options.requireProofs.getD true) finalized.serialize
    roundTrip
  record : finalizedRecord built finalized.serialize roundTrip = .ok record

/-- The answer of a provider is a transaction. -/
lemma requireLedgerTransaction_eq_ok_iff {answer : ProviderAnswer} {stage provider : JsString}
    {tx : Transaction} :
    requireLedgerTransaction answer stage provider = .ok tx ↔ answer = .transaction tx := by
  cases answer <;> simp [requireLedgerTransaction]

/-- A finalization that returns has called both providers once, in order. -/
theorem finalizeTransactionPackages_returns {env : FinalizeEnv} {providers : Providers}
    {built : BuiltTransaction} {options : FinalizeOptions} {calls : List ProviderCall}
    {record : FinalizedRecord}
    (h : (finalizeTransactionPackages env providers built options).Returns calls record) :
    ∃ proven finalized roundTrip,
      Finalized env providers built options calls record proven finalized roundTrip := by
  obtain ⟨_, -, h⟩ := Run.returns_lift_bind_iff.mp h
  obtain ⟨_, hbuilt, h⟩ := Run.returns_lift_bind_iff.mp h
  obtain ⟨rest, proven, rfl, hproves, h⟩ := Run.returns_call_bind_iff.mp h
  obtain ⟨proven', hproven, h⟩ := Run.returns_lift_bind_iff.mp h
  obtain ⟨_, hcheck, h⟩ := Run.returns_lift_bind_iff.mp h
  obtain ⟨_, -, h⟩ := Run.returns_lift_bind_iff.mp h
  obtain ⟨rest', finalized, rfl, hbalances, h⟩ := Run.returns_call_bind_iff.mp h
  obtain ⟨finalized', hfinalized, h⟩ := Run.returns_lift_bind_iff.mp h
  obtain ⟨_, hcheck', h⟩ := Run.returns_lift_bind_iff.mp h
  obtain ⟨_, -, h⟩ := Run.returns_lift_bind_iff.mp h
  obtain ⟨roundTrip, hroundTrip, h⟩ := Run.returns_lift_bind_iff.mp h
  obtain ⟨_, hcheck'', h⟩ := Run.returns_lift_bind_iff.mp h
  obtain ⟨rfl, hrecord⟩ := Run.returns_lift_iff.mp h
  rw [requireLedgerTransaction_eq_ok_iff] at hproven hfinalized
  subst hproven hfinalized
  refine ⟨proven', finalized', roundTrip, hproves, hbalances, rfl, ?_,
    deserializeFinal_eq_ok_iff.mp hroundTrip, hrecord⟩
  intro tx htx
  simp only [List.mem_cons, List.not_mem_nil, or_false] at htx
  rcases htx with rfl | rfl | rfl | rfl
  exacts [⟨_, hbuilt⟩, ⟨_, hcheck⟩, ⟨_, hcheck'⟩, ⟨_, hcheck''⟩]

section Records

variable {built : BuiltTransaction} {bytes : Bytes} {roundTrip : Transaction}
  {record : FinalizedRecord}

/-- What a record says of the transaction it was made of. -/
structure RecordOf (built : BuiltTransaction) (bytes : Bytes) (roundTrip : Transaction)
    (record : FinalizedRecord) : Prop where
  network : record.network = (built.packages.head?.map ExpectedPackage.network).getD []
  bytes : record.transactionHex = bytesToHex bytes
  hash : record.transactionHash = transactionHashOf roundTrip
  identifiers : record.identifiers = roundTrip.identifiers
  packages : List.Forall₂ (fun pkg entry => packageRecord roundTrip pkg = .ok entry)
    built.packages record.packages

/-- The record is made of the final transaction. -/
lemma recordOf_finalizedRecord (h : finalizedRecord built bytes roundTrip = .ok record) :
    RecordOf built bytes roundTrip record := by
  obtain ⟨packages, hpackages, h⟩ := bind_eq_ok_iff.mp h
  obtain ⟨ttl, -, h⟩ := bind_eq_ok_iff.mp h
  rw [pure_eq_ok_iff] at h
  subst h
  exact ⟨rfl, rfl, rfl, rfl, mapM_eq_ok_iff.mp hpackages⟩

/-- The record of a package keeps its segment and the hash of its intent. -/
lemma packageRecord_eq_ok {tx : Transaction} {pkg : ExpectedPackage} {entry : PackageRecord}
    (h : packageRecord tx pkg = .ok entry) :
    entry.segment = pkg.segment ∧ tx.intentHash? entry.segment = some entry.intentHash := by
  obtain ⟨hash, hhash, h⟩ := bind_eq_ok_iff.mp h
  rw [pure_eq_ok_iff] at h
  subst h
  exact ⟨rfl, intentHashAt_eq_ok_iff.mp hhash⟩

/-- A package is read back from its record, on the record's network. -/
lemma expectedFromPackage_packageRecord {tx : Transaction} {pkg : ExpectedPackage}
    {entry : PackageRecord} (h : packageRecord tx pkg = .ok entry) (network : JsString) :
    expectedFromPackage network entry = .ok { pkg with network := network } := by
  obtain ⟨hash, -, h⟩ := bind_eq_ok_iff.mp h
  rw [pure_eq_ok_iff] at h
  subst h
  have hparts : (pkg.parts.map bytesToHex).mapM hexToBytes = .ok pkg.parts := by
    rw [mapM_eq_ok_iff, List.forall₂_map_left_iff, List.forall₂_same]
    exact fun part _ => hexToBytes_bytesToHex part
  rw [expectedFromPackage, hexToBytes_bytesToHex, ok_bind, hparts]
  rfl

/-- The expectations of a record are the built packages, on the record's network. -/
theorem RecordOf.expectedFromRecord_eq (h : RecordOf built bytes roundTrip record) :
    expectedFromRecord record =
      .ok (built.packages.map fun pkg => { pkg with network := record.network }) := by
  rw [expectedFromRecord, mapM_eq_ok_iff, List.forall₂_map_right_iff]
  exact (h.packages.imp fun pkg entry hentry =>
    expectedFromPackage_packageRecord hentry record.network).flip

/-- **The expectations of a record are the built packages** when these share a network. -/
theorem RecordOf.expectedFromRecord_eq_packages (h : RecordOf built bytes roundTrip record)
    (hnetwork : ∀ p ∈ built.packages, ∀ q ∈ built.packages, p.network = q.network) :
    expectedFromRecord record = .ok built.packages := by
  have hsame : ∀ pkg ∈ built.packages, { pkg with network := record.network } = pkg := by
    intro pkg hpkg
    have hrecord : record.network = pkg.network := by
      rw [h.network]
      cases hhead : built.packages with
      | nil => rw [hhead] at hpkg; cases hpkg
      | cons first rest => exact hnetwork first (hhead ▸ List.mem_cons_self) pkg hpkg
    rw [hrecord]
  rw [h.expectedFromRecord_eq, List.map_congr_left hsame, List.map_id']

/-- The segments and intent hashes of a record are those of the transaction. -/
lemma RecordOf.entries (h : RecordOf built bytes roundTrip record) {entry : PackageRecord}
    (hentry : entry ∈ record.packages) : ∃ pkg ∈ built.packages, entry.segment = pkg.segment ∧
      roundTrip.intentHash? entry.segment = some entry.intentHash := by
  obtain ⟨i, hi, rfl⟩ := List.getElem_of_mem hentry
  obtain ⟨hlength, hall⟩ := List.forall₂_iff_get.mp h.packages
  have hi' : i < built.packages.length := hlength ▸ hi
  exact ⟨built.packages[i], List.getElem_mem hi', packageRecord_eq_ok (hall i hi' hi)⟩

/-- What a transaction holds of a package does not depend on the network it is recorded for. -/
lemma HoldsPackage.onNetwork {tx : Transaction} {pkg : ExpectedPackage} {segment : ℕ}
    {intent : Intent} (h : HoldsPackage tx pkg none segment intent) (network : JsString) :
    HoldsPackage tx { pkg with network := network } none segment intent where
  placed := h.placed
  found := h.found
  holds :=
    { parts := h.holds.parts
      name := h.holds.name
      actions := h.holds.actions.imp fun _ _ hpart => by
        obtain ⟨call, transcript, hcall⟩ := hpart
        exact ⟨call, transcript, hcall.isCall, hcall.contract, hcall.entryPoint, hcall.fallible,
          hcall.guaranteed, hcall.width, hcall.emits⟩
      offers := h.holds.offers
      dust := h.holds.dust }
  unchanged := by simp
  offer := h.offer

end Records

end MultiPartEvent
