import MultiPartEvent.Publisher.Submission
import MultiPartEvent.Reader.Extraction

/-!
# Merges by others

Anyone can merge further intents into a transaction before inclusion.  Two transactions that
agree at one segment (`AgreeAt`) are told apart neither by the guard, nor by the placement check,
nor by the reader of the package there; so a finalized record is located in every transaction
that keeps its identifiers and agrees at the segments of its packages.
-/

namespace MultiPartEvent

/-- Two transactions hold the same intent and the same fallible offer at a segment, or none. -/
structure AgreeAt (tx tx' : Transaction) (segment : ℕ) : Prop where
  intent : tx.intents.get? segment = tx'.intents.get? segment
  offer : tx.fallibleOffer.get? segment = tx'.fallibleOffer.get? segment

section Agree

variable {tx tx' : Transaction} {segment : ℕ}

/-- The guard reads the intent and the offer at the package's segment and nothing else. -/
theorem AgreeAt.assertPackageIntent_eq (h : AgreeAt tx tx' segment) {expected : ExpectedPackage}
    (hsegment : expected.segment = .int segment) (stage : JsString)
    (frozen : Option (List Transcript)) :
    assertPackageIntent tx expected stage frozen =
      assertPackageIntent tx' expected stage frozen := by
  unfold assertPackageIntent
  cases hplaced : packageSegment expected stage with
  | error err => rfl
  | ok placed =>
    have hsame : placed = segment := by
      have hint := (packageSegment_eq_ok_iff.mp hplaced).1
      rw [hsegment, JsNumber.int.injEq, Nat.cast_inj] at hint
      exact hint.symm
    subst hsame
    have hintent : packageIntent tx stage placed = packageIntent tx' stage placed := by
      rw [packageIntent, packageIntent, h.intent]
    simp only [ok_bind, hintent, h.offer]

/-- The placement check reads the intent at the package's segment and nothing else. -/
lemma AgreeAt.checkPlacement_eq (h : AgreeAt tx tx' segment) (target : PlacementTarget)
    (parts : List Bytes) :
    checkPlacement tx target segment parts = checkPlacement tx' target segment parts := by
  rw [MultiPartEvent.checkPlacement_eq, MultiPartEvent.checkPlacement_eq]
  simp only [placementIssues, h.intent]

/-- The reader input at a segment comes from the intent there and nothing else. -/
lemma AgreeAt.events_eq (h : AgreeAt tx tx' segment) (scope : TransactionScope) :
    (partEventsFromTransaction tx scope).events.filter (fun e => e.segment = .int segment) =
      (partEventsFromTransaction tx' scope).events.filter (fun e => e.segment = .int segment) := by
  rw [partEventsFromTransaction_at, partEventsFromTransaction_at, valuesAt, valuesAt, h.intent]

end Agree

/-! ### The packages at one segment -/

section Packages

variable {names : InsertionMap JsString (List Bytes)} {network : Option JsString}
  {events : List PartEvent}

/-- The packages at a segment are those the reader finds in the events there. -/
lemma filter_packages_at (hwell : ∀ e ∈ events, e.WellFormed) (segment : ℕ) :
    (readOutput names network events).packages.filter (fun p => p.segment = segment) =
      (readOutput names network (events.filter (fun e => e.segment = .int segment))).packages := by
  have hpart : ∀ e ∈ events, ∀ s, scopeOf names network e = some s →
      decide (s.segment = segment) = decide (e.segment = .int segment) := by
    intro e he s hscope
    rw [segment_of_scopeOf (hwell e he) hscope]
    simp
  exact filter_packages_readOutput hpart

/-- Reader inputs that agree at a segment give the same packages there. -/
lemma packages_at_eq {events' : List PartEvent} {optIns : List OptIn}
    {limits limits' : Option ReaderLimits} {output output' : ReadOutput} {segment : ℕ}
    (hevents : events.filter (fun e => e.segment = .int segment) =
      events'.filter (fun e => e.segment = .int segment))
    (h : readPackages events ⟨optIns, network, limits⟩ = .ok output)
    (h' : readPackages events' ⟨optIns, network, limits'⟩ = .ok output') :
    output.packages.filter (fun p => p.segment = segment) =
      output'.packages.filter (fun p => p.segment = segment) := by
  obtain ⟨_, _, names, haccepts, -, hwell, -, rfl⟩ := readPackages_eq_ok_iff.mp h
  obtain ⟨_, _, names', haccepts', -, hwell', -, rfl⟩ := readPackages_eq_ok_iff.mp h'
  have hnames : names = names' := Except.ok.inj (haccepts.names.symm.trans haccepts'.names)
  rw [filter_packages_at hwell, filter_packages_at hwell', hevents, hnames]

end Packages

/-! ### Finalized records -/

/-- A transaction holds a package where it agrees with one that does. -/
lemma AgreeAt.holdsPackage {tx tx' : Transaction} {pkg : ExpectedPackage} {segment : ℕ}
    {intent : Intent} (hagree : AgreeAt tx tx' segment)
    (h : HoldsPackage tx pkg none segment intent) : HoldsPackage tx' pkg none segment intent :=
  ⟨h.placed, hagree.intent ▸ h.found, h.holds, h.unchanged, hagree.offer ▸ h.offer⟩

/-- Bytes deserialize to one transaction. -/
lemma Deserializes.unique {ledger : LedgerModule} {requireProofs : Bool} {bytes : Bytes}
    {tx tx' : Transaction} (h : Deserializes ledger requireProofs bytes tx)
    (h' : Deserializes ledger requireProofs bytes tx') : tx = tx' := by
  unfold Deserializes at h h'
  split_ifs at h h' <;> exact Except.ok.inj (h.symm.trans h')

/-- A finalized record is located in every transaction that keeps the identifiers of the final
one and agrees with it at the segments of the packages. -/
lemma Finalized.located {env : FinalizeEnv} {providers : Providers} {built : BuiltTransaction}
    {options : FinalizeOptions} {calls : List ProviderCall} {record : FinalizedRecord}
    {proven finalized roundTrip merged : Transaction}
    (h : Finalized env providers built options calls record proven finalized roundTrip)
    (hidentifiers : ∀ identifier ∈ roundTrip.identifiers, identifier ∈ merged.identifiers)
    (hagree : ∀ entry ∈ record.packages, ∀ segment : ℕ, entry.segment = .int segment →
      AgreeAt roundTrip merged segment) : Located merged record := by
  have hrecord := recordOf_finalizedRecord h.record
  obtain ⟨expected, hexpected, hne, hnodup, hholds⟩ := h.expected
  have hentries : ∀ p ∈ built.packages, ∃ entry ∈ record.packages, entry.segment = p.segment := by
    intro p hp
    obtain ⟨i, hi, rfl⟩ := List.getElem_of_mem hp
    obtain ⟨hlength, hall⟩ := List.forall₂_iff_get.mp hrecord.packages
    have hi' : i < record.packages.length := hlength ▸ hi
    exact ⟨record.packages[i], List.getElem_mem hi', (packageRecord_eq_ok (hall i hi hi')).1⟩
  refine ⟨fun identifier hidentifier => ?_, fun entry hentry => ?_, expected, hexpected,
    assertTransactionPackages_none_eq_ok_iff.mpr ⟨hne, hnodup, fun pkg hpkg => ?_⟩⟩
  · exact hidentifiers identifier (hrecord.identifiers ▸ hidentifier)
  · obtain ⟨pkg, hpkg, hsegment, hhash⟩ := hrecord.entries hentry
    obtain ⟨segment, intent, hpackage⟩ := h.holds.2.2 pkg hpkg
    have hplaced : entry.segment = .int segment := hsegment.trans hpackage.placed.1
    have hsame := (hagree entry hentry segment hplaced).intent
    rw [hplaced] at hhash ⊢
    change (merged.intents.get? segment).map _ = _
    rw [← hsame]
    exact hhash
  · obtain ⟨⟨p, hp, hsegment⟩, segment, intent, hpackage⟩ := hholds pkg hpkg
    obtain ⟨entry, hentry, hplaced⟩ := hentries p hp
    have hint : entry.segment = .int segment :=
      hplaced.trans (hsegment.trans hpackage.placed.1)
    exact ⟨segment, intent, (hagree entry hentry segment hint).holdsPackage hpackage⟩

/-- **Merges by others cannot touch a package.**  Transactions that agree at a segment give the
same outcome of the guard, the same placement issues and the same packages there; a finalized
record of a transaction is located in every transaction that keeps its identifiers and agrees at
the recorded segments, and it is reported as merged exactly when the hash differs. -/
theorem merges_keep_packages :
    (∀ (tx tx' : Transaction) (segment : ℕ), AgreeAt tx tx' segment →
      (∀ (expected : ExpectedPackage) stage frozen, expected.segment = .int segment →
        assertPackageIntent tx expected stage frozen =
          assertPackageIntent tx' expected stage frozen) ∧
      (∀ target parts,
        checkPlacement tx target segment parts = checkPlacement tx' target segment parts) ∧
      ∀ scope optIns network limits limits' output output',
        readPackages (partEventsFromTransaction tx scope).events ⟨optIns, network, limits⟩ =
          .ok output →
        readPackages (partEventsFromTransaction tx' scope).events ⟨optIns, network, limits'⟩ =
          .ok output' →
        output.packages.filter (fun p => p.segment = segment) =
          output'.packages.filter (fun p => p.segment = segment)) ∧
    ∀ env providers built options calls record bytes tx merged,
      (finalizeTransactionPackages env providers built options).Returns calls record →
      hexToBytes record.transactionHex = .ok bytes →
      Deserializes env.ledger (options.requireProofs.getD true) bytes tx →
      (∀ identifier ∈ tx.identifiers, identifier ∈ merged.identifiers) →
      (∀ entry ∈ record.packages, ∀ segment : ℕ, entry.segment = .int segment →
        AgreeAt tx merged segment) →
      (locateRecord merged record).contains = true ∧
        ∀ hash recorded, transactionHashOf merged = some hash →
          record.transactionHash = some recorded →
          ((locateRecord merged record).merged = true ↔ hash ≠ recorded) := by
  constructor
  · intro tx tx' segment hagree
    refine ⟨fun expected stage frozen hsegment =>
      hagree.assertPackageIntent_eq hsegment stage frozen, hagree.checkPlacement_eq, ?_⟩
    intro scope optIns network limits limits' output output' h h'
    exact packages_at_eq (hagree.events_eq scope) h h'
  · intro env providers built options calls record bytes tx merged hreturns hbytes htx
      hidentifiers hagree
    obtain ⟨proven, finalized, roundTrip, h⟩ := finalizeTransactionPackages_returns hreturns
    have hserialized : bytes = finalized.serialize := by
      rw [(recordOf_finalizedRecord h.record).bytes, hexToBytes_bytesToHex] at hbytes
      exact (Except.ok.inj hbytes).symm
    subst hserialized
    have hsame : roundTrip = tx := h.deserializes.unique htx
    subst hsame
    obtain ⟨_, hlocate, hhashes, -⟩ := (h.located hidentifiers hagree).locateRecord_eq
    rw [hlocate]
    exact ⟨rfl, hhashes⟩

/-- A transaction of one part into which an intent of the same contract, circuit and name was
merged at segment 51. -/
def mergedTransaction : Transaction :=
  { onePartTransaction with
    intents := onePartTransaction.intents.set 51 (emissionIntent (List.replicate 64 (hexUnit 10))
      (js "emitPart") [List.replicate 32 7 ++ List.replicate 256 2])
    ownHash := some (js "bb") }

/-- The record of the part is located in the merged transaction. -/
theorem merges_keep_packages_one_merge : ∃ record, record.transactionHash = some (js "aa") ∧
    (locateRecord mergedTransaction record).contains = true ∧
    (locateRecord mergedTransaction record).merged = true := by
  obtain ⟨calls, record, hreturns⟩ := finalize_onePartBuilt
  obtain ⟨proven, finalized, roundTrip, h⟩ := finalizeTransactionPackages_returns hreturns
  have hroundTrip : roundTrip = onePartTransaction :=
    deserializes_singleTransactionEnv h.deserializes
  have hrecord := recordOf_finalizedRecord h.record
  rw [hroundTrip] at hrecord
  have hagree : ∀ entry ∈ record.packages, ∀ segment : ℕ, entry.segment = .int segment →
      AgreeAt onePartTransaction mergedTransaction segment := by
    intro entry hentry segment hsegment
    obtain ⟨pkg, hpkg, hplaced, -⟩ := hrecord.entries hentry
    rw [List.mem_singleton.mp hpkg] at hplaced
    have hfive : segment = 5 := by
      rw [hsegment] at hplaced
      have hint := JsNumber.int.inj hplaced
      omega
    rw [hfive]
    refine ⟨?_, rfl⟩
    rw [mergedTransaction, InsertionMap.get?_set, if_neg (by decide)]
  obtain ⟨hcontains, hmerged⟩ := merges_keep_packages.2 _ _ _ _ _ record finalized.serialize
    onePartTransaction mergedTransaction hreturns (by rw [hrecord.bytes, hexToBytes_bytesToHex])
    (hroundTrip ▸ h.deserializes) (fun _ hidentifier => hidentifier) hagree
  exact ⟨record, hrecord.hash, hcontains,
    (hmerged (js "bb") (js "aa") rfl hrecord.hash).mpr (by decide)⟩

end MultiPartEvent
