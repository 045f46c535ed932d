import MultiPartEvent.Reader.Level2

/-!
# Level 2 is exact

`verifyTransactionPackages` reads the packages of a (contract, N) from a transaction and keeps
those with a clean placement, when the transaction is included under its hash.  Both directions
of `verifyTransactionPackages_exact` hold for every mix of contracts, circuits, transcripts and
unreadable calls in the other intents.
-/

namespace MultiPartEvent

section VerifyTransaction

variable {tx : Transaction} {options : VerifyTransactionOptions} {name : Bytes}

/-! ### Transaction-level problems -/

/-- There is no transaction-level problem exactly for an included transaction. -/
lemma transactionIssues_eq_nil_iff : transactionIssues tx options = [] ↔ Included tx options := by
  have hhash : (scopeHash tx options).length ≠ 0 ↔
      ∃ h, tx.ownHash.or options.transactionHash = some h ∧ h ≠ [] := by
    rw [scopeHash, transactionHashOf]
    cases tx.ownHash.or options.transactionHash <;> simp
  have hagrees : ¬((transactionHashOf tx).any
      (fun own => options.transactionHash.any (fun h => h ≠ own)) = true) ↔
      ∀ own reported, tx.ownHash = some own → options.transactionHash = some reported →
        own = reported := by
    rw [transactionHashOf]
    cases tx.ownHash with
    | none => simp
    | some own =>
      cases options.transactionHash with
      | none => simp
      | some reported =>
        simp only [Option.any_some, ne_eq, decide_eq_true_eq, not_not, Option.some.injEq]
        constructor
        · intro h own' reported' hown hreported
          rw [← hown, ← hreported, h]
        · intro h
          exact (h own reported rfl rfl).symm
  have hstatus : options.status ∈ includedStatuses ↔
      options.status = js "SUCCESS" ∨ options.status = js "PARTIAL_SUCCESS" := by
    simp [includedStatuses]
  have hnil : ∀ (c : Prop) [Decidable c] (t : JsString), (if c then [t] else []) = [] ↔ ¬c := by
    intro c _ t
    by_cases hc : c <;> simp [hc]
  simp only [transactionIssues, List.append_eq_nil_iff, hnil, not_not]
  constructor
  · intro h
    exact ⟨hstatus.mp h.2, hhash.mp h.1.1, hagrees.mp h.1.2⟩
  · intro h
    exact ⟨⟨hhash.mpr h.hash, hagrees.mpr h.agrees⟩, hstatus.mpr h.status⟩

/-! ### The verified packages -/

/-- The scope under which `verifyTransactionPackages` reads. -/
def readScope (tx : Transaction) (options : VerifyTransactionOptions) : TransactionScope :=
  ⟨options.network, options.contract,
    if (scopeHash tx options).length = 0 then js "unknown" else scopeHash tx options⟩

/-- A package that is accepted with a clean placement. -/
def isClean (tx : Transaction) (options : VerifyTransactionOptions) (name : Bytes)
    (pkg : Package) : Bool :=
  pkg.status == .accepted &&
    (placementIssues tx options.toPlacementTarget name pkg.segment pkg.parts).length == 0

/-- The result of `verifyTransactionPackages` when the reader returns. -/
lemma verifyTransactionPackages_eq_ok (hname : eventName options.name = .ok name)
    {read : ReadOutput}
    (hread : readPackages (partEventsFromTransaction tx (readScope tx options)).events
      ⟨[⟨options.contract, options.name⟩], none, options.limits⟩ = .ok read) :
    ∃ result, verifyTransactionPackages tx options = .ok result ∧
      result.verified = if (transactionIssues tx options).length = 0 then
        read.packages.filter (isClean tx options name) else [] := by
  let checked := fun pkg : Package => CheckedPackage.mk pkg
    (placementIssues tx options.toPlacementTarget name pkg.segment pkg.parts)
  have hpackages : (read.packages.mapM fun pkg => do
      return CheckedPackage.mk pkg
        (← checkPlacement tx options.toPlacementTarget pkg.segment pkg.parts)) =
      Except.ok (read.packages.map checked) := by
    refine mapM_ok fun pkg _ => ?_
    rw [checkPlacement_eq, hname]
    rfl
  have hfilter : ((read.packages.map checked).filter (fun entry =>
      entry.package.status == .accepted && entry.placement.length == 0)).map
        CheckedPackage.package =
      read.packages.filter (isClean tx options name) := by
    rw [List.filter_map, List.map_map]
    exact List.map_id _
  rw [readScope] at hread
  rw [verifyTransactionPackages, hread, ok_bind, hpackages, ok_bind, hfilter]
  exact ⟨_, rfl, rfl⟩

/-- A package the reader finds is placed cleanly exactly when it is that of a verifiable
intent. -/
lemma placementIssues_extracted_iff {segment : ℕ}
    (hlogged : named name (valuesAt tx options.contract segment) ≠ []) :
    placementIssues tx options.toPlacementTarget name segment
        (namedPayloads name (valuesAt tx options.contract segment)) = [] ↔
      ∃ intent, tx.intents.get? segment = some intent ∧
        intent.Verifiable options.toPlacementTarget name := by
  unfold valuesAt at hlogged ⊢
  cases hintent : tx.intents.get? segment with
  | none => simp [hintent, named] at hlogged
  | some intent =>
    rw [hintent, Option.toList_some, List.flatMap_singleton] at hlogged
    rw [Option.toList_some, List.flatMap_singleton, placementIssues, hintent]
    simp only [Option.some.injEq, exists_eq_left']
    exact intentPlacement_extracted_iff hlogged

/-- The values of an intent that can be read are those it emits. -/
lemma valuesAt_eq_emitted {contract : JsString} {segment : ℕ} {intent : Intent}
    (hintent : tx.intents.get? segment = some intent) (hreadable : intent.Readable contract) :
    valuesAt tx contract segment = intent.emitted contract := by
  rw [valuesAt, hintent, Option.toList_some, List.flatMap_singleton]
  exact map_value_intentParts hreadable

/-- The payloads named N of an intent have 256 bytes. -/
lemma length_of_mem_namedPayloads {contract : JsString} {segment : ℕ} {part : Bytes}
    (h : part ∈ namedPayloads name (valuesAt tx contract segment)) : part.length = 256 := by
  obtain ⟨value, hvalue, rfl⟩ := List.mem_map.mp h
  have hwidth : value.length = 288 := length_of_mem_valuesAt (List.mem_filter.mp hvalue).1
  rw [List.length_drop, hwidth]

/-- A package the reader finds is kept exactly when it is that of a verifiable intent. -/
lemma isClean_packageAt_iff
    (hwell : ∀ e ∈ (partEventsFromTransaction tx (readScope tx options)).events, e.WellFormed)
    {segment : ℕ} (hlogged : named name (valuesAt tx options.contract segment) ≠ []) :
    isClean tx options name (packageAt tx (readScope tx options) name none segment) = true ↔
      ∃ intent, tx.intents.get? segment = some intent ∧
        intent.Verifiable options.toPlacementTarget name := by
  have hnone : ∀ n, (none : Option JsString) = some n → (readScope tx options).network = n := by
    simp
  obtain ⟨hstatus, hparts, -⟩ := packageAt_eq hnone hwell name segment
  rw [← placementIssues_extracted_iff hlogged, isClean, hstatus, hparts]
  change (true && ((placementIssues tx options.toPlacementTarget name segment
    (namedPayloads name (valuesAt tx options.contract segment))).length == 0)) = true ↔ _
  rw [Bool.true_and, beq_iff_eq, List.length_eq_zero_iff]

/-- The packages kept are those of the verifiable intents of an included transaction. -/
lemma mem_verified_iff
    (hwell : ∀ e ∈ (partEventsFromTransaction tx (readScope tx options)).events, e.WellFormed)
    {pkg : Package} :
    pkg ∈ (if (transactionIssues tx options).length = 0 then
        (readOutput (singleName options.contract name) none
          (partEventsFromTransaction tx (readScope tx options)).events).packages.filter
            (isClean tx options name) else []) ↔
      Included tx options ∧ ∃ segment intent,
        pkg = packageAt tx (readScope tx options) name none segment ∧
        tx.intents.get? segment = some intent ∧
        intent.Verifiable options.toPlacementTarget name := by
  have hnone : ∀ n, (none : Option JsString) = some n → (readScope tx options).network = n := by
    simp
  have hpackage := @mem_packages_extracted tx (readScope tx options) name none hnone hwell pkg
  rw [← transactionIssues_eq_nil_iff, ← List.length_eq_zero_iff]
  split_ifs with hissues
  · rw [List.mem_filter]
    constructor
    · intro h
      obtain ⟨hpkg, hkept⟩ := h
      obtain ⟨segment, hne, rfl⟩ := hpackage.mp hpkg
      obtain ⟨intent, hintent, hverifiable⟩ := (isClean_packageAt_iff hwell hne).mp hkept
      exact ⟨hissues, segment, intent, rfl, hintent, hverifiable⟩
    · intro h
      obtain ⟨-, segment, intent, rfl, hintent, hverifiable⟩ := h
      obtain ⟨value, hvalue, hname⟩ := hverifiable.logged
      rw [← valuesAt_eq_emitted hintent hverifiable.readable] at hvalue
      have hmem : value ∈ named name (valuesAt tx options.contract segment) :=
        List.mem_filter.mpr ⟨hvalue, by simpa using hname⟩
      have hne := List.ne_nil_of_mem hmem
      exact ⟨hpackage.mpr ⟨segment, hne, rfl⟩,
        (isClean_packageAt_iff hwell hne).mpr ⟨intent, hintent, hverifiable⟩⟩
  · simp [hissues]

/-- The scope of the reader input has a hash, if only the stand-in. -/
lemma readScope_transactionHash_ne_nil (tx : Transaction) (options : VerifyTransactionOptions) :
    (readScope tx options).transactionHash ≠ [] := by
  change (if (scopeHash tx options).length = 0 then js "unknown" else scopeHash tx options) ≠ []
  split_ifs with hzero
  · decide
  · intro h
    exact hzero (by rw [h, List.length_nil])

/-- At most as many segments log N as there are intents. -/
lemma ncard_segments_le (tx : Transaction) (contract : JsString) (name : Bytes) :
    {s | ∃ value ∈ valuesAt tx contract s, value.take 32 = name}.ncard ≤ tx.intents.size := by
  have hsubset : {s | ∃ value ∈ valuesAt tx contract s, value.take 32 = name} ⊆
      (tx.intents.keys.toFinset : Set ℕ) := by
    intro s hs
    obtain ⟨value, hvalue, -⟩ := hs
    simpa using mem_keys_of_mem_valuesAt hvalue
  have hcard := Set.ncard_le_ncard hsubset
  rw [Set.ncard_coe_finset, List.toFinset_card_of_nodup tx.intents.nodup_keys,
    InsertionMap.length_keys] at hcard
  exact hcard

/-- Valid input of Level 2 within the reader limits. -/
structure Level2Input (tx : Transaction) (options : VerifyTransactionOptions) (name : Bytes) : Prop
    where
  /-- Every intent is at a segment 1..65535. -/
  keys : ∀ s ∈ tx.intents.keys, 1 ≤ s ∧ s ≤ 65535
  address : isAddress options.contract = true
  validName : eventName options.name = .ok name
  network : options.network ≠ []
  /-- The contract logs at most `maxEvents` values, under N in at most `maxPackages` intents. -/
  limits : ∃ maxEvents maxPackages,
    validateReaderLimits (options.limits.getD defaultReaderLimits) = .ok (maxEvents, maxPackages) ∧
      (contractActivity tx options.contract).parts.length ≤ maxEvents ∧
      {s | ∃ value ∈ valuesAt tx options.contract s, value.take 32 = name}.ncard ≤ maxPackages

/-- On valid input the verification returns, and keeps the packages of the verifiable intents of
an included transaction, each once. -/
lemma verifyTransactionPackages_result (hinput : Level2Input tx options name) :
    (∀ e ∈ (partEventsFromTransaction tx (readScope tx options)).events, e.WellFormed) ∧
      ∃ result, verifyTransactionPackages tx options = .ok result ∧
        (result.verified.map Package.segment).Nodup ∧
        ∀ pkg, pkg ∈ result.verified ↔ Included tx options ∧ ∃ segment intent,
          pkg = packageAt tx (readScope tx options) name none segment ∧
          tx.intents.get? segment = some intent ∧
          intent.Verifiable options.toPlacementTarget name := by
  obtain ⟨maxEvents, maxPackages, hlimits, hcount, hpackages⟩ := hinput.limits
  have hnamed : ∀ s, named name (valuesAt tx options.contract s) ≠ [] ↔
      ∃ value ∈ valuesAt tx options.contract s, value.take 32 = name := by
    intro s
    rw [named, ne_eq, List.filter_eq_nil_iff]
    simp
  have hsegments : {s | named name (valuesAt tx options.contract s) ≠ []}.ncard ≤ maxPackages := by
    simpa only [hnamed] using hpackages
  have hnone : ∀ n, (none : Option JsString) = some n → (readScope tx options).network = n := by
    simp
  obtain ⟨hwell, hread⟩ :=
    readPackages_extracted hnone hinput.address hinput.validName hinput.network
    (readScope_transactionHash_ne_nil tx options) hinput.keys hlimits hcount hsegments
  obtain ⟨result, hresult, hverified⟩ := verifyTransactionPackages_eq_ok hinput.validName hread
  refine ⟨hwell, result, hresult, ?_, fun pkg => ?_⟩
  · rw [hverified]
    split_ifs
    · exact (nodup_segments_extracted hnone hwell).sublist (List.filter_sublist.map _)
    · exact List.nodup_nil
  · rw [hverified]
    exact mem_verified_iff hwell

/-- **Level 2 is exact.**  On valid input within the reader limits, the verified packages are
those of the verifiable intents of an included transaction, each segment once, and each merges
the payloads its intent emits under N in emission order. -/
theorem verifyTransactionPackages_exact (hinput : Level2Input tx options name) :
    ∃ result, verifyTransactionPackages tx options = .ok result ∧
      (result.verified.map Package.segment).Nodup ∧
      (∀ s, (∃ pkg ∈ result.verified, pkg.segment = s) ↔ Included tx options ∧
        ∃ intent, tx.intents.get? s = some intent ∧
          intent.Verifiable options.toPlacementTarget name) ∧
      ∀ pkg ∈ result.verified, ∃ intent, tx.intents.get? pkg.segment = some intent ∧
        pkg.parts = namedPayloads name (intent.emitted options.contract) ∧
        (∀ part ∈ pkg.parts, part.length = 256) ∧ pkg.payload = some pkg.parts.flatten := by
  have hnone : ∀ n, (none : Option JsString) = some n → (readScope tx options).network = n := by
    simp
  obtain ⟨hwell, result, hresult, hnodup, hmem⟩ := verifyTransactionPackages_result hinput
  refine ⟨result, hresult, hnodup, fun s => ?_, fun pkg hpkg => ?_⟩
  · constructor
    · intro h
      obtain ⟨pkg, hpkg, rfl⟩ := h
      obtain ⟨hincluded, segment, intent, rfl, hintent⟩ := (hmem pkg).mp hpkg
      exact ⟨hincluded, intent, hintent⟩
    · intro h
      obtain ⟨hincluded, intent, hintent⟩ := h
      exact ⟨_, (hmem _).mpr ⟨hincluded, s, intent, rfl, hintent⟩, rfl⟩
  · obtain ⟨-, segment, intent, rfl, hintent, hverifiable⟩ := (hmem pkg).mp hpkg
    obtain ⟨-, hparts, hpayload⟩ := packageAt_eq hnone hwell name segment
    have hvalues := valuesAt_eq_emitted hintent hverifiable.readable
    refine ⟨intent, hintent, ?_, ?_, ?_⟩
    · rw [hparts]
      exact congrArg (namedPayloads name) hvalues
    · rw [hparts]
      exact fun part hpart => length_of_mem_namedPayloads hpart
    · rw [hpayload, hparts]

end VerifyTransaction

/-- A transaction with one intent of two emissions: its package is verified. -/
theorem verifyTransactionPackages_exact_two_parts :
    let contract := List.replicate 64 (hexUnit 10)
    let name : Bytes := List.replicate 32 7
    let values : List Bytes := [name ++ List.replicate 256 1, name ++ List.replicate 256 2]
    let tx : Transaction :=
      { intents := InsertionMap.empty.set 5 (emissionIntent contract (js "emitPart") values)
        fallibleOffer := .empty, ownHash := some (js "aa"), identifiers := [], serialize := [] }
    let options : VerifyTransactionOptions :=
      { contract := contract, entryPoint := js "emitPart", name := .bytes name
        network := js "net", status := js "SUCCESS", transactionHash := none, limits := none }
    ∃ result, verifyTransactionPackages tx options = .ok result ∧
      ∃ pkg ∈ result.verified, pkg.segment = 5 := by
  intro contract name values tx options
  have hpackages := (ncard_segments_le tx options.contract name).trans (by decide : 1 ≤ 1024)
  have hinput : Level2Input tx options name :=
    { keys := by decide
      address := by decide +kernel
      validName := eventName_bytes rfl
      network := by decide
      limits := ⟨4096, 1024, rfl, by decide +kernel, hpackages⟩ }
  obtain ⟨result, hresult, -, hverified, -⟩ := verifyTransactionPackages_exact hinput
  refine ⟨result, hresult, (hverified 5).mpr ⟨⟨Or.inl rfl, ⟨js "aa", rfl, by decide⟩, ?_⟩, ?_⟩⟩
  · intro own reported _ hreported
    cases hreported
  · have hvalues : ∀ value ∈ values, value.length = 288 ∧ value.take 32 = name := by
      decide +kernel
    have hverifiable : (emissionIntent options.toPlacementTarget.contract
        options.toPlacementTarget.entryPoint values).Verifiable options.toPlacementTarget name :=
      verifiable_emissionIntent (List.cons_ne_nil _ _) hvalues
    exact ⟨_, rfl, hverifiable⟩

end MultiPartEvent
