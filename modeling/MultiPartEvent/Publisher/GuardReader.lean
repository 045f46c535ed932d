import MultiPartEvent.Publisher.Guard
import MultiPartEvent.Reader.VerifyTransaction

/-!
# What the guard accepts, the reader verifies

The guard of the publisher and the placement check of the reader are written separately.  An
intent that holds a package in the guard's sense is verifiable in the reader's
(`Intent.Holds.verifiable`) and emits exactly the parts of the package, in order
(`Intent.Holds.namedPayloads_emitted`), whatever the other intents of the transaction are.
-/

namespace MultiPartEvent

/-- A transcript that emits a value logs it and nothing else. -/
lemma Transcript.Emits.miscValues?_eq {transcript : Transcript} {value : Bytes}
    (h : transcript.Emits value) : transcript.miscValues? = some [value] := by
  obtain ⟨data, hlogged, hdecode⟩ := h
  refine miscValues?_eq_some_iff.mpr ⟨_, hlogged, ?_⟩
  have hmisc : ([⟨10, data⟩] : List LoggedEvent).filter (fun event => event.typeCode = 10) =
      [⟨10, data⟩] := rfl
  simp only [hmisc, List.mapM_cons, List.mapM_nil, hdecode]
  rfl

section Holds

variable {intent : Intent} {expected : ExpectedPackage}

/-- The calls of an intent that holds a package emit its parts, in order. -/
lemma Intent.Holds.forall₂_callsOf (h : intent.Holds expected) :
    List.Forall₂ (fun call part => ∃ transcript,
      EmitsPart expected (.call call) part call transcript)
      (intent.callsOf expected.contract) expected.parts := by
  have hactions := h.actions
  clear h
  rw [Intent.callsOf]
  generalize intent.actions = actions at hactions
  generalize expected.parts = parts at hactions
  induction hactions with
  | nil => exact List.Forall₂.nil
  | @cons action part actions parts hstep _ ih =>
    obtain ⟨call, transcript, hemits⟩ := hstep
    have hcall : action = .call call := hemits.isCall
    subst hcall
    have hkept : ((ContractAction.call call :: actions).filterMap ContractAction.call?).filter
        (fun c => c.address = expected.contract) =
        call :: (actions.filterMap ContractAction.call?).filter
          (fun c => c.address = expected.contract) := by
      have hcall : (ContractAction.call call).call? = some call := rfl
      rw [List.filterMap_cons_some hcall,
        List.filter_cons_of_pos (by simpa using hemits.contract)]
    rw [hkept]
    exact List.Forall₂.cons ⟨transcript, hemits⟩ ih

/-- What a call that emits a part logs. -/
lemma EmitsPart.values_eq {action : ContractAction} {part : Bytes} {call : ContractCall}
    {transcript : Transcript} (h : EmitsPart expected action part call transcript) :
    call.values .guaranteed = [expected.name ++ part] ∧ call.values .fallible = [] := by
  constructor
  · rw [ContractCall.values, ContractCall.transcript, h.guaranteed, Option.bind_some,
      h.emits.miscValues?_eq, Option.getD_some]
  · rw [ContractCall.values, ContractCall.transcript, h.fallible, Option.bind_none,
      Option.getD_none]

/-- An intent that holds a package emits the event of each part, in order. -/
theorem Intent.Holds.emitted_eq (h : intent.Holds expected) :
    intent.emitted expected.contract = expected.parts.map (expected.name ++ ·) := by
  have hcalls := h.forall₂_callsOf
  rw [Intent.emitted]
  generalize intent.callsOf expected.contract = calls at hcalls
  generalize expected.parts = parts at hcalls
  have hguaranteed : calls.flatMap (fun call => call.values .guaranteed) =
      parts.map (expected.name ++ ·) := by
    induction hcalls with
    | nil => rfl
    | cons hstep _ ih =>
      obtain ⟨transcript, hemits⟩ := hstep
      rw [List.flatMap_cons, hemits.values_eq.1, ih, List.map_cons, List.singleton_append]
  have hfallible : calls.flatMap (fun call => call.values .fallible) = [] := by
    clear hguaranteed
    induction hcalls with
    | nil => rfl
    | cons hstep _ ih =>
      obtain ⟨transcript, hemits⟩ := hstep
      rw [List.flatMap_cons, hemits.values_eq.2, ih, List.nil_append]
  rw [hguaranteed, hfallible, List.append_nil]

/-- The payloads named N of an intent that holds a package are its parts. -/
theorem Intent.Holds.namedPayloads_emitted (h : intent.Holds expected) :
    namedPayloads expected.name (intent.emitted expected.contract) = expected.parts := by
  have hall : ∀ value ∈ expected.parts.map (expected.name ++ ·),
      decide (value.take 32 = expected.name) = true := by
    intro value hvalue
    obtain ⟨part, -, rfl⟩ := List.mem_map.mp hvalue
    simp [← h.name]
  rw [namedPayloads, named, h.emitted_eq, List.filter_eq_self.mpr hall, List.map_map]
  have hdrop : (List.drop 32 ∘ fun part => expected.name ++ part) = id := by
    funext part
    simp [← h.name]
  rw [hdrop, List.map_id]

/-- An intent that holds a package is verifiable. -/
theorem Intent.Holds.verifiable (h : intent.Holds expected) {target : PlacementTarget}
    (hcontract : target.contract = expected.contract)
    (hentry : target.entryPoint = expected.entryPoint) :
    intent.Verifiable target expected.name := by
  have hcalls : ∀ call ∈ intent.callsOf expected.contract, ∃ part transcript,
      EmitsPart expected (.call call) part call transcript := by
    have hforall := h.forall₂_callsOf
    intro call hcall
    obtain ⟨i, hi, rfl⟩ := List.getElem_of_mem hcall
    obtain ⟨transcript, hemits⟩ := hforall.get hi (hforall.length_eq ▸ hi)
    exact ⟨_, transcript, hemits⟩
  refine ⟨?_, ?_, ?_, ?_⟩
  · obtain ⟨part, hpart⟩ := List.exists_mem_of_ne_nil _ h.parts
    refine ⟨expected.name ++ part, ?_, by simp [← h.name]⟩
    rw [hcontract, h.emitted_eq]
    exact List.mem_map_of_mem hpart
  · intro call hcall kind transcript htranscript
    rw [hcontract] at hcall
    obtain ⟨part, transcript', hemits⟩ := hcalls call hcall
    cases kind with
    | guaranteed =>
      have hsame : transcript' = transcript :=
        Option.some.inj (hemits.guaranteed.symm.trans htranscript)
      exact ⟨_, hsame ▸ hemits.emits.miscValues?_eq⟩
    | fallible => exact absurd (hemits.fallible.symm.trans htranscript) (by simp)
  · intro call hcall _
    rw [hcontract] at hcall
    obtain ⟨part, transcript, hemits⟩ := hcalls call hcall
    exact ⟨by simp [hemits.guaranteed], hemits.fallible⟩
  · intro call hcall _ _ _ _
    rw [hcontract] at hcall
    obtain ⟨part, transcript, hemits⟩ := hcalls call hcall
    rw [hentry, hemits.entryPoint]

end Holds

/-- An element is the only one with its key in a list without repeated keys. -/
lemma filter_key_eq_singleton {α κ : Type*} [DecidableEq κ] {key : α → κ} {l : List α} {a : α}
    (hnodup : (l.map key).Nodup) (ha : a ∈ l) : l.filter (fun b => key b = key a) = [a] := by
  induction l with
  | nil => cases ha
  | cons b l ih =>
    rw [List.map_cons, List.nodup_cons] at hnodup
    rcases List.mem_cons.mp ha with rfl | ha
    · have hrest : l.filter (fun b => key b = key a) = [] := by
        rw [List.filter_eq_nil_iff]
        intro b hb hkey
        exact hnodup.1 (List.mem_map.mpr ⟨b, hb, by simpa using hkey⟩)
      simp [hrest]
    · have hne : ¬key b = key a := by
        intro hkey
        exact hnodup.1 (List.mem_map.mpr ⟨a, ha, hkey.symm⟩)
      simpa [hne] using ih hnodup.2 ha

/-- **What the guard accepts, the reader verifies.**  For every transaction the guard accepts
and every expected package, the reader verifies exactly one package at its segment, with the
expected parts; for a split payload it is the payload followed by fewer than 256 zero bytes. -/
theorem assertTransactionPackages_verified {tx : Transaction} {expected : List ExpectedPackage}
    {stage : JsString} {frozen : Option (List (List Transcript))}
    (hguard : assertTransactionPackages tx expected stage frozen = .ok ())
    {e : ExpectedPackage} (he : e ∈ expected) {options : VerifyTransactionOptions}
    (htarget : options.toPlacementTarget = ⟨e.contract, e.entryPoint, .bytes e.name⟩)
    (hinput : Level2Input tx options e.name) (hincluded : Included tx options) :
    ∃ result pkg, verifyTransactionPackages tx options = .ok result ∧
      result.verified.filter (fun p => JsNumber.int p.segment = e.segment) = [pkg] ∧
      pkg.parts = e.parts ∧ pkg.payload = some e.parts.flatten ∧
      ∀ payload, splitPayload payload = .ok e.parts → ∃ padding < 256,
        (payload.length + padding) % 256 = 0 ∧
          pkg.payload = some (payload ++ List.replicate padding 0) := by
  obtain ⟨-, -, hall⟩ := assertTransactionPackages_eq_ok_iff.mp hguard
  obtain ⟨index, hindex⟩ := List.getElem?_of_mem he
  obtain ⟨segment, intent, hholds⟩ := hall index e hindex
  have hcontract : options.contract = e.contract := congrArg PlacementTarget.contract htarget
  have hentry : options.entryPoint = e.entryPoint := congrArg PlacementTarget.entryPoint htarget
  have hverifiable : intent.Verifiable options.toPlacementTarget e.name :=
    hholds.holds.verifiable hcontract hentry
  have hnone : ∀ n, (none : Option JsString) = some n → (readScope tx options).network = n := by
    simp
  obtain ⟨hwell, result, hresult, hnodup, hmem⟩ := verifyTransactionPackages_result hinput
  have hpkg : packageAt tx (readScope tx options) e.name none segment ∈ result.verified :=
    (hmem _).mpr ⟨hincluded, segment, intent, rfl, hholds.found, hverifiable⟩
  have hparts : namedPayloads e.name (valuesAt tx (readScope tx options).contract segment) =
      e.parts := by
    have hvalues := valuesAt_eq_emitted hholds.found hverifiable.readable
    rw [← hholds.holds.namedPayloads_emitted, ← hcontract]
    exact congrArg (namedPayloads e.name) hvalues
  obtain ⟨-, hpkgParts, hpkgPayload⟩ := packageAt_eq hnone hwell e.name segment
  rw [hparts] at hpkgParts hpkgPayload
  refine ⟨result, _, hresult, ?_, hpkgParts, hpkgPayload, fun payload hpayload => ?_⟩
  · have hkey : ∀ p : Package, JsNumber.int p.segment = e.segment ↔ p.segment =
        (packageAt tx (readScope tx options) e.name none segment).segment := by
      intro p
      rw [hholds.placed.1, JsNumber.int.injEq, packageAt_segment]
      exact Int.ofNat_inj
    simp only [hkey]
    exact filter_key_eq_singleton hnodup hpkg
  · obtain ⟨-, -, padding, hpadding, hmultiple, hflatten⟩ := splitPayload_spec hpayload
    exact ⟨padding, hpadding, hmultiple, by rw [hpkgPayload, hflatten]⟩

/-- A payload of 300 bytes, split into two parts that one call emits, is read back zero-padded. -/
theorem assertTransactionPackages_verified_two_parts :
    let contract := List.replicate 64 (hexUnit 10)
    let name : Bytes := List.replicate 32 7
    let sent : Bytes := List.replicate 300 1
    let parts := [List.replicate 256 1, zeroExtend 256 (List.replicate 44 1)]
    let tx : Transaction :=
      { intents := InsertionMap.empty.set 5
          (emissionIntent contract (js "emitPart") (parts.map (name ++ ·)))
        fallibleOffer := .empty, ownHash := some (js "aa"), identifiers := [], serialize := [] }
    let e : ExpectedPackage := ⟨js "net", contract, js "emitPart", name, .int 5, parts⟩
    let options : VerifyTransactionOptions :=
      { contract := contract, entryPoint := js "emitPart", name := .bytes name
        network := js "net", status := js "SUCCESS", transactionHash := none, limits := none }
    assertTransactionPackages tx [e] (js "sealed") none = .ok () ∧
      splitPayload sent = .ok e.parts ∧
      ∃ result pkg, verifyTransactionPackages tx options = .ok result ∧
        result.verified.filter (fun p => JsNumber.int p.segment = e.segment) = [pkg] ∧
        pkg.parts = parts ∧ ∃ padding, pkg.payload = some (sent ++ List.replicate padding 0) := by
  intro contract name sent parts tx e options
  have hguard : assertTransactionPackages tx [e] (js "sealed") none = .ok () := by decide +kernel
  have hsplit : splitPayload sent = .ok e.parts := by decide +kernel
  have hpackages := (ncard_segments_le tx options.contract name).trans (by decide : 1 ≤ 1024)
  have hinput : Level2Input tx options e.name :=
    { keys := by decide
      address := by decide +kernel
      validName := eventName_bytes rfl
      network := by decide
      limits := ⟨4096, 1024, rfl, by decide +kernel, hpackages⟩ }
  have hincluded : Included tx options :=
    ⟨Or.inl rfl, ⟨js "aa", rfl, by decide⟩, fun _ _ _ hreported => by cases hreported⟩
  obtain ⟨result, pkg, hresult, hfilter, hparts, -, hpayload⟩ :=
    assertTransactionPackages_verified hguard List.mem_cons_self rfl hinput hincluded
  obtain ⟨padding, -, -, hpadded⟩ := hpayload sent hsplit
  exact ⟨hguard, hsplit, result, pkg, hresult, hfilter, hparts, padding, hpadded⟩

end MultiPartEvent
