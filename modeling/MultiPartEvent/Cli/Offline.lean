import MultiPartEvent.Cli.SavedBytes

/-!
# Offline verification is exact

The exit status of an offline verification is a fact about the saved transaction:
`savedBytes_verified_iff` shows that it is 0 exactly when `SavedVerified` holds.

The reader has a verification of its own, `verifyTransactionPackages`, which shares little code with
this one.  `offline_agrees_with_reader` compares them.  They differ in one point: one unreadable
call of the contract, anywhere in the transaction, keeps every package of it from Level 1 here,
while the reader looks at the calls in the intent of the package only.
-/

namespace MultiPartEvent

section Offline

variable {env : VerifyEnv} {saved : SavedData} {request : VerifyRequest} {name : Bytes}
  {level : ℕ} {tx : Transaction} {hash : JsString}
  (hdecodes : deserializeTransaction env.ledger saved.raw = .ok tx)
  (hsaved : saved.network = request.target.network)

/-! ### The exit status -/

/-- The limits, in terms of the intents that log the name. -/
lemma limits_iff (hreadable : tx.Readable request.target.contract) :
    {segment | Logs tx request.target.contract name segment} =
      {s | named name (valuesAt tx request.target.contract s) ≠ []} := by
  ext segment
  exact logs_iff hreadable

include hdecodes in
/-- Every check of saved bytes passes exactly when they verify. -/
lemma otherwiseVerified_saved_iff (hrequest : checkRequest request = .ok (name, level))
    {read : ReadOutput}
    (hread : readPackages (rawEvents request hash tx) (readOptions request name) = .ok read) :
    ((∀ requested, request.transactionHash = some requested → requested = hash) ∧
      OtherwiseVerified env (savedAnswers saved tx hash) request name level
        (rawEvents request hash tx) ∧ (contractActivity tx request.target.contract).issues = []) ↔
      SavedVerified env saved request name level tx hash := by
  obtain ⟨⟨hone, -⟩, -, hname, -⟩ := checkRequest_eq_ok hrequest
  have hlength := length_eventName hname
  have hreadSaved := readSaved_of_readPackages hlength hread
  constructor
  · intro h
    obtain ⟨hrequested, hverified, hissues⟩ := h
    have hreadable := (issues_eq_nil_iff tx request.target.contract).mp hissues
    obtain ⟨hash', found, hlisted⟩ := hverified.found
    obtain ⟨hscope, rfl, hne⟩ := listed_saved_iff.mp hlisted
    obtain ⟨e, he⟩ := List.exists_mem_of_ne_nil _ hlisted.2
    have hevent := (List.mem_filter.mp he).1
    obtain ⟨_, _, -, hfrom⟩ := exists_of_mem_events hevent
    have hwell := hreadSaved.wellFormed e hevent
    have hplaced : ∀ segment : ℕ, InScope request (.int segment) →
        named name (valuesAt tx request.target.contract segment) ≠ [] → 2 ≤ level →
        ∃ transaction decoded, PlacementVerified env (savedAnswers saved tx hash') request name
          level (rawEvents request hash' tx) hash' segment
          (namedPayloads name (valuesAt tx request.target.contract segment)) transaction
          decoded := by
      intro segment hscope hne htwo
      obtain ⟨positions, parts, hmerged, hplaced⟩ := hverified.verified hash' segment
        (listed_saved_iff.mpr ⟨hscope, rfl, hne⟩)
      obtain ⟨_, hmerged'⟩ := mergedFrom_saved hlength hread hne
      rw [hmerged'.unique hmerged]
      exact hplaced htwo
    exact
      { network := by rw [hfrom] at hwell; exact hwell.network
        reported := by rw [hfrom] at hwell; exact hwell.transactionHash
        requested := hrequested
        limits := by rw [limits_iff hreadable]; exact hreadSaved.limits
        readable := hreadable
        found := ⟨found, hscope, (logs_iff hreadable).mpr hne⟩
        placed := fun htwo => by
          obtain ⟨-, ⟨hstatus, hown, hoffline⟩, -, -⟩ :=
            (placementVerified_saved_iff hdecodes).mp (hplaced found hscope hne htwo)
          refine ⟨hstatus, hown, hoffline, fun segment hscope hlogs => ?_⟩
          have hne := (logs_iff hreadable).mp hlogs
          obtain ⟨-, -, hclean, -⟩ :=
            (placementVerified_saved_iff hdecodes).mp (hplaced segment hscope hne htwo)
          exact (checkPlacement_saved_iff hname hne).mp hclean
        code := fun hthree => by
          obtain ⟨-, -, -, hcode⟩ :=
            (placementVerified_saved_iff hdecodes).mp (hplaced found hscope hne (by omega))
          exact hcode hthree }
  · intro h
    obtain ⟨found, hscope, hlogs⟩ := h.found
    refine ⟨h.requested, ⟨known_saved_iff.mpr h.requested, ⟨hash, found, ?_⟩, ?_⟩,
      (issues_eq_nil_iff tx request.target.contract).mpr h.readable⟩
    · exact listed_saved_iff.mpr ⟨hscope, rfl, (logs_iff h.readable).mp hlogs⟩
    · intro hash' segment hlisted
      obtain ⟨hscope, rfl, hne⟩ := listed_saved_iff.mp hlisted
      obtain ⟨positions, hmerged⟩ := mergedFrom_saved hlength hread hne
      refine ⟨positions, _, hmerged, fun htwo => (placementVerified_saved_iff hdecodes).mpr
        ⟨h.requested, ?_, ?_, h.code⟩⟩
      · exact ⟨(h.placed htwo).status, (h.placed htwo).ownHash, (h.placed htwo).offline⟩
      · exact (checkPlacement_saved_iff hname hne).mpr
          ((h.placed htwo).verifiable segment hscope ((logs_iff h.readable).mpr hne))

include hdecodes hsaved in
/-- The exit status of a report on saved bytes. -/
lemma exitStatus_saved_iff (hrequest : checkRequest request = .ok (name, level))
    {report : VerifyReport}
    (hrun : verifyPackages env (savedAnswers saved tx hash) request = .ok report) :
    verifyExitStatus report = 0 ↔ SavedVerified env saved request name level tx hash := by
  rw [exitStatus_iff_of_codeByState
    (fun h => h.codeByState_of_constant saved.contractState fun _ _ => rfl)
    hrequest rfl hrun]
  have hall : ∀ hrequested : ∀ requested, request.transactionHash = some requested →
      requested = hash,
      (OtherwiseVerified env (savedAnswers saved tx hash) request name level
          (savedEvents saved tx hash request.target.contract request.transactionHash).events ∧
        ∀ hash' segment, Listed request name
          (savedEvents saved tx hash request.target.contract request.transactionHash).events hash'
            segment → ((savedEvents saved tx hash request.target.contract
              request.transactionHash).issues.get? hash').getD [] = []) ↔
      SavedVerified env saved request name level tx hash := by
    intro hrequested
    obtain ⟨read, hread⟩ := exists_read_of_report hsaved hrequest hrequested hrun
    obtain ⟨hevents, hissues⟩ := @events_saved saved request tx hash hsaved hrequested
    rw [hevents, ← otherwiseVerified_saved_iff hdecodes hrequest hread]
    constructor
    · intro h
      obtain ⟨hverified, hreadable⟩ := h
      obtain ⟨hash', segment, hlisted⟩ := hverified.found
      obtain ⟨-, rfl, -⟩ := listed_saved_iff.mp hlisted
      exact ⟨hrequested, hverified, hissues.symm.trans (hreadable _ _ hlisted)⟩
    · intro h
      obtain ⟨-, hverified, hnone⟩ := h
      refine ⟨hverified, fun hash' segment hlisted => ?_⟩
      obtain ⟨-, rfl, -⟩ := listed_saved_iff.mp hlisted
      exact hissues.trans hnone
  constructor
  · intro h
    exact (hall (known_saved_iff.mp h.1.known)).mp h
  · intro h
    exact (hall h.requested).mpr h

include hdecodes hsaved in
/-- Saved bytes that verify have a report. -/
lemma exists_report_of_savedVerified (hrequest : checkRequest request = .ok (name, level))
    (hkeys : ∀ s ∈ tx.intents.keys, 1 ≤ s ∧ s ≤ 65535)
    (h : SavedVerified env saved request name level tx hash) :
    ∃ report, verifyPackages env (savedAnswers saved tx hash) request = .ok report := by
  obtain ⟨-, haddress, hname, -⟩ := checkRequest_eq_ok hrequest
  obtain ⟨maxEvents, maxPackages, hlimits, hcount, hpackages⟩ := h.limits
  rw [limits_iff h.readable] at hpackages
  obtain ⟨read, hread⟩ := readPackages_saved (length_eventName hname) haddress hkeys h.network
    h.reported hlimits hcount hpackages
  exact exists_report_saved hdecodes hsaved hrequest h.requested hread

include hdecodes hsaved in
/-- With exit status 0 there is one report for each intent in scope that logs the name, with its
values under the name as the payload. -/
lemma reports_saved (hrequest : checkRequest request = .ok (name, level)) {report : VerifyReport}
    (hrun : verifyPackages env (savedAnswers saved tx hash) request = .ok report)
    (hexit : verifyExitStatus report = 0) {segment : ℕ} {payloadHex : Option JsString} :
    (∃ p ∈ report.packages, p.segment = segment ∧ p.payloadHex = payloadHex) ↔
      InScope request (.int segment) ∧
        Logs tx request.target.contract name segment ∧ payloadHex = some (bytesToHex
          (namedPayloads name (valuesAt tx request.target.contract segment)).flatten) := by
  have hverified := (exitStatus_saved_iff hdecodes hsaved hrequest hrun).mp hexit
  have hevents := (@events_saved saved request tx hash hsaved hverified.requested).1
  obtain ⟨⟨hone, -⟩, -, hname, -⟩ := checkRequest_eq_ok hrequest
  have hlength := length_eventName hname
  rcases verifyPackages_cases hrun with ⟨hnotFound, -, -⟩ |
    ⟨name', level', fetched, read, collected, st, h⟩
  · unfold verifyExitStatus at hexit
    rw [if_pos hnotFound] at hexit
    cases hexit
  cases h.accepted.symm.trans hrequest
  cases h.fetches
  have hread := h.reads
  rw [hevents] at hread
  have hlisted : ∀ {s : ℕ}, (∃ pkg ∈ scopedPackages request read, pkg.transactionHash = hash ∧
      pkg.segment = s) ↔ InScope request (.int s) ∧ Logs tx request.target.contract name s := by
    intro s
    rw [← h.listed_iff, hevents, listed_saved_iff, logs_iff hverified.readable]
    simp
  have hshown : ∀ {p : PackageReport} {pkg : Package}, pkg ∈ scopedPackages request read →
      Reported env (savedAnswers saved tx hash) request level
        (savedEvents saved tx hash request.target.contract request.transactionHash) collected.facts
        (eventEntry pkg) p → pkg.status = .accepted → pkg.transactionHash = hash →
      p.payloadHex = some (bytesToHex
        (namedPayloads name (valuesAt tx request.target.contract pkg.segment)).flatten) := by
    intro p pkg hpkg hreported haccepted hhash
    obtain ⟨hmerged, hpayload⟩ := mergedFrom_of_accepted hlength hread
      (List.mem_filter.mp hpkg).1 haccepted
    obtain ⟨-, hlogs⟩ := hlisted.mp ⟨pkg, hpkg, hhash, rfl⟩
    obtain ⟨_, hmerged'⟩ := mergedFrom_saved hlength hread ((logs_iff hverified.readable).mp hlogs)
    rw [hhash] at hmerged
    rw [hreported.payloadHex, shownPayload, eventEntry, Option.bind_some, if_pos haccepted,
      hpayload, hmerged.unique hmerged', Option.map_some]
  have hfrom : ∀ {pkg : Package}, pkg ∈ scopedPackages request read →
      pkg.transactionHash = hash := by
    intro pkg hpkg
    have hlist := h.listed_iff.mpr ⟨pkg, hpkg, rfl, rfl⟩
    rw [hevents, listed_saved_iff] at hlist
    exact hlist.2.1
  constructor
  · intro hp
    obtain ⟨p, hp, rfl, rfl⟩ := hp
    have hlevel := h.exitStatus_eq_zero_iff.mp hexit p hp
    obtain ⟨pkg, hpkg, -, hsegment, hshows, hreported⟩ := h.exists_package hp (by omega)
    have hpayload := hshown hpkg hreported hshows.accepted (hfrom hpkg)
    rw [hsegment] at hpayload
    obtain ⟨hscope, hlogs⟩ := hlisted.mp ⟨pkg, hpkg, hfrom hpkg, hsegment⟩
    exact ⟨hscope, hlogs, hpayload⟩
  · intro hlogged
    obtain ⟨hscope, hlogs, rfl⟩ := hlogged
    obtain ⟨pkg, hpkg, hhash, rfl⟩ := hlisted.mpr ⟨hscope, hlogs⟩
    obtain ⟨p, hp, hreported⟩ := h.exists_report_of_package hpkg
    have hlevel := h.exitStatus_eq_zero_iff.mp hexit p hp
    obtain ⟨-, other, hshows⟩ := hreported.one.mp (by omega)
    obtain rfl : pkg = other := Option.some.inj hshows.fromEvents
    exact ⟨p, hp, hreported.segment, hshown hpkg hreported hshows.accepted hhash⟩

end Offline

section ExitStatus

variable {env : VerifyEnv} {saved : SavedData} {source : VerifySource} {request : VerifyRequest}
  {name : Bytes} {level : ℕ}

/-- **Offline verification is exact.**  A verification of saved bytes returns with exit status 0
exactly when they decode to a transaction, under a known hash, in which every call of the contract
can be read, some intent in scope logs the name, and, from Level 2 on, each of those is verifiable
and the transaction was included under its hash, and, at Level 3, the saved state stores the
expected key. -/
theorem savedBytes_verified_iff (hsource : savedSource env.ledger saved = .ok source)
    (hrequest : checkRequest request = .ok (name, level))
    (hsaved : saved.network = request.target.network)
    (hkeys : ∀ tx, deserializeTransaction env.ledger saved.raw = .ok tx →
      ∀ s ∈ tx.intents.keys, 1 ≤ s ∧ s ≤ 65535) :
    (∃ report, verifyPackages env source request = .ok report ∧ verifyExitStatus report = 0) ↔
      ∃ tx hash, deserializeTransaction env.ledger saved.raw = .ok tx ∧
        saved.transactionHash.or (transactionHashOf tx) = some hash ∧
        SavedVerified env saved request name level tx hash := by
  obtain ⟨tx, hash, hdecodes, hhash, rfl⟩ := savedSource_eq_ok_iff.mp hsource
  constructor
  · intro h
    obtain ⟨report, hrun, hexit⟩ := h
    exact ⟨tx, hash, hdecodes, hhash,
      (exitStatus_saved_iff hdecodes hsaved hrequest hrun).mp hexit⟩
  · intro h
    obtain ⟨tx', hash', hdecodes', hhash', h⟩ := h
    cases hdecodes.symm.trans hdecodes'
    cases hhash.symm.trans hhash'
    obtain ⟨report, hrun⟩ := exists_report_of_savedVerified hdecodes hsaved hrequest
      (hkeys tx hdecodes) h
    exact ⟨report, hrun, (exitStatus_saved_iff hdecodes hsaved hrequest hrun).mpr h⟩

/-- The options under which the reader verifies the saved transaction. -/
def savedOptions (saved : SavedData) (request : VerifyRequest) : VerifyTransactionOptions :=
  { request.target.toPlacementTarget with
    network := request.target.network
    status := saved.status
    transactionHash := saved.transactionHash
    limits := request.limits }

/-- Under a hash that is not empty, the reader takes a transaction as included for the reasons for
which the saved bytes pass. -/
lemma included_savedOptions_iff {tx : Transaction} {hash : JsString}
    (hhash : saved.transactionHash.or (transactionHashOf tx) = some hash) :
    Included tx (savedOptions saved request) ↔ hash ≠ [] ∧ saved.status ∈ includedStatuses ∧
      ∀ own, transactionHashOf tx = some own → own = hash := by
  have hstatus : saved.status ∈ includedStatuses ↔
      saved.status = js "SUCCESS" ∨ saved.status = js "PARTIAL_SUCCESS" := by
    simp [includedStatuses]
  rw [hstatus]
  unfold transactionHashOf at hhash ⊢
  constructor
  · intro h
    obtain ⟨hincluded, ⟨known, hknown, hne⟩, hagrees⟩ := h
    have hown : ∀ own, tx.ownHash = some own → own = hash := by
      intro own hown
      cases hreported : saved.transactionHash with
      | none => simpa [hreported, hown] using hhash
      | some reported =>
        rw [hreported, Option.some_or, Option.some.injEq] at hhash
        exact (hagrees own reported hown hreported).trans hhash
    refine ⟨?_, hincluded, hown⟩
    cases hownHash : tx.ownHash with
    | none =>
      rw [hownHash] at hhash hknown
      rw [Option.or_none] at hhash
      rw [Option.none_or] at hknown
      cases hknown.symm.trans hhash
      exact hne
    | some own =>
      rw [hownHash, Option.some_or, Option.some.injEq] at hknown
      rw [← hown own hownHash, hknown]
      exact hne
  · intro h
    obtain ⟨hne, hincluded, hown⟩ := h
    refine ⟨hincluded, ⟨hash, ?_, hne⟩, ?_⟩
    · cases hownHash : tx.ownHash with
      | none => simpa [hownHash, savedOptions] using hhash
      | some own => rw [Option.some_or, hown own hownHash]
    · intro own reported hownHash hreported
      change saved.transactionHash = some reported at hreported
      rw [hreported, Option.some_or, Option.some.injEq] at hhash
      rw [hown own hownHash, hhash]

/-- **Two verifiers agree.**  On valid input of Level 2, an offline verification to Level 2 returns
with exit status 0 exactly when every call of the contract can be read, there is something to
verify, and the reader's own verification of the transaction accepts every package in scope; then
the two show the same payloads. -/
theorem offline_agrees_with_reader {tx : Transaction} {hash : JsString}
    (hsource : savedSource env.ledger saved = .ok source)
    (hdecodes : deserializeTransaction env.ledger saved.raw = .ok tx)
    (hhash : saved.transactionHash.or (transactionHashOf tx) = some hash)
    (hrequest : checkRequest request = .ok (name, 2))
    (hsaved : saved.network = request.target.network)
    (hrequested : ∀ requested, request.transactionHash = some requested → requested = hash)
    (hoffline : request.crossCheckNode ≠ some true)
    (hinput : Level2Input tx (savedOptions saved request) name) :
    ∃ verification, verifyTransactionPackages tx (savedOptions saved request) = .ok verification ∧
      ((∃ report, verifyPackages env source request = .ok report ∧ verifyExitStatus report = 0) ↔
        tx.Readable request.target.contract ∧
        (∃ segment : ℕ, InScope request (.int segment) ∧
          Logs tx request.target.contract name segment) ∧
        ∀ segment : ℕ, InScope request (.int segment) →
          Logs tx request.target.contract name segment →
            ∃ pkg ∈ verification.verified, pkg.segment = segment) ∧
      ∀ report, verifyPackages env source request = .ok report → verifyExitStatus report = 0 →
        ∀ p ∈ report.packages, ∃ pkg ∈ verification.verified, pkg.segment = p.segment ∧
          p.payloadHex = pkg.payload.map bytesToHex := by
  obtain ⟨tx', hash', hdecodes', hhash', rfl⟩ := savedSource_eq_ok_iff.mp hsource
  cases hdecodes.symm.trans hdecodes'
  cases hhash.symm.trans hhash'
  obtain ⟨hwell, verification, hverification, -, hmem⟩ := verifyTransactionPackages_result hinput
  have hnone : ∀ n, (none : Option JsString) = some n →
      (readScope tx (savedOptions saved request)).network = n := by simp
  have hincluded := @included_savedOptions_iff saved request tx hash hhash
  have hplaced : ∀ {segment : ℕ}, (∃ pkg ∈ verification.verified, pkg.segment = segment) ↔
      Included tx (savedOptions saved request) ∧ ∃ intent, tx.intents.get? segment = some intent ∧
        intent.Verifiable request.target.toPlacementTarget name := by
    intro segment
    simp only [hmem]
    constructor
    · intro h
      obtain ⟨_, ⟨hincluded, segment, intent, rfl, hintent⟩, rfl⟩ := h
      exact ⟨hincluded, intent, hintent⟩
    · intro h
      obtain ⟨hincluded, intent, hintent⟩ := h
      exact ⟨_, ⟨hincluded, segment, intent, rfl, hintent⟩, rfl⟩
  have hiff : (∃ report, verifyPackages env (savedAnswers saved tx hash) request = .ok report ∧
      verifyExitStatus report = 0) ↔ SavedVerified env saved request name 2 tx hash := by
    constructor
    · intro h
      obtain ⟨report, hrun, hexit⟩ := h
      exact (exitStatus_saved_iff hdecodes hsaved hrequest hrun).mp hexit
    · intro h
      obtain ⟨report, hrun⟩ :=
        exists_report_of_savedVerified hdecodes hsaved hrequest hinput.keys h
      exact ⟨report, hrun, (exitStatus_saved_iff hdecodes hsaved hrequest hrun).mpr h⟩
  refine ⟨verification, hverification, hiff.trans ?_, ?_⟩
  · constructor
    · intro h
      obtain ⟨hstatus, hown, -, hverifiable⟩ := h.placed le_rfl
      refine ⟨h.readable, h.found, fun segment hscope hlogs => hplaced.mpr
        ⟨hincluded.mpr ⟨h.reported, hstatus, hown⟩, hverifiable segment hscope hlogs⟩⟩
    · intro h
      obtain ⟨hreadable, ⟨segment, hscope, hlogs⟩, hall⟩ := h
      obtain ⟨hne, hstatus, hown⟩ :=
        hincluded.mp (hplaced.mp (hall segment hscope hlogs)).1
      refine ⟨hinput.network, hne, hrequested, ?_, hreadable, ⟨segment, hscope, hlogs⟩,
        fun _ => ⟨hstatus, hown, hoffline, fun segment hscope hlogs =>
          (hplaced.mp (hall segment hscope hlogs)).2⟩, by omega⟩
      rw [limits_iff hreadable]
      simp only [named_ne_nil_iff]
      exact hinput.limits
  · intro report hrun hexit p hp
    have hverified := (exitStatus_saved_iff hdecodes hsaved hrequest hrun).mp hexit
    obtain ⟨hscope, hlogs, hpayload⟩ :=
      (reports_saved hdecodes hsaved hrequest hrun hexit).mp ⟨p, hp, rfl, rfl⟩
    obtain ⟨hstatus, hown, -, hverifiable⟩ := hverified.placed le_rfl
    obtain ⟨intent, hintent⟩ := hverifiable p.segment hscope hlogs
    refine ⟨_, (hmem _).mpr ⟨hincluded.mpr ⟨hverified.reported, hstatus, hown⟩, p.segment, intent,
      rfl, hintent⟩, rfl, ?_⟩
    obtain ⟨-, -, hflatten⟩ := packageAt_eq hnone hwell name p.segment
    rw [hpayload, hflatten]
    rfl

end ExitStatus

/-! ### A transaction of one part -/

/-- The bytes of the transaction are read as that transaction. -/
lemma deserialize_emitted (raw : Bytes) :
    deserializeTransaction (emittedEnv (some (js "aa")) (js "proof")).ledger raw =
      .ok (emittedTransaction (some (js "aa"))) := rfl

/-- The saved bytes of the transaction of one part pass every level. -/
theorem savedBytes_verified_iff_one_part :
    ∃ tx hash, SavedVerified (emittedEnv (some (js "aa")) (js "proof")) emittedSaved
      (emittedRequest 3) (List.replicate 32 7) 3 tx hash := by
  obtain ⟨source, report, hsource, hreport, hexit⟩ := exists_saved_report
    (emittedEnv (some (js "aa")) (js "proof")) emittedSaved (emittedRequest 3)
    (fun report => verifyExitStatus report = 0) (by decide +kernel)
  have hkeys : ∀ tx, deserializeTransaction (emittedEnv (some (js "aa")) (js "proof")).ledger
      emittedSaved.raw = .ok tx → ∀ s ∈ tx.intents.keys, 1 ≤ s ∧ s ≤ 65535 := by
    intro tx htx
    cases (deserialize_emitted _).symm.trans htx
    decide
  obtain ⟨tx, hash, -, -, h⟩ := (savedBytes_verified_iff hsource (by rfl) rfl hkeys).mp
    ⟨report, hreport, of_decide_eq_true hexit⟩
  exact ⟨tx, hash, h⟩

/-- The reader verifies a package of it too. -/
theorem offline_agrees_with_reader_one_part :
    ∃ verification, verifyTransactionPackages (emittedTransaction (some (js "aa")))
        (savedOptions emittedSaved (emittedRequest 2)) = .ok verification ∧
      ∃ pkg, pkg ∈ verification.verified := by
  obtain ⟨source, report, hsource, hreport, hexit⟩ := exists_saved_report
    (emittedEnv (some (js "aa")) (js "proof")) emittedSaved (emittedRequest 2)
    (fun report => verifyExitStatus report = 0) (by decide +kernel)
  have hpackages := (ncard_segments_le (emittedTransaction (some (js "aa")))
    (emittedRequest 2).target.contract (List.replicate 32 7)).trans (by decide : 1 ≤ 1024)
  have hinput : Level2Input (emittedTransaction (some (js "aa")))
      (savedOptions emittedSaved (emittedRequest 2)) (List.replicate 32 7) :=
    { keys := by decide
      address := by decide +kernel
      validName := eventName_bytes rfl
      network := by decide
      limits := ⟨4096, 1024, rfl, by decide +kernel, hpackages⟩ }
  have hrequested : ∀ requested, (emittedRequest 2).transactionHash = some requested →
      requested = js "aa" := fun _ h => (Option.some.inj h).symm
  obtain ⟨verification, hverification, hiff, -⟩ := offline_agrees_with_reader hsource
    (deserialize_emitted _) rfl (by rfl) rfl hrequested (by decide) hinput
  obtain ⟨-, ⟨segment, hscope, hlogs⟩, hall⟩ :=
    hiff.mp ⟨report, hreport, of_decide_eq_true hexit⟩
  obtain ⟨pkg, hpkg, -⟩ := hall segment hscope hlogs
  exact ⟨verification, hverification, pkg, hpkg⟩

end MultiPartEvent
