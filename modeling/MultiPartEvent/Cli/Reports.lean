import MultiPartEvent.Cli.Entries

/-!
# The reports of a run

The loop over the entries makes one report for each and remembers the contract states it asked
for by block hash.  `ReportsOf` is its invariant: every report has the level its entry has
earned, and every remembered state is the source's answer for the block of a report that reached
Level 2.  `VerificationRun` then says everything a run of `verifyPackages` that found packages
has done.
-/

namespace MultiPartEvent

/-! ### What an entry can earn -/

/-- Level 1 of an entry: the events show an accepted package, and all events of its transaction
could be read. -/
structure Entry.Shows (fetched : SourceEvents) (entry : Entry) (pkg : Package) : Prop where
  fromEvents : entry.fromEvents = some pkg
  accepted : pkg.status = .accepted
  readable : (fetched.issues.get? entry.transactionHash).getD [] = []

/-- Level 2 of a package: its transaction is included and its placement there is clean. -/
def PlacedBy (env : VerifyEnv) (source : VerifySource) (request : VerifyRequest) (hash : JsString)
    (pkg : Package) : Prop :=
  ∃ transaction decoded, IncludedBy env source request hash transaction decoded ∧
    checkPlacement decoded request.target.toPlacementTarget pkg.segment pkg.parts = .ok []

/-- Level 3 of a contract state: it stores the expected key for the emitting circuit. -/
def StoresKey (env : VerifyEnv) (request : VerifyRequest) (expected : Bytes)
    (state : Option Bytes) : Prop :=
  ∃ bytes, state = some bytes ∧
    deployedVerifierKey env.ledger bytes request.target.entryPoint = .ok (some expected)

/-- What contract states are remembered by. -/
def blockKey (block : Option BlockRef) : JsString := (block.map BlockRef.hash).getD []

section Checks

variable {env : VerifyEnv} {source : VerifySource} {request : VerifyRequest} {level : ℕ}
  {fetched : SourceEvents} {fact : Option TransactionFacts} {entry : Entry} {checks : List Check}

/-- The first check of an entry is Level 1. -/
lemma packageCheck_ok_iff_shows :
    (packageCheck env entry ((fetched.issues.get? entry.transactionHash).getD [])).ok = true ↔
      ∃ pkg, entry.Shows fetched pkg := by
  rw [packageCheck_ok_iff]
  constructor
  · intro h
    obtain ⟨⟨pkg, hpkg, haccepted⟩, hreadable⟩ := h
    exact ⟨pkg, hpkg, haccepted, hreadable⟩
  · intro h
    obtain ⟨pkg, hpkg, haccepted, hreadable⟩ := h
    exact ⟨⟨pkg, hpkg, haccepted⟩, hreadable⟩

/-- The Level 1 and 2 checks of an entry are one check and a piece that passes exactly when the
entry has earned Level 2. -/
lemma lowerChecks_spec
    (hfact : ∀ f, fact = some f → f.Records env source request entry.transactionHash)
    (h : lowerChecks env request level fetched fact entry = .ok checks) :
    ∃ second, checks =
        packageCheck env entry ((fetched.issues.get? entry.transactionHash).getD []) :: second ∧
      (∀ check ∈ second, check.level = 2) ∧
      (Passed second ↔ 2 ≤ level ∧ fact ≠ none ∧ ∃ pkg, entry.Shows fetched pkg ∧
        PlacedBy env source request entry.transactionHash pkg) := by
  unfold lowerChecks at h
  cases hevents : entry.fromEvents with
  | none =>
    rw [hevents] at h
    cases h
    refine ⟨[], rfl, by simp, ?_⟩
    constructor
    · intro hpassed
      exact absurd rfl hpassed.1
    · intro hearned
      obtain ⟨-, -, pkg, hshows, -⟩ := hearned
      have hsome := hshows.fromEvents
      rw [hevents] at hsome
      cases hsome
  | some pkg =>
    simp only [hevents] at h
    have hpkg : ∀ {pkg'}, entry.Shows fetched pkg' → pkg' = pkg := by
      intro pkg' hshows
      have hsome := hshows.fromEvents
      rw [hevents] at hsome
      exact (Option.some.inj hsome).symm
    split_ifs at h with hearned <;> rw [packageCheck_ok_iff_shows] at hearned
    · obtain ⟨second, hsecond, h⟩ := bind_eq_ok_iff.mp h
      rw [pure_eq_ok_iff] at h
      refine ⟨second, h.symm, levelTwoChecks_level hfact hsecond, ?_⟩
      rw [levelTwoChecks_passed_iff hfact hsecond]
      obtain ⟨hlevel, pkg', hshows⟩ := hearned
      obtain rfl := hpkg hshows
      constructor
      · intro hpassed
        exact ⟨hlevel, hpassed.1, pkg', hshows, hpassed.2⟩
      · intro hplaced
        obtain ⟨-, hrecorded, other, hother, hplaced⟩ := hplaced
        obtain rfl := hpkg hother
        exact ⟨hrecorded, hplaced⟩
    · cases h
      refine ⟨[], rfl, by simp, ?_⟩
      constructor
      · intro hpassed
        exact absurd rfl hpassed.1
      · intro hplaced
        obtain ⟨hlevel, -, other, hshows, -⟩ := hplaced
        exact absurd ⟨hlevel, other, hshows⟩ hearned

/-- The Level 3 checks of an entry: none, or one of the state at its block when Level 3 is
requested and Level 2 passed. -/
lemma levelThreeChecks_spec {states states' : InsertionMap JsString (Option Bytes)}
    {block : Option BlockRef} {third : List Check}
    (h : levelThreeChecks env source request level states block checks = .ok (states', third)) :
    (states' = states ∧ third = [] ∧
        ¬(request.expectedVerifierKey ≠ none ∧ 3 ≤ level ∧ levelOf checks 2 = 2)) ∨
      ∃ expected state, request.expectedVerifierKey = some expected ∧ 3 ≤ level ∧
        levelOf checks 2 = 2 ∧
        stateAt source request.target.contract states block = .ok (states', state) ∧
        third = [verifierKeyCheck env request.target.entryPoint expected block state] := by
  unfold levelThreeChecks at h
  cases hexpected : request.expectedVerifierKey with
  | none =>
    rw [hexpected] at h
    cases h
    exact .inl ⟨rfl, rfl, by simp⟩
  | some expected =>
    simp only [hexpected] at h
    split_ifs at h with hasked
    · obtain ⟨⟨states'', state⟩, hstate, h⟩ := bind_eq_ok_iff.mp h
      rw [pure_eq_ok_iff, Prod.mk.injEq] at h
      obtain ⟨rfl, rfl⟩ := h
      exact .inr ⟨expected, state, rfl, hasked.1, hasked.2, hstate, rfl⟩
    · cases h
      exact .inl ⟨rfl, rfl, fun hand => hasked hand.2⟩

/-- The state of a block is remembered under its hash, or it is the source's answer and is
remembered from then on. -/
lemma stateAt_spec {contract : JsString} {states states' : InsertionMap JsString (Option Bytes)}
    {block : Option BlockRef} {state : Option Bytes}
    (h : stateAt source contract states block = .ok (states', state)) :
    (states.get? (blockKey block) = some state ∧ states' = states) ∨
      (source.contractState contract block = .ok state ∧
        states' = states.set (blockKey block) state) := by
  have hblockKey : (block.map BlockRef.hash).getD [] = blockKey block := rfl
  unfold stateAt at h
  dsimp only at h
  rw [hblockKey] at h
  cases hremembered : states.get? (blockKey block) with
  | some remembered =>
    rw [hremembered] at h
    cases h
    exact .inl ⟨rfl, rfl⟩
  | none =>
    rw [hremembered] at h
    obtain ⟨answer, hanswer, h⟩ := bind_eq_ok_iff.mp h
    rw [pure_eq_ok_iff, Prod.mk.injEq] at h
    obtain ⟨rfl, rfl⟩ := h
    exact .inr ⟨hanswer, rfl⟩

end Checks

/-! ### The loop over the entries -/

section Loop

variable {env : VerifyEnv} {source : VerifySource} {request : VerifyRequest} {level : ℕ}
  {fetched : SourceEvents} {facts : InsertionMap JsString TransactionFacts}

/-- A report shows its entry and has the level it has earned, up to Level 2. -/
structure Reported (env : VerifyEnv) (source : VerifySource) (request : VerifyRequest) (level : ℕ)
    (fetched : SourceEvents) (facts : InsertionMap JsString TransactionFacts) (entry : Entry)
    (report : PackageReport) : Prop where
  transactionHash : report.transactionHash = entry.transactionHash
  segment : report.segment = entry.segment
  block : report.block = entryBlock fetched (facts.get? entry.transactionHash) entry
  payloadHex : report.payloadHex = (shownPayload entry).map bytesToHex
  bounded : report.level ≤ level
  one : 1 ≤ report.level ↔ 1 ≤ level ∧ ∃ pkg, entry.Shows fetched pkg
  two : 2 ≤ report.level ↔ 2 ≤ level ∧ facts.get? entry.transactionHash ≠ none ∧
    ∃ pkg, entry.Shows fetched pkg ∧ PlacedBy env source request entry.transactionHash pkg

/-- Level 3 of a report was decided on the source's state for a block of the same hash. -/
def KeyChecked (env : VerifyEnv) (source : VerifySource) (request : VerifyRequest)
    (expected : Bytes) (reports : List PackageReport) (report : PackageReport) : Prop :=
  ∃ other ∈ reports, ∃ state, 2 ≤ other.level ∧ blockKey other.block = blockKey report.block ∧
    source.contractState request.target.contract other.block = .ok state ∧
    (3 ≤ report.level ↔ StoresKey env request expected state)

/-- What the loop has done for some entries. -/
structure ReportsOf (env : VerifyEnv) (source : VerifySource) (request : VerifyRequest) (level : ℕ)
    (fetched : SourceEvents) (facts : InsertionMap JsString TransactionFacts)
    (entries : List Entry) (st : ReportState) : Prop where
  reports : List.Forall₂ (Reported env source request level fetched facts) entries st.reports
  /-- A remembered state is the source's answer for the block of a report. -/
  remembered : ∀ key state, st.states.get? key = some state → ∃ other ∈ st.reports,
    2 ≤ other.level ∧ blockKey other.block = key ∧
      source.contractState request.target.contract other.block = .ok state
  /-- From Level 2 on, Level 3 is decided by a state. -/
  keys : ∀ expected, request.expectedVerifierKey = some expected → 3 ≤ level →
    ∀ report ∈ st.reports, 2 ≤ report.level →
      KeyChecked env source request expected st.reports report

/-- A decision stays when reports are added. -/
lemma KeyChecked.mono {expected : Bytes} {reports reports' : List PackageReport}
    {report : PackageReport} (h : KeyChecked env source request expected reports report)
    (hsubset : reports ⊆ reports') : KeyChecked env source request expected reports' report := by
  obtain ⟨other, hother, hchecked⟩ := h
  exact ⟨other, hsubset hother, hchecked⟩

/-- The Level 1 check of an entry in the loop. -/
def firstCheck (env : VerifyEnv) (fetched : SourceEvents) (entry : Entry) : Check :=
  packageCheck env entry ((fetched.issues.get? entry.transactionHash).getD [])

section Entry

variable {entry : Entry} {second third : List Check}
  (hsecond : ∀ check ∈ second, check.level = 2) (hthird : ∀ check ∈ third, check.level = 3)
  (hearned : Passed second ↔ 2 ≤ level ∧ facts.get? entry.transactionHash ≠ none ∧
    ∃ pkg, entry.Shows fetched pkg ∧ PlacedBy env source request entry.transactionHash pkg)
include hsecond hthird hearned

/-- The report of an entry with its checks in three pieces has the level the entry has earned. -/
lemma reported_packageReport :
    Reported env source request level fetched facts entry
      (packageReport env fetched (facts.get? entry.transactionHash) level entry
        (firstCheck env fetched entry :: second ++ third)) := by
  have hfirst : (firstCheck env fetched entry).level = 1 := packageCheck_level _ _ _
  refine ⟨rfl, rfl, rfl, rfl, levelOf_le _ _, ?_, ?_⟩
  · exact (one_le_levelOf_iff hfirst hsecond hthird).trans
      (and_congr_right fun _ => packageCheck_ok_iff_shows)
  · refine (two_le_levelOf_iff hfirst hsecond hthird).trans ?_
    rw [hearned, firstCheck, packageCheck_ok_iff_shows]
    constructor
    · intro hpassed
      exact hpassed.2.2
    · intro hplaced
      obtain ⟨hlevel, hrecorded, pkg, hshows, hplaced⟩ := hplaced
      exact ⟨hlevel, ⟨pkg, hshows⟩, hlevel, hrecorded, pkg, hshows, hplaced⟩

end Entry

/-- The decisions on Level 3 after one more report. -/
lemma ReportsOf.keys_append {entries : List Entry} {st : ReportState} {report : PackageReport}
    (h : ReportsOf env source request level fetched facts entries st)
    (hreport : ∀ expected, request.expectedVerifierKey = some expected → 3 ≤ level →
      2 ≤ report.level → KeyChecked env source request expected (st.reports ++ [report]) report) :
    ∀ expected, request.expectedVerifierKey = some expected → 3 ≤ level →
      ∀ other ∈ st.reports ++ [report], 2 ≤ other.level →
        KeyChecked env source request expected (st.reports ++ [report]) other := by
  intro expected hexpected hlevel other hother hearned
  rcases List.mem_append.mp hother with hold | hnew
  · exact (h.keys expected hexpected hlevel other hold hearned).mono (List.subset_append_left _ _)
  · rw [List.mem_singleton] at hnew
    subst hnew
    exact hreport expected hexpected hlevel hearned

/-- The states remembered before are still answers for a report after one more. -/
lemma ReportsOf.remembered_append {entries : List Entry} {st : ReportState}
    (h : ReportsOf env source request level fetched facts entries st) (report : PackageReport)
    (key : JsString) (state : Option Bytes) (hkey : st.states.get? key = some state) :
    ∃ other ∈ st.reports ++ [report], 2 ≤ other.level ∧ blockKey other.block = key ∧
      source.contractState request.target.contract other.block = .ok state := by
  obtain ⟨other, hother, hanswer⟩ := h.remembered key state hkey
  exact ⟨other, List.mem_append_left _ hother, hanswer⟩

/-- One entry of the loop. -/
lemma ReportsOf.step {entries : List Entry} {st st' : ReportState} {entry : Entry}
    (hfacts : ∀ hash fact, facts.get? hash = some fact → fact.Records env source request hash)
    (h : ReportsOf env source request level fetched facts entries st)
    (hstep : reportEntry env source request level fetched facts st entry = .ok st') :
    ReportsOf env source request level fetched facts (entries ++ [entry]) st' := by
  unfold reportEntry at hstep
  obtain ⟨checks, hchecks, hstep⟩ := bind_eq_ok_iff.mp hstep
  obtain ⟨⟨states, third⟩, hthird, hstep⟩ := bind_eq_ok_iff.mp hstep
  rw [pure_eq_ok_iff] at hstep
  subst hstep
  obtain ⟨second, rfl, hsecond, hearned⟩ := lowerChecks_spec (hfacts _) hchecks
  have hfirst : (firstCheck env fetched entry).level = 1 := packageCheck_level _ _ _
  have hlevels : ∀ check ∈ third, check.level = 3 := by
    rcases levelThreeChecks_spec hthird with ⟨-, rfl, -⟩ | ⟨expected, state, -, -, -, -, rfl⟩
    · simp
    · simpa using verifierKeyCheck_level env request.target.entryPoint expected _ state
  let report := packageReport env fetched (facts.get? entry.transactionHash) level entry
    (firstCheck env fetched entry :: second ++ third)
  have hreported : Reported env source request level fetched facts entry report :=
    reported_packageReport hsecond hlevels hearned
  have hall : List.Forall₂ (Reported env source request level fetched facts) (entries ++ [entry])
      (st.reports ++ [report]) := List.rel_append h.reports (.cons hreported .nil)
  have hguard := levelOf_two_eq_two_iff hfirst hsecond
  have htwo : 2 ≤ report.level ↔ 2 ≤ level ∧ (firstCheck env fetched entry).ok = true ∧
      Passed second := two_le_levelOf_iff hfirst hsecond hlevels
  rcases levelThreeChecks_spec hthird with ⟨rfl, rfl, hnot⟩ |
    ⟨expected, state, hexpected, hlevel, hpassed, hstate, rfl⟩
  · refine ⟨hall, h.remembered_append report,
      h.keys_append fun expected hexpected hlevel hlevelTwo => ?_⟩
    exact absurd ⟨by simp [hexpected], hlevel, hguard.mpr (htwo.mp hlevelTwo).2⟩ hnot
  · have hlevelTwo : 2 ≤ report.level := htwo.mpr ⟨by omega, hguard.mp hpassed⟩
    have hthree : 3 ≤ report.level ↔ StoresKey env request expected state := by
      refine (three_le_levelOf_iff hfirst hsecond hlevels).trans ?_
      rw [passed_singleton, verifierKeyCheck_ok_iff]
      constructor
      · intro hchecked
        exact hchecked.2.2.2
      · intro hstores
        exact ⟨hlevel, (hguard.mp hpassed).1, (hguard.mp hpassed).2, hstores⟩
    have hkeys : KeyChecked env source request expected (st.reports ++ [report]) report →
        ∀ expected', request.expectedVerifierKey = some expected' → 3 ≤ level → 2 ≤ report.level →
          KeyChecked env source request expected' (st.reports ++ [report]) report := by
      intro hchecked expected' hexpected' _ _
      rw [hexpected, Option.some.injEq] at hexpected'
      exact hexpected' ▸ hchecked
    rcases stateAt_spec hstate with ⟨hremembered, rfl⟩ | ⟨hanswer, rfl⟩
    · obtain ⟨other, hother, hotherTwo, hkey, hanswer⟩ := h.remembered_append report _ _ hremembered
      exact ⟨hall, h.remembered_append report,
        h.keys_append (hkeys ⟨other, hother, state, hotherTwo, hkey, hanswer, hthree⟩)⟩
    · have hmem : report ∈ st.reports ++ [report] := by simp
      refine ⟨hall, fun key state' hkey' => ?_,
        h.keys_append (hkeys ⟨report, hmem, state, hlevelTwo, rfl, hanswer, hthree⟩)⟩
      rw [InsertionMap.get?_set] at hkey'
      split_ifs at hkey' with hsame
      · cases hkey'
        exact ⟨report, hmem, hlevelTwo, hsame.symm, hanswer⟩
      · exact h.remembered_append report key state' hkey'

/-- What the loop over all entries has done. -/
lemma reportsOf_foldlM {entries : List Entry} {st : ReportState}
    (hfacts : ∀ hash fact, facts.get? hash = some fact → fact.Records env source request hash)
    (h : entries.foldlM (reportEntry env source request level fetched facts) ⟨.empty, []⟩ =
      .ok st) : ReportsOf env source request level fetched facts entries st := by
  have hstart : ReportsOf env source request level fetched facts [] ⟨.empty, []⟩ :=
    ⟨.nil, by simp, by simp⟩
  have hrun := foldlM_invariant
    (I := fun i st => ReportsOf env source request level fetched facts (entries.take i) st)
    hstart
    (fun i entry st st' hentry hst hstep => by
      rw [List.take_add_one, hentry]
      exact hst.step hfacts hstep)
    le_rfl (i := entries.length) (by rwa [List.take_length])
  rwa [List.take_length] at hrun

end Loop

/-! ### A whole run -/

section Run

variable {env : VerifyEnv} {source : VerifySource} {request : VerifyRequest}
  {report : VerifyReport}

/-- What an accepted request is. -/
lemma checkRequest_eq_ok {name : Bytes} {level : ℕ}
    (h : checkRequest request = .ok (name, level)) :
    (1 ≤ level ∧ level ≤ 3) ∧ isAddress request.target.contract = true ∧
      eventName request.target.name = .ok name ∧
        (3 ≤ level → request.expectedVerifierKey ≠ none) := by
  unfold checkRequest at h
  split at h
  · cases h
  · rename_i level' hlevel
    obtain ⟨_, haddress, h⟩ := bind_eq_ok_iff.mp h
    obtain ⟨-, -, h⟩ := bind_eq_ok_iff.mp h
    obtain ⟨name', hname, h⟩ := bind_eq_ok_iff.mp h
    obtain ⟨-, -, h⟩ := bind_eq_ok_iff.mp h
    obtain ⟨_, hkey, h⟩ := bind_eq_ok_iff.mp h
    rw [pure_eq_ok_iff, Prod.mk.injEq] at h
    obtain ⟨rfl, rfl⟩ := h
    rw [throwIf_eq_ok_iff] at haddress hkey
    refine ⟨(JsNumber.inRange_eq_some.mp hlevel).2, by simpa using haddress, hname, ?_⟩
    intro hthree hnone
    exact hkey ⟨hthree, hnone⟩

/-- The transactions whose raw bytes a run reads. -/
def rawHashes (request : VerifyRequest) (level : ℕ) (packages : List Package) : List JsString :=
  if level ≥ 2 then factHashes request (eventEntries packages) else []

/-- The packages of the events that a run verifies. -/
def scopedPackages (request : VerifyRequest) (read : ReadOutput) : List Package :=
  read.packages.filter (inScope request)

/-- What a run reads and collects. -/
structure VerificationReads (env : VerifyEnv) (source : VerifySource) (request : VerifyRequest)
    (name : Bytes) (level : ℕ) (fetched : SourceEvents) (read : ReadOutput)
    (collected : Collected) : Prop where
  accepted : checkRequest request = .ok (name, level)
  /-- A requested transaction is known to the source. -/
  known : isUnknown source request = .ok false
  fetches : source.events request.target.contract request.transactionHash = .ok fetched
  reads : readPackages fetched.events (readOptions request name) = .ok read
  collects : collectEntries env source request name level read.packages = .ok collected

/-- A run that found packages: what it read, collected and reported. -/
structure VerificationRun (env : VerifyEnv) (source : VerifySource) (request : VerifyRequest)
    (report : VerifyReport) (name : Bytes) (level : ℕ) (fetched : SourceEvents)
    (read : ReadOutput) (collected : Collected) (st : ReportState) : Prop extends
    VerificationReads env source request name level fetched read collected where
  nonempty : collected.entries.values ≠ []
  reports : collected.entries.values.foldlM
    (reportEntry env source request level fetched collected.facts) ⟨.empty, []⟩ = .ok st
  returns : report.notFound = false ∧ report.requestedLevel = level ∧
    report.packages = sortBy compareReports st.reports ∧
    report.level = lowestLevel level report.packages

/-- Nothing was found: the source does not know the transaction, or there is no entry. -/
def NothingFound (env : VerifyEnv) (source : VerifySource) (request : VerifyRequest) : Prop :=
  isUnknown source request = .ok true ∨ ∃ name level fetched read collected,
    VerificationReads env source request name level fetched read collected ∧
      collected.entries.values = []

/-- A run that returns has found nothing, or it is a run that found packages. -/
theorem verifyPackages_cases (h : verifyPackages env source request = .ok report) :
    (report.notFound = true ∧ report.packages = [] ∧ NothingFound env source request) ∨
      ∃ name level fetched read collected st,
        VerificationRun env source request report name level fetched read collected st := by
  unfold verifyPackages at h
  obtain ⟨⟨name, level⟩, hrequest, h⟩ := bind_eq_ok_iff.mp h
  obtain ⟨isUnknown, hknown, h⟩ := bind_eq_ok_iff.mp h
  cases isUnknown with
  | true =>
    rw [if_pos rfl, pure_eq_ok_iff] at h
    subst h
    exact .inl ⟨rfl, rfl, .inl hknown⟩
  | false =>
    rw [if_neg (by simp)] at h
    obtain ⟨fetched, hevents, h⟩ := bind_eq_ok_iff.mp h
    obtain ⟨read, hread, h⟩ := bind_eq_ok_iff.mp h
    obtain ⟨collected, hcollected, h⟩ := bind_eq_ok_iff.mp h
    have hreads : VerificationReads env source request name level fetched read collected :=
      ⟨hrequest, hknown, hevents, hread, hcollected⟩
    have hempty : collected.entries.size = 0 ↔ collected.entries.values = [] := by
      rw [InsertionMap.size, InsertionMap.values, List.length_eq_zero_iff, List.map_eq_nil_iff]
    split_ifs at h with hsize
    · rw [pure_eq_ok_iff] at h
      subst h
      exact .inl ⟨rfl, rfl, .inr ⟨name, level, fetched, read, collected, hreads, hempty.mp hsize⟩⟩
    · obtain ⟨st, hst, h⟩ := bind_eq_ok_iff.mp h
      rw [pure_eq_ok_iff] at h
      subst h
      exact .inr ⟨name, level, fetched, read, collected, st, hreads, mt hempty.mpr hsize, hst, rfl,
        rfl, rfl, rfl⟩

/-- The lowest level is at least a requested level exactly when every package has it. -/
lemma le_lowestLevel_iff {level : ℕ} {packages : List PackageReport} :
    level ≤ lowestLevel level packages ↔ ∀ pkg ∈ packages, level ≤ pkg.level := by
  have hfold : ∀ lowest, level ≤ packages.foldl
      (fun lowest pkg => if pkg.level < lowest then pkg.level else lowest) lowest ↔
      level ≤ lowest ∧ ∀ pkg ∈ packages, level ≤ pkg.level := by
    induction packages with
    | nil => simp
    | cons pkg packages ih =>
      intro lowest
      rw [List.foldl_cons, ih, List.forall_mem_cons, ← and_assoc]
      refine and_congr_left fun _ => ?_
      split_ifs <;> omega
  rw [lowestLevel, hfold]
  simp

/-- The exit status is 0 exactly when every package of a run reached the requested level. -/
theorem VerificationRun.exitStatus_eq_zero_iff {name : Bytes} {level : ℕ} {fetched : SourceEvents}
    {read : ReadOutput} {collected : Collected} {st : ReportState}
    (h : VerificationRun env source request report name level fetched read collected st) :
    verifyExitStatus report = 0 ↔ ∀ pkg ∈ report.packages, level ≤ pkg.level := by
  obtain ⟨hfound, hrequested, -, hlevel⟩ := h.returns
  unfold verifyExitStatus
  rw [hfound, hrequested, ← le_lowestLevel_iff, ← hlevel]
  simp

end Run

end MultiPartEvent
