import MultiPartEvent.Cli.Exactness

/-!
# Listing and single-transaction verification agree

A listing and the verification of one of its transactions collect their entries in different ways,
but the entries of the transaction are the same, and so are its facts (`mem_values_single`,
`facts_single`).  What is left between the two is the contract states a listing remembers: when
these depend on a block's hash only, a report is a function of its entry and the facts of its
transaction (`reportOf`), and the two list the same reports in the same order.
-/

namespace MultiPartEvent

/-! ### Reports without remembered states -/

/-- The contract state a source answers for a block depends on the block's hash only. -/
def StatesByHash (source : VerifySource) (contract : JsString) : Prop :=
  ∀ block block', blockKey block = blockKey block' →
    source.contractState contract block = source.contractState contract block'

/-- The report of an entry when no contract state is remembered. -/
def reportOf (env : VerifyEnv) (source : VerifySource) (request : VerifyRequest) (level : ℕ)
    (fetched : SourceEvents) (fact : Option TransactionFacts) (entry : Entry) :
    Except JsError PackageReport := do
  let checks ← lowerChecks env request level fetched fact entry
  let (_, third) ← levelThreeChecks env source request level .empty (entryBlock fetched fact entry)
      checks
  return packageReport env fetched fact level entry (checks ++ third)

/-- Every remembered state is the source's answer for each block it is remembered for. -/
def Remembers (source : VerifySource) (contract : JsString)
    (states : InsertionMap JsString (Option Bytes)) : Prop :=
  ∀ block state, states.get? (blockKey block) = some state →
    source.contractState contract block = .ok state

section States

variable {env : VerifyEnv} {source : VerifySource} {request : VerifyRequest} {level : ℕ}
  {fetched : SourceEvents} {facts : InsertionMap JsString TransactionFacts}

/-- At first no state is remembered. -/
lemma remembers_empty (contract : JsString) : Remembers source contract .empty := by
  intro block state h
  rw [InsertionMap.get?_empty] at h
  cases h

/-- The state at a block is the source's answer, and so are the states remembered from then on. -/
lemma Remembers.stateAt {contract : JsString}
    {states states' : InsertionMap JsString (Option Bytes)}
    {block : Option BlockRef} {state : Option Bytes} (hstates : StatesByHash source contract)
    (h : Remembers source contract states)
    (hstate : MultiPartEvent.stateAt source contract states block = .ok (states', state)) :
    source.contractState contract block = .ok state ∧ Remembers source contract states' := by
  rcases stateAt_spec hstate with ⟨hremembered, rfl⟩ | ⟨hanswer, rfl⟩
  · exact ⟨h block state hremembered, h⟩
  · refine ⟨hanswer, fun other remembered hother => ?_⟩
    rw [InsertionMap.get?_set] at hother
    split_ifs at hother with hkey
    · cases hother
      rw [hstates other block hkey]
      exact hanswer
    · exact h other remembered hother

/-- Level 3 checks are those made without remembered states. -/
lemma Remembers.levelThreeChecks {states states' : InsertionMap JsString (Option Bytes)}
    {block : Option BlockRef} {checks third : List Check}
    (hstates : StatesByHash source request.target.contract)
    (h : Remembers source request.target.contract states)
    (hthird : MultiPartEvent.levelThreeChecks env source request level states block checks =
      .ok (states', third)) :
    Remembers source request.target.contract states' ∧ ∃ fresh,
      MultiPartEvent.levelThreeChecks env source request level .empty block checks =
        .ok (fresh, third) := by
  rcases levelThreeChecks_spec hthird with ⟨rfl, rfl, hnot⟩ |
    ⟨expected, state, hexpected, hlevel, hpassed, hstate, rfl⟩
  · refine ⟨h, .empty, ?_⟩
    unfold MultiPartEvent.levelThreeChecks
    cases hexpected : request.expectedVerifierKey with
    | none => rfl
    | some expected =>
      have hskipped : ¬(level ≥ 3 ∧ levelOf checks 2 = 2) :=
        fun hand => hnot ⟨by simp [hexpected], hand⟩
      simp only [if_neg hskipped]
  · obtain ⟨hanswer, hremembers⟩ := h.stateAt hstates hstate
    refine ⟨hremembers, InsertionMap.empty.set (blockKey block) state, ?_⟩
    have hasked : level ≥ 3 ∧ levelOf checks 2 = 2 := ⟨hlevel, hpassed⟩
    have hfresh : MultiPartEvent.stateAt source request.target.contract .empty block =
        .ok (InsertionMap.empty.set (blockKey block) state, state) := by
      unfold MultiPartEvent.stateAt
      simp only [InsertionMap.get?_empty, hanswer]
      rfl
    unfold MultiPartEvent.levelThreeChecks
    simp only [hexpected, if_pos hasked, hfresh]
    rfl

/-- One entry of the loop adds the report it has without remembered states. -/
lemma Remembers.reportEntry {st st' : ReportState} {entry : Entry}
    (hstates : StatesByHash source request.target.contract)
    (h : Remembers source request.target.contract st.states)
    (hstep : MultiPartEvent.reportEntry env source request level fetched facts st entry = .ok st') :
    Remembers source request.target.contract st'.states ∧ ∃ report,
      reportOf env source request level fetched (facts.get? entry.transactionHash) entry =
        .ok report ∧ st'.reports = st.reports ++ [report] := by
  unfold MultiPartEvent.reportEntry at hstep
  obtain ⟨checks, hchecks, hstep⟩ := bind_eq_ok_iff.mp hstep
  obtain ⟨⟨states, third⟩, hthird, hstep⟩ := bind_eq_ok_iff.mp hstep
  rw [pure_eq_ok_iff] at hstep
  subst hstep
  obtain ⟨hremembers, fresh, hfresh⟩ := h.levelThreeChecks hstates hthird
  refine ⟨hremembers, _, ?_, rfl⟩
  unfold reportOf
  rw [hchecks, ok_bind, hfresh]
  rfl

/-- The loop over the entries reports what each has without remembered states. -/
lemma reports_foldlM {entries : List Entry} {st : ReportState}
    (hstates : StatesByHash source request.target.contract)
    (h : entries.foldlM (reportEntry env source request level fetched facts) ⟨.empty, []⟩ =
      .ok st) :
    List.Forall₂ (fun entry report => reportOf env source request level fetched
      (facts.get? entry.transactionHash) entry = .ok report) entries st.reports := by
  have hrun := foldlM_invariant
    (I := fun i (st : ReportState) => Remembers source request.target.contract st.states ∧
      List.Forall₂ (fun entry report => reportOf env source request level fetched
        (facts.get? entry.transactionHash) entry = .ok report) (entries.take i) st.reports)
    ⟨remembers_empty _, List.Forall₂.nil⟩
    (fun i entry st st' hentry hst hstep => by
      obtain ⟨hremembers, hreports⟩ := hst
      obtain ⟨hremembers, report, hreport, hadded⟩ := hremembers.reportEntry hstates hstep
      refine ⟨hremembers, ?_⟩
      rw [List.take_add_one, hentry, hadded]
      exact List.rel_append hreports (.cons hreport .nil))
    le_rfl (i := entries.length) (by rwa [List.take_length])
  rw [List.take_length] at hrun
  exact hrun.2

/-- A report shows the transaction, the segment and the block of its entry. -/
lemma reportOf_eq_ok {fact : Option TransactionFacts} {entry : Entry} {report : PackageReport}
    (h : reportOf env source request level fetched fact entry = .ok report) :
    report.transactionHash = entry.transactionHash ∧ report.segment = entry.segment ∧
      report.block = entryBlock fetched fact entry := by
  unfold reportOf at h
  obtain ⟨checks, -, h⟩ := bind_eq_ok_iff.mp h
  obtain ⟨⟨states, third⟩, -, h⟩ := bind_eq_ok_iff.mp h
  rw [pure_eq_ok_iff] at h
  subst h
  exact ⟨rfl, rfl, rfl⟩

/-- Reports show the transactions and segments of their entries, in order. -/
lemma intents_of_reports {entries : List Entry} {reports : List PackageReport}
    (h : List.Forall₂ (fun entry report => reportOf env source request level fetched
      (facts.get? entry.transactionHash) entry = .ok report) entries reports) :
    reports.map (fun p => (p.transactionHash, p.segment)) =
      entries.map fun entry => (entry.transactionHash, entry.segment) := by
  induction h with
  | nil => rfl
  | cons hreport _ ih =>
    obtain ⟨hhash, hsegment, -⟩ := reportOf_eq_ok hreport
    rw [List.map_cons, List.map_cons, ih, hhash, hsegment]

end States

/-! ### The entries of a run -/

section Entries

variable {env : VerifyEnv} {source : VerifySource} {request : VerifyRequest} {name : Bytes}

/-- The raw bytes show at most one package at a segment, and it is of their transaction. -/
lemma rawPackages_inj (hname : name.length = 32) {hash : JsString} {decoded : Transaction}
    {raws : List Package} (hraws : rawPackages request name hash decoded = .ok raws)
    {pkg other : Package}
    (hpkg : pkg ∈ raws) (hother : other ∈ raws) (hsegment : pkg.segment = other.segment) :
    pkg = other := by
  unfold rawPackages at hraws
  obtain ⟨read, hread, hraws⟩ := bind_eq_ok_iff.mp hraws
  rw [pure_eq_ok_iff] at hraws
  subst hraws
  have hhash : ∀ p ∈ read.packages, p.transactionHash = hash := by
    intro p hp
    have hne := (exists_package_iff hname hread).mp ⟨p, hp, rfl, rfl⟩
    obtain ⟨e, he⟩ := List.exists_mem_of_ne_nil _ hne
    unfold packageEvents at he
    rw [List.mem_filter, decide_eq_true_eq] at he
    obtain ⟨_, _, -, rfl⟩ := exists_of_mem_events he.1
    exact he.2.2.2.2.1.symm
  have hpkg' := (List.mem_filter.mp hpkg).1
  have hother' := (List.mem_filter.mp hother).1
  exact List.inj_on_of_nodup_map (nodup_entryKey hname hread) hpkg' hother'
    (entryKey_inj.mpr ⟨(hhash _ hpkg').trans (hhash _ hother').symm, hsegment⟩)

/-- What is collected: the packages of the events, and those of the raw bytes at the segments the
events do not show. -/
lemma CollectedFrom.mem_values_iff {packages : List Package} {hashes : List JsString}
    {st : Collected}
    (h : CollectedFrom env source request name packages hashes st) (hname : name.length = 32)
    {entry : Entry} : entry ∈ st.entries.values ↔
      (∃ pkg ∈ packages, entry = eventEntry pkg) ∨
      ∃ hash ∈ hashes, ∃ decoded raws, RawOf env source hash decoded ∧
        rawPackages request name hash decoded = .ok raws ∧ ∃ pkg ∈ raws,
          (∀ other ∈ packages, other.entryKey ≠ entryKey hash pkg.segment) ∧
            entry = rawEntry hash pkg := by
  constructor
  · intro hentry
    rcases h.origin entry hentry with hevents |
        ⟨hash, hhash, decoded, raws, hraw, hraws, pkg, hpkg, rfl⟩
    · exact .inl hevents
    · refine .inr ⟨hash, hhash, decoded, raws, hraw, hraws, pkg, hpkg,
        fun other hother hsame => ?_, rfl⟩
      obtain ⟨key, hkey⟩ := InsertionMap.mem_values_iff.mp hentry
      have hshown := h.events other hother
      have hown : key = entryKey hash pkg.segment := h.keys key _ hkey
      rw [hsame, ← hown, hkey, Option.some.injEq] at hshown
      have horigin := congrArg Entry.rawOnly hshown
      cases horigin
  · intro hentry
    rcases hentry with ⟨pkg, hpkg, rfl⟩ |
        ⟨hash, hhash, decoded, raws, hraw, hraws, pkg, hpkg, hnew, rfl⟩
    · exact InsertionMap.mem_values_iff.mpr ⟨_, h.events pkg hpkg⟩
    · obtain ⟨raws', hraws', hkeys⟩ := h.raws hash hhash decoded hraw
      obtain rfl : raws = raws' := Except.ok.inj (hraws.symm.trans hraws')
      obtain ⟨entry, hentry⟩ := InsertionMap.mem_keys_iff.mp (hkeys pkg hpkg)
      have hvalue : entry ∈ st.entries.values := InsertionMap.mem_values_iff.mpr ⟨_, hentry⟩
      have hkey := h.keys _ _ hentry
      rcases h.origin entry hvalue with ⟨other, hother, rfl⟩ |
        ⟨hash', -, decoded', raws', hraw', hraws', other, hother, rfl⟩
      · exact absurd hkey.symm (hnew other hother)
      · obtain ⟨hsame, hsegment⟩ := entryKey_inj.mp hkey
        obtain rfl : hash = hash' := hsame
        obtain ⟨transaction, hfound, hdecodes⟩ := hraw
        obtain ⟨transaction', hfound', hdecodes'⟩ := hraw'
        cases hfound.symm.trans hfound'
        cases hdecodes.symm.trans hdecodes'
        cases hraws.symm.trans hraws'
        rw [rawPackages_inj hname hraws hpkg hother hsegment]
        exact hvalue

end Entries

/-! ### One transaction of a listing -/

/-- The request to list every package. -/
def VerifyRequest.listing (request : VerifyRequest) : VerifyRequest :=
  { request with transactionHash := none, segment := none }

/-- The request to verify one transaction, or one intent of it. -/
def VerifyRequest.single (request : VerifyRequest) (hash : JsString) (segment : Option JsNumber) :
    VerifyRequest :=
  { request with transactionHash := some hash, segment := segment }

/-- An answer for one transaction is the answer for the whole contract, restricted to it. -/
structure SourceEvents.RestrictsTo (whole one : SourceEvents) (hash : JsString) : Prop where
  events : one.events = whole.events.filter fun e => e.transactionHash = hash
  issues : ∀ other, one.issues.get? other = if other = hash then whole.issues.get? other else none
  blocks : ∀ other, one.blocks.get? other = if other = hash then whole.blocks.get? other else none

/-- A run that knows its transaction, with or without packages. -/
structure VerificationLoop (env : VerifyEnv) (source : VerifySource) (request : VerifyRequest)
    (report : VerifyReport) (name : Bytes) (level : ℕ) (fetched : SourceEvents) (read : ReadOutput)
    (collected : Collected) (st : ReportState) : Prop extends
    VerificationReads env source request name level fetched read collected where
  loops : collected.entries.values.foldlM
    (reportEntry env source request level fetched collected.facts) ⟨.empty, []⟩ = .ok st
  packages : report.packages = sortBy compareReports st.reports

section Run

variable {env : VerifyEnv} {source : VerifySource} {request : VerifyRequest} {report : VerifyReport}

/-- A run that returns and knows its transaction. -/
lemma exists_loop (hknown : isUnknown source request = .ok false)
    (h : verifyPackages env source request = .ok report) :
    ∃ name level fetched read collected st,
      VerificationLoop env source request report name level fetched read collected st := by
  rcases verifyPackages_cases h with ⟨-, hpackages, hnothing⟩ |
    ⟨name, level, fetched, read, collected, st, hrun⟩
  · rcases hnothing with hunknown | ⟨name, level, fetched, read, collected, hreads, hempty⟩
    · rw [hknown] at hunknown
      cases hunknown
    · refine ⟨name, level, fetched, read, collected, ⟨.empty, []⟩, hreads, ?_, hpackages⟩
      rw [hempty]
      rfl
  · exact ⟨name, level, fetched, read, collected, st, hrun.toVerificationReads, hrun.reports,
      hrun.returns.2.2.1⟩

/-- What an accepted request asks for. -/
lemma checkRequest_asks {name : Bytes} {level : ℕ} (h : checkRequest request = .ok (name, level)) :
    request.level.inRange 1 3 = some level ∧ eventName request.target.name = .ok name := by
  refine ⟨?_, (checkRequest_eq_ok h).2.2.1⟩
  unfold checkRequest at h
  split at h
  · cases h
  · rename_i accepted hlevel
    obtain ⟨_, -, h⟩ := bind_eq_ok_iff.mp h
    obtain ⟨_, -, h⟩ := bind_eq_ok_iff.mp h
    obtain ⟨_, -, h⟩ := bind_eq_ok_iff.mp h
    obtain ⟨_, -, h⟩ := bind_eq_ok_iff.mp h
    obtain ⟨_, -, h⟩ := bind_eq_ok_iff.mp h
    rw [pure_eq_ok_iff, Prod.mk.injEq] at h
    rw [hlevel, h.2]

namespace VerificationLoop

variable {name : Bytes} {level : ℕ} {fetched : SourceEvents} {read : ReadOutput}
  {collected : Collected} {st : ReportState}
  (h : VerificationLoop env source request report name level fetched read collected st)
include h

/-- Every report of the run is that of an entry, without remembered states. -/
lemma mem_packages_iff (hstates : StatesByHash source request.target.contract) {p : PackageReport} :
    p ∈ report.packages ↔ ∃ entry ∈ collected.entries.values,
      reportOf env source request level fetched
      (collected.facts.get? entry.transactionHash) entry = .ok p := by
  have hreports := reports_foldlM hstates h.loops
  rw [h.packages, mem_sortBy]
  constructor
  · intro hp
    exact exists_left_of_forall₂ hreports hp
  · intro hp
    obtain ⟨entry, hentry, hreport⟩ := hp
    obtain ⟨q, hq, hreport'⟩ := exists_right_of_forall₂ hreports hentry
    rw [hreport] at hreport'
    cases hreport'
    exact hq

/-- No two reports of a run are of one intent. -/
lemma nodup_intents (hstates : StatesByHash source request.target.contract) :
    (st.reports.map fun p => (p.transactionHash, p.segment)).Nodup := by
  have hreports := reports_foldlM hstates h.loops
  have hsame := intents_of_reports hreports
  have hkeys : collected.entries.values.map Entry.key = collected.entries.keys := by
    unfold InsertionMap.values InsertionMap.keys
    rw [List.map_map]
    refine List.map_congr_left fun item hitem => ?_
    have hget : collected.entries.get? item.1 = some item.2 :=
      InsertionMap.get?_eq_some_iff.mpr hitem
    exact (h.collectedFrom.keys _ _ hget).symm
  rw [hsame]
  have hnodup : (collected.entries.values.map Entry.key).Nodup :=
    hkeys ▸ collected.entries.nodup_keys
  rw [List.Nodup, List.pairwise_map] at hnodup ⊢
  refine hnodup.imp fun {entry other} hne hsame => hne ?_
  obtain ⟨hhash, hsegment⟩ := Prod.mk.inj hsame
  exact entryKey_inj.mpr ⟨hhash, hsegment⟩

/-- The reports of one transaction show one block. -/
lemma block_eq (hstates : StatesByHash source request.target.contract) {hash : JsString}
    {p : PackageReport} (hp : p ∈ report.packages) (hhash : p.transactionHash = hash) :
    p.block = (((collected.facts.get? hash).bind TransactionFacts.transaction).bind
      SourceTransaction.block).or (fetched.blocks.get? hash) := by
  obtain ⟨entry, -, hreport⟩ := (h.mem_packages_iff hstates).mp hp
  obtain ⟨hown, -, hblock⟩ := reportOf_eq_ok hreport
  rw [hblock, ← hhash, hown]
  rfl

end VerificationLoop

end Run

/-! ### The order of the reports -/

/-- The order of the reports is that of their heights, hashes and segments. -/
lemma compareReports_eq_cmp (left right : PackageReport) : compareReports left right =
    cmp (toLex (sortHeight left, toLex (left.transactionHash, left.segment)))
      (toLex (sortHeight right, toLex (right.transactionHash, right.segment))) := by
  rw [cmp_toLex, cmp_toLex, compareReports, ← cmp_eq_compare, ← cmp_eq_compare, compareCodeUnits,
    ite_lt_eq_cmp]

/-- The reports of one transaction are in the order of their segments, when they are of one
block. -/
lemma pairwise_segments {reports : List PackageReport}
    (hnodup : (reports.map fun p => (p.transactionHash, p.segment)).Nodup) {hash : JsString}
    {block : Option BlockRef} (hblock : ∀ p ∈ reports, p.transactionHash = hash → p.block = block)
    {shows : PackageReport → Bool} (hshows : ∀ p, shows p = true → p.transactionHash = hash) :
    ((sortBy compareReports reports).filter shows).Pairwise fun p q => p.segment < q.segment := by
  have hnodup' : (sortBy compareReports reports).Pairwise fun p q =>
      (p.transactionHash, p.segment) ≠ (q.transactionHash, q.segment) := by
    rw [← List.pairwise_map]
    exact ((sortBy_perm compareReports reports).map _).nodup_iff.mpr hnodup
  have hsorted :=
    (List.Pairwise.and hnodup' (pairwise_sortBy compareReports_eq_cmp reports)).filter shows
  refine hsorted.imp_of_mem fun {p q} hp hq hpq => ?_
  obtain ⟨hp, hshown⟩ := List.mem_filter.mp hp
  obtain ⟨hq, hshown'⟩ := List.mem_filter.mp hq
  have hhash := hshows p hshown
  have hhash' := hshows q hshown'
  obtain ⟨hne, hle⟩ := hpq
  rw [sortHeight, sortHeight, hblock p (mem_sortBy.mp hp) hhash, hblock q (mem_sortBy.mp hq) hhash',
    hhash, hhash'] at hle
  rw [hhash, hhash', ne_eq, Prod.mk.injEq, not_and] at hne
  have hsegments : p.segment ≤ q.segment := by simpa [Prod.Lex.toLex_le_toLex] using hle
  exact lt_of_le_of_ne hsegments (hne rfl)

/-- The reports a run shows of one transaction are in the order of their segments. -/
lemma VerificationLoop.pairwise_segments {env : VerifyEnv} {source : VerifySource}
    {request : VerifyRequest} {report : VerifyReport} {name : Bytes} {level : ℕ}
    {fetched : SourceEvents} {read : ReadOutput} {collected : Collected} {st : ReportState}
    (h : VerificationLoop env source request report name level fetched read collected st)
    (hstates : StatesByHash source request.target.contract) {hash : JsString}
    {shows : PackageReport → Bool} (hshows : ∀ p, shows p = true → p.transactionHash = hash) :
    (report.packages.filter shows).Pairwise fun p q => p.segment < q.segment := by
  have hblock : ∀ p ∈ st.reports, p.transactionHash = hash →
      p.block = (((collected.facts.get? hash).bind TransactionFacts.transaction).bind
        SourceTransaction.block).or (fetched.blocks.get? hash) := by
    intro p hp hown
    have hp' : p ∈ report.packages := by
      rw [h.packages, mem_sortBy]
      exact hp
    exact h.block_eq hstates hp' hown
  rw [h.packages]
  exact MultiPartEvent.pairwise_segments (h.nodup_intents hstates) hblock hshows

/-! ### A listing beside a run on one of its transactions -/

section Compare

variable {env : VerifyEnv} {source : VerifySource} {request : VerifyRequest} {hash : JsString}
  {segment : Option JsNumber} {listing single : VerifyReport} {name : Bytes} {level : ℕ}
  {whole one : SourceEvents} {read read' : ReadOutput} {collected collected' : Collected}
  {st st' : ReportState}

/-- The packages in scope of a run on one transaction are those of the listing. -/
lemma mem_scopedPackages_single
    (h : VerificationReads env source request.listing name level whole read collected)
    (h' : VerificationReads env source (request.single hash segment) name level one read'
      collected')
    (hrestricts : whole.RestrictsTo one hash) {pkg : Package} :
    pkg ∈ scopedPackages (request.single hash segment) read' ↔
      pkg ∈ scopedPackages request.listing read ∧ pkg.transactionHash = hash ∧
        InScope (request.single hash segment) (.int pkg.segment) := by
  obtain ⟨_, _, names, haccepts, -, hwell, -, hread⟩ := readPackages_eq_ok_iff.mp h.reads
  obtain ⟨_, _, names', haccepts', -, -, -, hread'⟩ := readPackages_eq_ok_iff.mp h'.reads
  have hnames : names' = names := (haccepts.unique haccepts').2.2
  have hpart :
      ∀ e ∈ whole.events, ∀ s, scopeOf names (readOptions request name).network e = some s →
      decide (s.transactionHash = hash) = decide (e.transactionHash = hash) := by
    intro e _ s hscope
    obtain ⟨n, -, rfl⟩ := Option.map_eq_some_iff.mp hscope
    rfl
  have hpackages : read'.packages = read.packages.filter fun pkg => pkg.transactionHash = hash := by
    rw [hread', hread, hrestricts.events, hnames]
    exact (filter_packages_readOutput hpart).symm
  have hlisted : ∀ p, inScope request.listing p = true := fun p => rfl
  unfold scopedPackages
  rw [hpackages]
  simp only [List.mem_filter, hlisted, and_true, decide_eq_true_eq, inScope_eq_true_iff, and_assoc]

/-- The packages of the raw bytes in scope of a run on one transaction are those of the listing. -/
lemma rawPackages_single {decoded : Transaction} {raws : List Package} :
    rawPackages (request.single hash segment) name hash decoded = .ok raws ↔
      ∃ all, rawPackages request.listing name hash decoded = .ok all ∧
        raws = all.filter (inScope (request.single hash segment)) := by
  have hlisted : ∀ l : List Package, l.filter (inScope request.listing) = l :=
    fun l => List.filter_eq_self.mpr fun p _ => rfl
  unfold rawPackages
  simp only [bind_eq_ok_iff, pure_eq_ok_iff, hlisted]
  constructor
  · intro h
    obtain ⟨output, houtput, rfl⟩ := h
    exact ⟨output.packages, ⟨output, houtput, rfl⟩, rfl⟩
  · intro h
    obtain ⟨all, ⟨output, houtput, rfl⟩, rfl⟩ := h
    exact ⟨output, houtput, rfl⟩

section Loops

variable
  (h : VerificationLoop env source request.listing listing name level whole read collected st)
  (h' : VerificationLoop env source (request.single hash segment) single name level one read'
    collected' st')
  (hrestricts : whole.RestrictsTo one hash)
  (hnamed : ∃ pkg ∈ scopedPackages request.listing read, pkg.transactionHash = hash)
include h h' hrestricts hnamed

omit h in
/-- From Level 2 on, both runs read the raw bytes of the transaction. -/
lemma mem_rawHashes_iff (other : JsString) :
    other ∈ rawHashes (request.single hash segment) level
      (scopedPackages (request.single hash segment) read')
      ↔ other = hash ∧ other ∈ rawHashes request.listing level
        (scopedPackages request.listing read) := by
  rw [mem_rawHashes, mem_rawHashes]
  constructor
  · intro hraw
    obtain ⟨hlevel, hrequested, -⟩ := hraw
    have hsame : other = hash := hrequested hash rfl
    subst hsame
    exact ⟨rfl, hlevel, fun _ hnone => (nomatch hnone), fun _ => hnamed⟩
  · intro hraw
    obtain ⟨hsame, hlevel, -⟩ := hraw
    refine ⟨hlevel, fun requested hrequested => ?_, fun hnone => (nomatch hnone)⟩
    cases hrequested
    exact hsame

/-- The entries of a run on one transaction are those of the listing. -/
lemma mem_values_single {entry : Entry} : entry ∈ collected'.entries.values ↔
    entry ∈ collected.entries.values ∧ entry.transactionHash = hash ∧
      InScope (request.single hash segment) (.int entry.segment) := by
  have hpackages : ∀ pkg, pkg ∈ scopedPackages (request.single hash segment) read' ↔
      pkg ∈ scopedPackages request.listing read ∧ pkg.transactionHash = hash ∧
        InScope (request.single hash segment) (.int pkg.segment) := fun pkg =>
    mem_scopedPackages_single h.toVerificationReads h'.toVerificationReads hrestricts
  rw [h'.collectedFrom.mem_values_iff h'.length_name, h.collectedFrom.mem_values_iff h.length_name]
  simp only [mem_rawHashes_iff h' hrestricts hnamed]
  constructor
  · intro hentry
    rcases hentry with ⟨pkg, hpkg, rfl⟩ |
      ⟨other, ⟨rfl, hhash⟩, decoded, raws, hraw, hraws, pkg, hpkg, hnew, rfl⟩
    · obtain ⟨hlisted, hsame, hscope⟩ := (hpackages pkg).mp hpkg
      exact ⟨.inl ⟨pkg, hlisted, rfl⟩, hsame, hscope⟩
    · obtain ⟨all, hall, rfl⟩ := rawPackages_single.mp hraws
      obtain ⟨hpkg, hscope⟩ := List.mem_filter.mp hpkg
      rw [inScope_eq_true_iff] at hscope
      refine ⟨.inr ⟨other, hhash, decoded, all, hraw, hall, pkg, hpkg,
        fun shown hshown hkey => ?_, rfl⟩, rfl, hscope⟩
      obtain ⟨hsame, hsegment⟩ := entryKey_inj.mp hkey
      exact hnew shown ((hpackages shown).mpr ⟨hshown, hsame, hsegment ▸ hscope⟩) hkey
  · intro hentry
    obtain ⟨hentry, hsame, hscope⟩ := hentry
    rcases hentry with ⟨pkg, hpkg, rfl⟩ |
      ⟨other, hhash, decoded, all, hraw, hall, pkg, hpkg, hnew, rfl⟩
    · exact .inl ⟨pkg, (hpackages pkg).mpr ⟨hpkg, hsame, hscope⟩, rfl⟩
    · have hother : other = hash := hsame
      subst hother
      refine .inr ⟨other, ⟨rfl, hhash⟩, decoded, _, hraw, rawPackages_single.mpr ⟨all, hall, rfl⟩,
        pkg,
        List.mem_filter.mpr ⟨hpkg, inScope_eq_true_iff.mpr hscope⟩, fun shown hshown => ?_, rfl⟩
      exact hnew shown ((hpackages shown).mp hshown).1

/-- Both runs know the same facts of the transaction. -/
lemma facts_single : collected'.facts.get? hash = collected.facts.get? hash := by
  refine Option.ext fun fact => ?_
  rw [h'.collectedFrom.facts, h.collectedFrom.facts, mem_rawHashes_iff h' hrestricts hnamed]
  simp only [true_and]
  exact Iff.rfl

/-- Both runs report the same of an entry of the transaction. -/
lemma reportOf_single {entry : Entry} (hentry : entry.transactionHash = hash) :
    reportOf env source (request.single hash segment) level one
        (collected'.facts.get? entry.transactionHash) entry =
      reportOf env source request.listing level whole
        (collected.facts.get? entry.transactionHash) entry := by
  have hissues :
      one.issues.get? entry.transactionHash = whole.issues.get? entry.transactionHash := by
    rw [hrestricts.issues, if_pos hentry]
  have hblocks :
      one.blocks.get? entry.transactionHash = whole.blocks.get? entry.transactionHash := by
    rw [hrestricts.blocks, if_pos hentry]
  rw [hentry, facts_single h h' hrestricts hnamed, ← hentry]
  unfold reportOf lowerChecks packageReport entryBlock
  rw [hissues, hblocks]
  rfl

/-- The run on one transaction reports what the listing does for it. -/
lemma packages_single (hstates : StatesByHash source request.target.contract) :
    single.packages = listing.packages.filter fun p =>
      decide (p.transactionHash = hash) && segment.all fun s => JsNumber.int p.segment = s := by
  have hirrefl : Std.Irrefl fun p q : PackageReport => p.segment < q.segment :=
    ⟨fun p => lt_irrefl p.segment⟩
  have hantisymm : Std.Antisymm fun p q : PackageReport => p.segment < q.segment :=
    ⟨fun p q hpq hqp => absurd hqp hpq.asymm⟩
  have hscope : ∀ p : PackageReport, (segment.all fun s => JsNumber.int p.segment = s) = true ↔
      InScope (request.single hash segment) (.int p.segment) := by
    intro p
    unfold InScope VerifyRequest.single
    cases segment with
    | none => simp
    | some s => simp
  have hmem : ∀ p, p ∈ single.packages ↔ p ∈ listing.packages.filter fun p =>
      decide (p.transactionHash = hash) && segment.all fun s => JsNumber.int p.segment = s := by
    intro p
    rw [List.mem_filter, Bool.and_eq_true, decide_eq_true_eq, hscope, h'.mem_packages_iff hstates,
      h.mem_packages_iff hstates]
    simp only [mem_values_single h h' hrestricts hnamed]
    constructor
    · intro hp
      obtain ⟨entry, ⟨hentry, hsame, hscope⟩, hreport⟩ := hp
      rw [reportOf_single h h' hrestricts hnamed hsame] at hreport
      obtain ⟨hown, hsegment, -⟩ := reportOf_eq_ok hreport
      exact ⟨⟨entry, hentry, hreport⟩, hown.trans hsame, hsegment ▸ hscope⟩
    · intro hp
      obtain ⟨⟨entry, hentry, hreport⟩, hsame, hscope⟩ := hp
      obtain ⟨hown, hsegment, -⟩ := reportOf_eq_ok hreport
      rw [hown] at hsame
      rw [hsegment] at hscope
      refine ⟨entry, ⟨hentry, hsame, hscope⟩, ?_⟩
      rw [reportOf_single h h' hrestricts hnamed hsame]
      exact hreport
  have hall : single.packages = single.packages.filter fun p => p.transactionHash = hash := by
    refine (List.filter_eq_self.mpr fun p hp => ?_).symm
    have hp' := (List.mem_filter.mp ((hmem p).mp hp)).2
    exact (Bool.and_eq_true_iff.mp hp').1
  have hsorted : single.packages.Pairwise fun p q => p.segment < q.segment := by
    rw [hall]
    exact h'.pairwise_segments hstates fun p hp => of_decide_eq_true hp
  have hshows : ∀ p : PackageReport, (decide (p.transactionHash = hash) &&
      segment.all fun s => JsNumber.int p.segment = s) = true → p.transactionHash = hash :=
    fun p hp => of_decide_eq_true (Bool.and_eq_true_iff.mp hp).1
  exact List.Pairwise.eq_of_mem_iff hsorted (h.pairwise_segments hstates hshows) hmem

/-- The reports of a run on one transaction are in the order of their segments. -/
lemma pairwise_single (hstates : StatesByHash source request.target.contract) :
    single.packages.Pairwise fun p q => p.segment < q.segment := by
  have hshows : ∀ p : PackageReport, (decide (p.transactionHash = hash) &&
      segment.all fun s => JsNumber.int p.segment = s) = true → p.transactionHash = hash :=
    fun p hp => of_decide_eq_true (Bool.and_eq_true_iff.mp hp).1
  rw [packages_single h h' hrestricts hnamed hstates]
  exact h.pairwise_segments hstates hshows

end Loops

end Compare

/-! ### Agreement -/

/-- A package of the transaction shows at the segment: in the events or, from Level 2 on, in the raw
bytes. -/
def ShownAt (env : VerifyEnv) (source : VerifySource) (request : VerifyRequest) (name : Bytes)
    (level : ℕ) (events : List PartEvent) (hash : JsString) (segment : ℕ) : Prop :=
  packageEvents request name events hash segment ≠ [] ∨
    2 ≤ level ∧ ∃ decoded, RawOf env source hash decoded ∧
      ∃ e ∈ rawEvents request hash decoded, e.head = name ∧ e.segment = .int segment

/-- A run with a segment reports something exactly when a package shows there. -/
lemma packages_ne_nil_iff {env : VerifyEnv} {source : VerifySource} {request : VerifyRequest}
    {hash : JsString} {segment : ℕ} {single : VerifyReport} {name : Bytes} {level : ℕ}
    {whole one : SourceEvents} {read' : ReadOutput} {collected' : Collected} {st' : ReportState}
    (h' : VerificationLoop env source (request.single hash (some (.int segment))) single name level
      one read' collected' st')
    (hrestricts : whole.RestrictsTo one hash)
    (hstates : StatesByHash source request.target.contract) :
    single.packages ≠ [] ↔ ShownAt env source request name level whole.events hash segment := by
  have hentries : single.packages ≠ [] ↔ ∃ entry, entry ∈ collected'.entries.values := by
    have hreports := reports_foldlM hstates h'.loops
    constructor
    · intro hne
      obtain ⟨p, hp⟩ := List.exists_mem_of_ne_nil _ hne
      obtain ⟨entry, hentry, -⟩ := (h'.mem_packages_iff hstates).mp hp
      exact ⟨entry, hentry⟩
    · intro hentry
      obtain ⟨entry, hentry⟩ := hentry
      obtain ⟨p, -, hreport⟩ := exists_right_of_forall₂ hreports hentry
      exact List.ne_nil_of_mem ((h'.mem_packages_iff hstates).mpr ⟨entry, hentry, hreport⟩)
  have hevents : packageEvents request name one.events hash segment =
      packageEvents request name whole.events hash segment := by
    unfold packageEvents
    rw [hrestricts.events, List.filter_filter]
    refine List.filter_congr fun e _ => ?_
    by_cases hsame : e.transactionHash = hash <;> simp [hsame]
  have hscope :
      ∀ n : ℕ, InScope (request.single hash (some (.int segment))) (.int n) ↔ n = segment := by
    intro n
    unfold InScope VerifyRequest.single
    simp
  have hraw : ∀ other, other ∈ rawHashes (request.single hash (some (.int segment))) level
      (scopedPackages (request.single hash (some (.int segment))) read') ↔
        2 ≤ level ∧ other = hash := by
    intro other
    rw [mem_rawHashes]
    simp [VerifyRequest.single]
  rw [hentries, ShownAt, ← hevents]
  constructor
  · intro hentry
    obtain ⟨entry, hentry⟩ := hentry
    rcases h'.collectedFrom.origin entry hentry with ⟨pkg, hpkg, -⟩ |
      ⟨other, hother, decoded, raws, hdecoded, hraws, pkg, hpkg, -⟩
    · obtain ⟨hin, hne⟩ := h'.listed_iff.mpr ⟨pkg, hpkg, rfl, rfl⟩
      have hsegment := (hscope _).mp hin
      obtain ⟨e, he⟩ := List.exists_mem_of_ne_nil _ hne
      have he' := he
      unfold packageEvents at he'
      rw [List.mem_filter, decide_eq_true_eq, hrestricts.events, List.mem_filter,
        decide_eq_true_eq] at he'
      have hsame : pkg.transactionHash = hash := he'.2.2.2.2.1.symm.trans he'.1.2
      rw [hsame, hsegment] at hne
      exact .inl hne
    · obtain ⟨hlevel, rfl⟩ := (hraw other).mp hother
      obtain ⟨hin, e, he, hhead, hsegment⟩ :=
        (exists_rawPackage_iff h'.length_name hraws).mp ⟨pkg, hpkg, rfl⟩
      rw [(hscope _).mp hin] at hsegment
      exact .inr ⟨hlevel, decoded, hdecoded, e, he, hhead, hsegment⟩
  · intro hshown
    rcases hshown with hne | ⟨hlevel, decoded, hdecoded, e, he, hhead, hsegment⟩
    · obtain ⟨pkg, hpkg, -⟩ := h'.listed_iff.mp ⟨(hscope segment).mpr rfl, hne⟩
      exact ⟨_, h'.eventEntry_mem_values hpkg⟩
    · obtain ⟨raws, hraws, hkeys⟩ :=
        h'.collectedFrom.raws hash ((hraw hash).mpr ⟨hlevel, rfl⟩) decoded hdecoded
      obtain ⟨pkg, hpkg, -⟩ := (exists_rawPackage_iff h'.length_name hraws).mpr
        ⟨(hscope segment).mpr rfl, e, he, hhead, hsegment⟩
      obtain ⟨entry, hentry⟩ := InsertionMap.mem_keys_iff.mp (hkeys pkg hpkg)
      exact ⟨entry, InsertionMap.mem_values_iff.mpr ⟨_, hentry⟩⟩

/-- A listing and single-transaction verification agree, when contract states depend on the block's
hash only. -/
theorem listing_agrees {env : VerifyEnv} {source : VerifySource} {request : VerifyRequest}
    {hash : JsString} {transaction : SourceTransaction} {whole : SourceEvents} {name : Bytes}
    {level : ℕ} {listing single : VerifyReport}
    (hstates : StatesByHash source request.target.contract)
    (hrequest : checkRequest request.listing = .ok (name, level))
    (hwhole : source.events request.target.contract none = .ok whole)
    (hrestricts : ∀ one, source.events request.target.contract (some hash) = .ok one →
      whole.RestrictsTo one hash)
    (hknown : source.transaction hash = .ok (some transaction))
    (hnamed : ∃ segment, packageEvents request name whole.events hash segment ≠ [])
    (hlisting : verifyPackages env source request.listing = .ok listing)
    (hsingle : verifyPackages env source (request.single hash none) = .ok single) :
    (listing.packages.filter fun p => p.transactionHash = hash) = single.packages ∧
      ∀ (segment : ℕ) report,
        verifyPackages env source (request.single hash (some (.int segment))) = .ok report →
        report.packages = (single.packages.filter fun p => p.segment = segment) ∧
          (ShownAt env source request name level whole.events hash segment →
            ∃ p, report.packages = [p]) ∧
          (¬ShownAt env source request name level whole.events hash segment →
            report.packages = []) := by
  obtain ⟨name', level', fetched, read, collected, st, h⟩ := exists_loop rfl hlisting
  cases hrequest.symm.trans h.accepted
  cases hwhole.symm.trans h.fetches
  have hnamed' : ∃ pkg ∈ scopedPackages request.listing read, pkg.transactionHash = hash := by
    obtain ⟨segment, hsegment⟩ := hnamed
    obtain ⟨pkg, hpkg, hsame, -⟩ := (exists_package_iff h.length_name h.reads).mpr hsegment
    exact ⟨pkg, List.mem_filter.mpr ⟨hpkg, rfl⟩, hsame⟩
  -- a run on the transaction or on one intent of it, beside the listing
  have hruns :
      ∀ segment report, verifyPackages env source (request.single hash segment) = .ok report →
      (∃ one read' collected' st', whole.RestrictsTo one hash ∧
        VerificationLoop env source (request.single hash segment) report name level one read'
          collected' st') ∧
      report.packages = listing.packages.filter fun p =>
        decide (p.transactionHash = hash) && segment.all fun s => JsNumber.int p.segment = s := by
    intro segment report hreport
    have hknown' : isUnknown source (request.single hash segment) = .ok false := by
      unfold isUnknown VerifyRequest.single
      simp only [hknown]
      rfl
    obtain ⟨name', level', one, read', collected', st', h'⟩ := exists_loop hknown' hreport
    obtain ⟨hlevel, hname⟩ := checkRequest_asks hrequest
    obtain ⟨hlevel', hname'⟩ := checkRequest_asks h'.accepted
    cases hlevel.symm.trans hlevel'
    cases hname.symm.trans hname'
    have hone := hrestricts one h'.fetches
    exact ⟨⟨one, read', collected', st', hone, h'⟩, packages_single h h' hone hnamed' hstates⟩
  have hfirst : (listing.packages.filter fun p => p.transactionHash = hash) = single.packages := by
    rw [(hruns none single hsingle).2]
    simp
  refine ⟨hfirst, fun segment report hreport => ?_⟩
  obtain ⟨⟨one, read', collected', st', hone, h'⟩, hpackages⟩ := hruns _ report hreport
  have hat : report.packages = single.packages.filter fun p => p.segment = segment := by
    rw [hpackages, ← hfirst, List.filter_filter]
    refine List.filter_congr fun p _ => ?_
    simp [Bool.and_comm]
  have hshown := packages_ne_nil_iff h' hone hstates
  refine ⟨hat, fun hshows => ?_, fun hnone => ?_⟩
  · obtain ⟨p, rest, hcons⟩ := List.exists_cons_of_ne_nil (hshown.mpr hshows)
    have hsegments : ∀ q ∈ report.packages, q.segment = segment := by
      intro q hq
      rw [hat, List.mem_filter, decide_eq_true_eq] at hq
      exact hq.2
    have hsorted := pairwise_single h h' hone hnamed' hstates
    rw [hcons] at hsorted hsegments
    refine ⟨p, hcons.trans ?_⟩
    have hrest : rest = [] := by
      refine List.eq_nil_iff_forall_not_mem.mpr fun q hq => ?_
      have hlt := List.rel_of_pairwise_cons hsorted hq
      rw [hsegments p List.mem_cons_self, hsegments q (List.mem_cons_of_mem _ hq)] at hlt
      exact lt_irrefl _ hlt
    rw [hrest]
  · by_contra hne
    exact hnone (hshown.mp hne)

/-- The events of two transactions with one emission each, of the whole contract. -/
def twoEmissions (contract : JsString) : SourceEvents where
  events := [js "aa", js "cc"].flatMap fun hash =>
    (partEventsFromTransaction (emittedTransaction none) ⟨js "net", contract, hash⟩).events
  issues := .empty
  blocks := .empty
  count := .int 2

/-- A source with two transactions in blocks of one hash and two heights. -/
def twoHeightsSource (stateOf : Option BlockRef → Option Bytes) : VerifySource where
  description := js "two transactions"
  events contract
    | none => .ok (twoEmissions contract)
    | some hash => .ok { twoEmissions contract with
        events := (twoEmissions contract).events.filter fun e => e.transactionHash = hash }
  transaction hash := .ok <|
    if hash = js "aa" then some ⟨hash, [], js "SUCCESS", some ⟨js "bb", 7⟩⟩
    else if hash = js "cc" then some ⟨hash, [], js "SUCCESS", some ⟨js "bb", 8⟩⟩
    else none
  contractState _ block := .ok (stateOf block)
  nodeHolds := none

/-- What the source answers for a transaction is what it answers for the contract, restricted. -/
lemma twoHeightsSource_restricts (stateOf : Option BlockRef → Option Bytes)
    (contract hash : JsString)
    (one : SourceEvents) (h : (twoHeightsSource stateOf).events contract (some hash) = .ok one) :
    (twoEmissions contract).RestrictsTo one hash := by
  cases h
  refine ⟨rfl, fun other => ?_, fun other => ?_⟩ <;> simp [twoEmissions]

/-- A run whose report passes a test. -/
lemma exists_tested_report (env : VerifyEnv) (source : VerifySource) (request : VerifyRequest)
    (test : VerifyReport → Bool)
    (h : (verifyPackages env source request).toOption.any test = true) :
    ∃ report, verifyPackages env source request = .ok report ∧ test report = true := by
  obtain ⟨report, hrun, htest⟩ := (Option.any_eq_true _ _).mp h
  exact ⟨report, toOption_eq_some_iff.mp hrun, htest⟩

/-- A listing agrees with the run on one of two transactions. -/
theorem listing_agrees_two :
    let env := emittedEnv none (js "no-proof")
    let source := twoHeightsSource fun _ => some []
    ∃ listing single, verifyPackages env source (emittedRequest 3).listing = .ok listing ∧
      verifyPackages env source ((emittedRequest 3).single (js "cc") none) = .ok single ∧
      (listing.packages.filter fun p => p.transactionHash = js "cc") = single.packages ∧
      single.packages.map PackageReport.level = [3] := by
  intro env source
  obtain ⟨listing, hlisting, -⟩ := exists_tested_report env source (emittedRequest 3).listing
    (fun _ => true) (by decide +kernel)
  obtain ⟨single, hsingle, hlevels⟩ := exists_tested_report env source
    ((emittedRequest 3).single (js "cc") none)
    (fun report => report.packages.map PackageReport.level = [3]) (by decide +kernel)
  have hrequest : checkRequest (emittedRequest 3).listing = .ok (List.replicate 32 7, 3) := by rfl
  have hagree := listing_agrees (fun _ _ _ => rfl) hrequest rfl
    (twoHeightsSource_restricts _ _ (js "cc")) rfl ⟨5, by decide +kernel⟩ hlisting hsingle
  exact ⟨listing, single, hlisting, hsingle, hagree.1, of_decide_eq_true hlevels⟩

/-- A source that knows the contract's state at the lower of two blocks of one hash: the listing
remembers it for the higher one, the run on its transaction does not. -/
theorem listing_differs_two_heights :
    let env := emittedEnv none (js "no-proof")
    let source := twoHeightsSource fun block => if block = some ⟨js "bb", 7⟩ then some [] else none
    (∀ hash one, source.events (emittedRequest 3).target.contract (some hash) = .ok one →
      (twoEmissions (emittedRequest 3).target.contract).RestrictsTo one hash) ∧
    packageEvents (emittedRequest 3) (List.replicate 32 7)
      (twoEmissions (emittedRequest 3).target.contract).events (js "cc") 5 ≠ [] ∧
    ∃ transaction listing single, source.transaction (js "cc") = .ok (some transaction) ∧
      verifyPackages env source (emittedRequest 3).listing = .ok listing ∧
      verifyPackages env source ((emittedRequest 3).single (js "cc") none) = .ok single ∧
      (listing.packages.filter fun p => p.transactionHash = js "cc") ≠ single.packages := by
  intro env source
  obtain ⟨listing, hlisting, hthree⟩ := exists_tested_report env source (emittedRequest 3).listing
    (fun report => (report.packages.filter fun p => p.transactionHash = js "cc").map
      PackageReport.level = [3]) (by decide +kernel)
  obtain ⟨single, hsingle, htwo⟩ := exists_tested_report env source
    ((emittedRequest 3).single (js "cc") none)
    (fun report => report.packages.map PackageReport.level = [2]) (by decide +kernel)
  refine ⟨fun hash one => twoHeightsSource_restricts _ _ hash one, by decide +kernel, _, listing,
    single, rfl, hlisting, hsingle, fun hsame => ?_⟩
  have hthree' := of_decide_eq_true hthree
  rw [hsame, of_decide_eq_true htwo] at hthree'
  cases hthree'

end MultiPartEvent
