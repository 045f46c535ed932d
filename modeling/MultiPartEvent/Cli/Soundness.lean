import MultiPartEvent.Cli.Reports
import MultiPartEvent.Reader.Sources

/-!
# Exit status 0 is sound

`verifyPackages_sound` unfolds a report with exit status 0 into what it stands for: every package
of the report is the merge of the source's events of its intent, and from Level 2 on the source
has its transaction, included and decoding, with nothing else named N in its intents.  The
events are those of `packageEvents`, in terms of the source alone.
-/

namespace MultiPartEvent

/-! ### The packages of the events -/

/-- The events of the target in one intent of a transaction. -/
def packageEvents (request : VerifyRequest) (name : Bytes) (events : List PartEvent)
    (hash : JsString) (segment : ℕ) : List PartEvent :=
  events.filter fun e => e.network = request.target.network ∧
    e.contract = request.target.contract ∧ e.head = name ∧ e.transactionHash = hash ∧
    e.segment = .int segment

/-- A list of parts is the merge of some events: one part for each distinct position, ascending. -/
structure MergedFrom (events : List PartEvent) (positions : List ℕ) (parts : List Bytes) :
    Prop where
  nonempty : events ≠ []
  /-- No value is over-long. -/
  fits : ∀ e ∈ events, e.value.length ≤ 288
  /-- No position was delivered with two contents. -/
  agree : ∀ e ∈ events, ∀ e' ∈ events, e.position = e'.position → e.full = e'.full
  ascending : positions.Pairwise (· < ·)
  covers : ∀ n : ℕ, n ∈ positions ↔ ∃ e ∈ events, e.position = .int n
  /-- The part of a position is the payload of its events. -/
  parts : List.Forall₂ (fun (n : ℕ) part => ∀ e ∈ events, e.position = .int n →
    part = e.full.drop 32) positions parts

section EventPackages

variable {request : VerifyRequest} {name : Bytes} {events : List PartEvent} {read : ReadOutput}

/-- The events of a package are the parts of its scope. -/
lemma mem_packageEvents (hname : name.length = 32) {hash : JsString} {segment : ℕ}
    {e : PartEvent} : e ∈ packageEvents request name events hash segment ↔
      e ∈ events ∧ (readOptions request name).IsPart e
        ⟨request.target.network, request.target.contract, name, hash, segment⟩ := by
  unfold packageEvents
  rw [List.mem_filter, decide_eq_true_eq]
  refine and_congr_right fun _ => ?_
  constructor
  · intro h
    obtain ⟨hnetwork, hcontract, hhead, hhash, hsegment⟩ := h
    refine ⟨hnetwork, hcontract, hhead, hhash, hsegment, ⟨_, List.mem_singleton_self _, ?_⟩, ?_⟩
    · rw [hhead]
      exact ⟨hcontract.symm, eventName_bytes hname⟩
    · intro network hconfigured
      rw [hnetwork]
      exact Option.some.inj hconfigured
  · intro h
    exact ⟨h.network, h.contract, h.name, h.transactionHash, h.segment⟩

/-- A part is of the target. -/
lemma scope_of_isPart (hname : name.length = 32) {e : PartEvent} {s : Scope}
    (h : (readOptions request name).IsPart e s) :
    s = ⟨request.target.network, request.target.contract, name, s.transactionHash, s.segment⟩ := by
  obtain ⟨optIn, hoptIn, hcontract, hhead⟩ := h.optedIn
  rw [readOptions, List.mem_singleton] at hoptIn
  subst hoptIn
  rw [eventName_bytes hname, Except.ok.injEq] at hhead
  have hnetwork := h.ofNetwork request.target.network rfl
  rw [Scope.mk.injEq]
  exact ⟨h.network.symm.trans hnetwork, h.contract.symm.trans hcontract.symm,
    h.name.symm.trans hhead.symm, rfl, rfl⟩

/-- The reader's answer obeys the multi-part rule. -/
lemma obeysRule_of_readPackages {options : ReadOptions}
    (hread : readPackages events options = .ok read) : options.ObeysRule events read := by
  obtain ⟨_, _, names, hvalid, -, hwell, -, rfl⟩ := readPackages_eq_ok_iff.mp hread
  exact obeysRule_readOutput hvalid.names hwell

section Read

variable (hname : name.length = 32)
  (hread : readPackages events (readOptions request name) = .ok read)
include hname hread

/-- There is a package exactly for every intent with an event of the target. -/
theorem exists_package_iff {hash : JsString} {segment : ℕ} :
    (∃ pkg ∈ read.packages, pkg.transactionHash = hash ∧ pkg.segment = segment) ↔
      packageEvents request name events hash segment ≠ [] := by
  have hset := (obeysRule_of_readPackages hread).packages
  constructor
  · intro h
    obtain ⟨pkg, hpkg, rfl, rfl⟩ := h
    have hmem : pkg.scope ∈ (readOptions request name).packageSet events := by
      rw [← hset]
      exact ⟨pkg, hpkg, rfl⟩
    obtain ⟨e, he, hpart⟩ := hmem
    have hscope := scope_of_isPart hname hpart
    rw [hscope] at hpart
    exact List.ne_nil_of_mem ((mem_packageEvents hname).mpr ⟨he, hpart⟩)
  · intro h
    obtain ⟨e, he⟩ := List.exists_mem_of_ne_nil _ h
    obtain ⟨hevent, hpart⟩ := (mem_packageEvents hname).mp he
    have hmem : (⟨request.target.network, request.target.contract, name, hash, segment⟩ : Scope) ∈
        (readOptions request name).packageSet events := ⟨e, hevent, hpart⟩
    rw [← hset] at hmem
    obtain ⟨pkg, hpkg, hscope⟩ := hmem
    exact ⟨pkg, hpkg, congrArg Scope.transactionHash hscope, congrArg Scope.segment hscope⟩

/-- The scope of a package is its intent of the target. -/
lemma scope_of_mem_packages {pkg : Package} (hpkg : pkg ∈ read.packages) :
    pkg.scope = ⟨request.target.network, request.target.contract, name, pkg.transactionHash,
      pkg.segment⟩ := by
  have hmem : pkg.scope ∈ (readOptions request name).packageSet events := by
    rw [← (obeysRule_of_readPackages hread).packages]
    exact ⟨pkg, hpkg, rfl⟩
  obtain ⟨e, -, hpart⟩ := hmem
  exact scope_of_isPart hname hpart

/-- No two packages have one key. -/
lemma nodup_entryKey : (read.packages.map Package.entryKey).Nodup := by
  have hsorted := (obeysRule_of_readPackages hread).sorted
  rw [List.Nodup, List.pairwise_map]
  refine hsorted.imp_of_mem fun {p q} hp hq hlt heq => ?_
  obtain ⟨hhash, hsegment⟩ := entryKey_inj.mp heq
  have hscope : p.scope = q.scope := by
    rw [scope_of_mem_packages hname hread hp, scope_of_mem_packages hname hread hq, hhash, hsegment]
  rw [hscope] at hlt
  exact lt_irrefl _ hlt

/-- A package is accepted exactly when its events fit and agree. -/
theorem accepted_iff {pkg : Package} (hpkg : pkg ∈ read.packages) :
    pkg.status = .accepted ↔
      (∀ e ∈ packageEvents request name events pkg.transactionHash pkg.segment,
        e.value.length ≤ 288) ∧
      ∀ e ∈ packageEvents request name events pkg.transactionHash pkg.segment,
        ∀ e' ∈ packageEvents request name events pkg.transactionHash pkg.segment,
          e.position = e'.position → e.full = e'.full := by
  have hrejected := (obeysRule_of_readPackages hread).rejected pkg hpkg
  have hstatus : pkg.status = .accepted ↔ ¬pkg.status = .rejected := by
    cases pkg.status <;> simp
  rw [hstatus, hrejected, scope_of_mem_packages hname hread hpkg]
  simp only [mem_packageEvents hname, not_or, not_exists, not_and, not_lt, and_imp, ne_eq, not_not]
  refine and_congr Iff.rfl ?_
  constructor
  · intro h e he hpart e' he' hpart' hposition
    exact h e he e' he' hpart hpart' hposition
  · intro h e he e' he' hpart hpart' hposition
    exact h e he hpart e' he' hpart' hposition

/-- An accepted package is the merge of its events. -/
theorem mergedFrom_of_accepted {pkg : Package} (hpkg : pkg ∈ read.packages)
    (haccepted : pkg.status = .accepted) :
    MergedFrom (packageEvents request name events pkg.transactionHash pkg.segment) pkg.positions
        pkg.parts ∧ pkg.payload = some pkg.parts.flatten := by
  have hrule := obeysRule_of_readPackages hread
  have hscope := scope_of_mem_packages hname hread hpkg
  obtain ⟨hfits, hagree⟩ := (accepted_iff hname hread hpkg).mp haccepted
  obtain ⟨hascending, hpositions⟩ := hrule.positions pkg hpkg haccepted
  obtain ⟨hparts, hpayload⟩ := hrule.payload pkg hpkg haccepted
  have hmem : ∀ e, e ∈ packageEvents request name events pkg.transactionHash pkg.segment ↔
      e ∈ events ∧ (readOptions request name).IsPart e pkg.scope := by
    intro e
    rw [hscope]
    exact mem_packageEvents hname
  refine ⟨⟨?_, hfits, hagree, hascending, ?_, ?_⟩, hpayload⟩
  · exact (exists_package_iff hname hread).mp ⟨pkg, hpkg, rfl, rfl⟩
  · intro n
    rw [hpositions]
    simp only [hmem, and_assoc]
  · refine List.Forall₂.imp ?_ hparts
    intro n part hpart e he hposition
    exact hpart e ((hmem e).mp he).1 ((hmem e).mp he).2 hposition

end Read

/-! ### The packages of the raw bytes -/

/-- The intent is the requested one, when one is requested. -/
def InScope (request : VerifyRequest) (segment : JsNumber) : Prop :=
  ∀ requested, request.segment = some requested → segment = requested

lemma inScope_eq_true_iff {pkg : Package} :
    inScope request pkg = true ↔ InScope request (.int pkg.segment) := by
  unfold inScope InScope
  cases request.segment with
  | none => simp
  | some requested => simp

/-- The part events of a transaction, as verification extracts them. -/
def rawEvents (request : VerifyRequest) (hash : JsString) (decoded : Transaction) :
    List PartEvent :=
  (partEventsFromTransaction decoded ⟨request.target.network, request.target.contract, hash⟩).events

/-- The packages of the raw bytes are the requested intents that log the name. -/
theorem exists_rawPackage_iff (hname : name.length = 32) {hash : JsString} {decoded : Transaction}
    {raws : List Package} (hraws : rawPackages request name hash decoded = .ok raws)
    {segment : ℕ} :
    (∃ pkg ∈ raws, pkg.segment = segment) ↔ InScope request (.int segment) ∧
      ∃ e ∈ rawEvents request hash decoded, e.head = name ∧ e.segment = .int segment := by
  unfold rawPackages at hraws
  obtain ⟨read, hread, hraws⟩ := bind_eq_ok_iff.mp hraws
  rw [pure_eq_ok_iff] at hraws
  subst hraws
  have hfrom : ∀ e ∈ rawEvents request hash decoded, e.network = request.target.network ∧
      e.contract = request.target.contract ∧ e.transactionHash = hash := by
    intro e he
    obtain ⟨_, _, -, rfl⟩ := exists_of_mem_events he
    exact ⟨rfl, rfl, rfl⟩
  constructor
  · intro h
    obtain ⟨pkg, hpkg, rfl⟩ := h
    obtain ⟨hpkg, hscope⟩ := List.mem_filter.mp hpkg
    have hne := (exists_package_iff hname hread).mp ⟨pkg, hpkg, rfl, rfl⟩
    obtain ⟨e, he⟩ := List.exists_mem_of_ne_nil _ hne
    unfold packageEvents at he
    rw [List.mem_filter, decide_eq_true_eq] at he
    exact ⟨inScope_eq_true_iff.mp hscope, e, he.1, he.2.2.2.1, he.2.2.2.2.2⟩
  · intro h
    obtain ⟨hscope, e, he, hhead, hsegment⟩ := h
    obtain ⟨hnetwork, hcontract, hhash⟩ := hfrom e he
    have hmem : e ∈ packageEvents request name (rawEvents request hash decoded) hash segment := by
      unfold packageEvents
      rw [List.mem_filter, decide_eq_true_eq]
      exact ⟨he, hnetwork, hcontract, hhead, hhash, hsegment⟩
    obtain ⟨pkg, hpkg, -, rfl⟩ := (exists_package_iff hname hread).mpr (List.ne_nil_of_mem hmem)
    exact ⟨pkg, List.mem_filter.mpr ⟨hpkg, inScope_eq_true_iff.mpr hscope⟩, rfl⟩

end EventPackages

/-! ### What a run reports -/

section Run

variable {env : VerifyEnv} {source : VerifySource} {request : VerifyRequest}
  {report : VerifyReport} {name : Bytes} {level : ℕ} {fetched : SourceEvents} {read : ReadOutput}
  {collected : Collected} {st : ReportState}

namespace VerificationReads

variable (h : VerificationReads env source request name level fetched read collected)
include h

lemma length_name : name.length = 32 := length_eventName (checkRequest_eq_ok h.accepted).2.2.1

/-- What the run has collected. -/
lemma collectedFrom : CollectedFrom env source request name (scopedPackages request read)
    (rawHashes request level (scopedPackages request read)) collected := by
  have hnodup : ((scopedPackages request read).map Package.entryKey).Nodup :=
    (nodup_entryKey h.length_name h.reads).sublist (List.filter_sublist.map _)
  have hcollects := h.collects
  unfold collectEntries at hcollects
  unfold rawHashes
  split_ifs with hlevel
  · rw [if_pos hlevel] at hcollects
    exact collectedFrom_foldlM hnodup hcollects
  · rw [if_neg hlevel] at hcollects
    cases hcollects
    exact collectedFrom_nil hnodup

end VerificationReads

variable (h : VerificationRun env source request report name level fetched read collected st)
include h

namespace VerificationRun

/-- What the run has reported. -/
lemma reportsOf : ReportsOf env source request level fetched collected.facts
    collected.entries.values st :=
  reportsOf_foldlM
    (fun hash fact hfact => transactionFacts_records ((h.collectedFrom.facts hash fact).mp hfact).2)
    h.reports

/-- Every report is that of an entry. -/
lemma exists_entry {p : PackageReport} (hp : p ∈ report.packages) :
    ∃ entry ∈ collected.entries.values,
      Reported env source request level fetched collected.facts entry p := by
  rw [h.returns.2.2.1, mem_sortBy] at hp
  exact exists_left_of_forall₂ h.reportsOf.reports hp

/-- Every entry has a report. -/
lemma exists_report {entry : Entry} (hentry : entry ∈ collected.entries.values) :
    ∃ p ∈ report.packages, Reported env source request level fetched collected.facts entry p := by
  obtain ⟨p, hp, hreported⟩ := exists_right_of_forall₂ h.reportsOf.reports hentry
  rw [h.returns.2.2.1]
  exact ⟨p, mem_sortBy.mpr hp, hreported⟩

/-- A run that found packages reports some. -/
lemma packages_ne_nil : report.packages ≠ [] := by
  obtain ⟨entry, hentry⟩ := List.exists_mem_of_ne_nil _ h.nonempty
  obtain ⟨p, hp, -⟩ := h.exists_report hentry
  exact List.ne_nil_of_mem hp

/-- A package that reached Level 1 is an accepted package of the events. -/
lemma exists_package {p : PackageReport} (hp : p ∈ report.packages) (hlevel : 1 ≤ p.level) :
    ∃ pkg ∈ scopedPackages request read, pkg.transactionHash = p.transactionHash ∧
      pkg.segment = p.segment ∧ (eventEntry pkg).Shows fetched pkg ∧
      Reported env source request level fetched collected.facts (eventEntry pkg) p := by
  obtain ⟨entry, hentry, hreported⟩ := h.exists_entry hp
  obtain ⟨-, pkg, hshows⟩ := hreported.one.mp hlevel
  rcases h.collectedFrom.origin entry hentry with ⟨other, hother, rfl⟩ |
      ⟨_, -, _, _, -, -, _, -, rfl⟩
  · obtain rfl : other = pkg := Option.some.inj hshows.fromEvents
    exact ⟨other, hother, hreported.transactionHash.symm, hreported.segment.symm, hshows, hreported⟩
  · cases hshows.fromEvents

/-- A package that reached Level 2 is in an included transaction whose bytes were read. -/
lemma exists_placed {p : PackageReport} (hp : p ∈ report.packages) (hlevel : 2 ≤ p.level) :
    ∃ pkg ∈ scopedPackages request read, pkg.transactionHash = p.transactionHash ∧
      pkg.segment = p.segment ∧ (eventEntry pkg).Shows fetched pkg ∧
      p.transactionHash ∈ rawHashes request level (scopedPackages request read) ∧
      PlacedBy env source request p.transactionHash pkg := by
  obtain ⟨pkg, hpkg, hhash, hsegment, hshows, hreported⟩ := h.exists_package hp (by omega)
  obtain ⟨-, hrecorded, other, hother, hplaced⟩ := hreported.two.mp hlevel
  obtain rfl : pkg = other := Option.some.inj hother.fromEvents
  obtain ⟨fact, hfact⟩ := Option.ne_none_iff_exists'.mp hrecorded
  rw [← hreported.transactionHash] at hfact hplaced
  exact ⟨pkg, hpkg, hhash, hsegment, hshows, ((h.collectedFrom.facts _ _).mp hfact).1, hplaced⟩

/-- A requested intent that logs the name in bytes that were read has a report. -/
lemma exists_report_of_rawEvent {hash : JsString}
    (hhash : hash ∈ rawHashes request level (scopedPackages request read)) {decoded : Transaction}
    (hraw : RawOf env source hash decoded) {e : PartEvent} (he : e ∈ rawEvents request hash decoded)
    (hhead : e.head = name) (hscope : InScope request e.segment) :
    ∃ p ∈ report.packages, p.transactionHash = hash ∧ e.segment = .int p.segment := by
  obtain ⟨segment, item, -, rfl⟩ := exists_of_mem_events he
  obtain ⟨raws, hraws, hkeys⟩ := h.collectedFrom.raws hash hhash decoded hraw
  obtain ⟨pkg, hpkg, rfl⟩ := (exists_rawPackage_iff h.length_name hraws).mpr
    ⟨hscope, _, he, hhead, rfl⟩
  obtain ⟨entry, hentry⟩ := InsertionMap.mem_keys_iff.mp (hkeys pkg hpkg)
  obtain ⟨p, hp, hreported⟩ := h.exists_report (InsertionMap.mem_values_iff.mpr ⟨_, hentry⟩)
  obtain ⟨hsame, hsegment⟩ := entryKey_inj.mp (h.collectedFrom.keys _ entry hentry)
  refine ⟨p, hp, hreported.transactionHash.trans hsame.symm, ?_⟩
  rw [hreported.segment, ← hsegment]
  rfl

end VerificationRun

end Run

/-! ### Exit status 0 -/

/-- What exit status 0 at a level says about one package of the report. -/
structure PackageVerified (env : VerifyEnv) (source : VerifySource) (request : VerifyRequest)
    (report : VerifyReport) (name : Bytes) (level : ℕ) (fetched : SourceEvents)
    (p : PackageReport) (positions : List ℕ) (parts : List Bytes) : Prop where
  /-- The package is the merge of the source's events of its intent. -/
  merged : MergedFrom (packageEvents request name fetched.events p.transactionHash p.segment)
    positions parts
  payloadHex : p.payloadHex = some (bytesToHex parts.flatten)
  /-- The source reports no issue for its transaction. -/
  readable : (fetched.issues.get? p.transactionHash).getD [] = []
  /-- Its transaction is included, its placement there is clean, and every requested intent that
  logs the name there has a report too. -/
  placed : 2 ≤ level → ∃ transaction decoded,
    IncludedBy env source request p.transactionHash transaction decoded ∧
    checkPlacement decoded request.target.toPlacementTarget p.segment parts = .ok [] ∧
    ∀ e ∈ rawEvents request p.transactionHash decoded, e.head = name → InScope request e.segment →
      ∃ q ∈ report.packages, q.transactionHash = p.transactionHash ∧ e.segment = .int q.segment
  /-- The state at a block of the same hash stores the expected verifier key. -/
  code : 3 ≤ level → ∃ expected, request.expectedVerifierKey = some expected ∧
    ∃ other ∈ report.packages, blockKey other.block = blockKey p.block ∧ ∃ state,
      source.contractState request.target.contract other.block = .ok state ∧
        StoresKey env request expected state

/-- **Exit status 0 is sound.**  A report with exit status 0 for a valid request of a level has
packages, and each of them is verified to that level by the source's answers. -/
theorem verifyPackages_sound {env : VerifyEnv} {source : VerifySource} {request : VerifyRequest}
    {report : VerifyReport} {name : Bytes} {level : ℕ}
    (hrequest : checkRequest request = .ok (name, level))
    (hrun : verifyPackages env source request = .ok report) (hexit : verifyExitStatus report = 0) :
    ∃ fetched, source.events request.target.contract request.transactionHash = .ok fetched ∧
      report.packages ≠ [] ∧ ∀ p ∈ report.packages, ∃ positions parts,
        PackageVerified env source request report name level fetched p positions parts := by
  rcases verifyPackages_cases hrun with ⟨hnotFound, -, -⟩ |
      ⟨name', level', fetched, read, collected, st, h⟩
  · unfold verifyExitStatus at hexit
    rw [if_pos hnotFound] at hexit
    cases hexit
  obtain ⟨rfl, rfl⟩ : name' = name ∧ level' = level := by
    have hsame := h.accepted.symm.trans hrequest
    simpa using hsame
  have hreached := h.exitStatus_eq_zero_iff.mp hexit
  obtain ⟨⟨hone, -⟩, -, -, hexpected⟩ := checkRequest_eq_ok hrequest
  refine ⟨fetched, h.fetches, h.packages_ne_nil, fun p hp => ?_⟩
  have hlevel := hreached p hp
  obtain ⟨pkg, hpkg, hhash, hsegment, hshows, hreported⟩ := h.exists_package hp (by omega)
  obtain ⟨hread, hscope⟩ := List.mem_filter.mp hpkg
  obtain ⟨hmerged, hpayload⟩ := mergedFrom_of_accepted h.length_name h.reads hread hshows.accepted
  have hshown : shownPayload (eventEntry pkg) = some pkg.parts.flatten := by
    unfold shownPayload eventEntry
    rw [Option.bind_some, if_pos hshows.accepted]
    exact hpayload
  refine ⟨pkg.positions, pkg.parts, ?_, ?_, ?_, ?_, ?_⟩
  · rw [← hhash, ← hsegment]
    exact hmerged
  · rw [hreported.payloadHex, hshown, Option.map_some]
  · rw [hreported.transactionHash]
    exact hshows.readable
  · intro htwo
    obtain ⟨other, hother, hhash', hsegment', -, hmem, hplaced⟩ := h.exists_placed hp (by omega)
    obtain rfl : pkg = other := by
      apply List.inj_on_of_nodup_map (nodup_entryKey h.length_name h.reads) hread
        (List.mem_filter.mp hother).1
      exact entryKey_inj.mpr ⟨hhash.trans hhash'.symm, hsegment.trans hsegment'.symm⟩
    obtain ⟨transaction, decoded, hincluded, hclean⟩ := hplaced
    rw [hsegment] at hclean
    refine ⟨transaction, decoded, hincluded, hclean, fun e he hhead hscope => ?_⟩
    exact h.exists_report_of_rawEvent hmem ⟨transaction, hincluded.found, hincluded.decodes⟩ he
      hhead hscope
  · intro hthree
    obtain ⟨expected, hexpected⟩ := Option.ne_none_iff_exists'.mp (hexpected hthree)
    have hmem : p ∈ st.reports := by
      have hp' := hp
      rwa [h.returns.2.2.1, mem_sortBy] at hp'
    obtain ⟨other, hother, state, -, hkey, hstate, hstores⟩ :=
      h.reportsOf.keys expected hexpected hthree p hmem (by omega)
    refine ⟨expected, hexpected, other, ?_, hkey, state, hstate, hstores.mp (by omega)⟩
    rw [h.returns.2.2.1, mem_sortBy]
    exact hother

/-- A transaction with one emission of one part, with or without a hash of its own. -/
def emittedTransaction (ownHash : Option JsString) : Transaction where
  intents := InsertionMap.empty.set 5 (emissionIntent (List.replicate 64 (hexUnit 10))
    (js "emitPart") [List.replicate 32 7 ++ List.replicate 256 1])
  fallibleOffer := .empty
  ownHash := ownHash
  identifiers := []
  serialize := []

/-- A ledger module that reads the transaction in one form, and a state that stores one key. -/
def emittedEnv (ownHash : Option JsString) (proof : JsString) : VerifyEnv where
  ledger :=
    { deserialize := fun markers _ =>
        if markers.proof = proof then .ok (emittedTransaction ownHash)
        else .error (.error (js "another form"))
      deserializeEvent := fun _ => .error (.error (js "no event"))
      deserializeState := fun _ => .ok ⟨fun _ => some ⟨some [1, 2, 3]⟩⟩ }
  sha256Hex := bytesToHex

/-- The saved bytes of the transaction, with the hash the chain reported. -/
def emittedSaved : SavedData where
  network := js "net"
  raw := []
  status := js "SUCCESS"
  transactionHash := some (js "aa")
  contractState := some []
  block := some ⟨js "bb", 7⟩

/-- A request to verify the transaction. -/
def emittedRequest (level : ℕ) : VerifyRequest where
  target :=
    { contract := List.replicate 64 (hexUnit 10), entryPoint := js "emitPart"
      name := .bytes (List.replicate 32 7), network := js "net" }
  level := .int level
  transactionHash := some (js "aa")
  segment := none
  expectedVerifierKey := some [1, 2, 3]
  crossCheckNode := none
  limits := none

/-- A run over saved bytes whose report passes a test. -/
lemma exists_saved_report (env : VerifyEnv) (saved : SavedData) (request : VerifyRequest)
    (test : VerifyReport → Bool)
    (h : ((savedSource env.ledger saved).bind fun source =>
      verifyPackages env source request).toOption.any test = true) :
    ∃ source report, savedSource env.ledger saved = .ok source ∧
      verifyPackages env source request = .ok report ∧ test report = true := by
  obtain ⟨report, hrun, htest⟩ := (Option.any_eq_true _ _).mp h
  obtain ⟨source, hsource, hreport⟩ := bind_eq_ok_iff.mp (toOption_eq_some_iff.mp hrun)
  exact ⟨source, report, hsource, hreport, htest⟩

/-- Saved bytes verify to Level 3. -/
theorem verifyPackages_sound_saved :
    let env := emittedEnv (some (js "aa")) (js "proof")
    ∃ source report, savedSource env.ledger emittedSaved = .ok source ∧
      verifyPackages env source (emittedRequest 3) = .ok report ∧ verifyExitStatus report = 0 ∧
      ∃ fetched, source.events (emittedRequest 3).target.contract (some (js "aa")) = .ok fetched ∧
        report.packages ≠ [] ∧ ∀ p ∈ report.packages, ∃ positions parts,
          PackageVerified env source (emittedRequest 3) report (List.replicate 32 7) 3 fetched p
            positions parts := by
  intro env
  obtain ⟨source, report, hsource, hreport, hexit⟩ := exists_saved_report env emittedSaved
    (emittedRequest 3) (fun report => verifyExitStatus report = 0) (by decide +kernel)
  have hexit' : verifyExitStatus report = 0 := of_decide_eq_true hexit
  have hrequest : checkRequest (emittedRequest 3) = .ok (List.replicate 32 7, 3) := by rfl
  exact ⟨source, report, hsource, hreport, hexit', verifyPackages_sound hrequest hreport hexit'⟩

/-! ### Raw bytes and the transaction hash -/

/-- **Level 2 never rests on bytes that hash to another transaction.**  A package reported at
Level 2 or higher has raw bytes that decode, in whichever form, to a transaction whose own hash,
when it has one, is the package's. -/
theorem levelTwo_ownHash {env : VerifyEnv} {source : VerifySource} {request : VerifyRequest}
    {report : VerifyReport} (hrun : verifyPackages env source request = .ok report)
    {p : PackageReport} (hp : p ∈ report.packages) (hlevel : 2 ≤ p.level) :
    ∃ transaction decoded, source.transaction p.transactionHash = .ok (some transaction) ∧
      deserializeTransaction env.ledger transaction.raw = .ok decoded ∧
      ∀ ownHash, transactionHashOf decoded = some ownHash → ownHash = p.transactionHash := by
  rcases verifyPackages_cases hrun with ⟨-, hnone, -⟩ | ⟨_, _, _, _, _, _, h⟩
  · rw [hnone] at hp
    cases hp
  · obtain ⟨_, -, -, -, -, -, transaction, decoded, hincluded, -⟩ := h.exists_placed hp hlevel
    exact ⟨transaction, decoded, hincluded.found, hincluded.decodes, hincluded.ownHash⟩

/-- Saved bytes with a hash of their own reach Level 2 and hash to the package's. -/
theorem levelTwo_ownHash_saved :
    let env := emittedEnv (some (js "aa")) (js "proof")
    ∃ source report, savedSource env.ledger emittedSaved = .ok source ∧
      verifyPackages env source (emittedRequest 2) = .ok report ∧ ∃ p ∈ report.packages,
        2 ≤ p.level ∧ ∃ transaction decoded,
          source.transaction p.transactionHash = .ok (some transaction) ∧
          deserializeTransaction env.ledger transaction.raw = .ok decoded ∧
          ∀ ownHash, transactionHashOf decoded = some ownHash → ownHash = p.transactionHash := by
  intro env
  obtain ⟨source, report, hsource, hreport, htest⟩ := exists_saved_report env emittedSaved
    (emittedRequest 2) (fun report => report.packages.any fun p => 2 ≤ p.level) (by decide +kernel)
  obtain ⟨p, hp, hlevel⟩ := List.any_eq_true.mp htest
  have hlevel' : 2 ≤ p.level := of_decide_eq_true hlevel
  exact ⟨source, report, hsource, hreport, p, hp, hlevel', levelTwo_ownHash hreport hp hlevel'⟩

/-- Bytes of a transaction without proofs carry no hash of their own, and reach Level 2 under the
hash that was reported for them. -/
theorem levelTwo_without_ownHash :
    let env := emittedEnv none (js "no-proof")
    ∃ source report, savedSource env.ledger emittedSaved = .ok source ∧
      verifyPackages env source (emittedRequest 2) = .ok report ∧ ∃ p ∈ report.packages,
        2 ≤ p.level ∧ ¬∃ transaction decoded ownHash,
          source.transaction p.transactionHash = .ok (some transaction) ∧
          deserializeTransaction env.ledger transaction.raw = .ok decoded ∧
          transactionHashOf decoded = some ownHash ∧ ownHash = p.transactionHash := by
  intro env
  obtain ⟨source, report, hsource, hreport, htest⟩ := exists_saved_report env emittedSaved
    (emittedRequest 2) (fun report => report.packages.any fun p => 2 ≤ p.level) (by decide +kernel)
  obtain ⟨p, hp, hlevel⟩ := List.any_eq_true.mp htest
  refine ⟨source, report, hsource, hreport, p, hp, of_decide_eq_true hlevel, ?_⟩
  intro h
  obtain ⟨transaction, decoded, ownHash, -, hdecodes, hown, -⟩ := h
  have hsame : deserializeTransaction env.ledger transaction.raw = .ok (emittedTransaction none) :=
    rfl
  rw [hsame, Except.ok.injEq] at hdecodes
  subst hdecodes
  cases hown

end MultiPartEvent
