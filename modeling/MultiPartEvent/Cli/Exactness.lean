import MultiPartEvent.Cli.IndexerSource

/-!
# What decides the exit status

For a source whose transactions have blocks and whose states are those of a block's hash, as the
indexer's are, the exit status is decided by the source's answers alone.  `OtherwiseVerified`
collects every check but the one of unreadable events, intent by intent; the exit status is 0
exactly when they pass and no issue is filed under the transaction of a package.
-/

namespace MultiPartEvent

/-! ### The checks of an intent -/

/-- The intent is in scope and has events of the target. -/
def Listed (request : VerifyRequest) (name : Bytes) (events : List PartEvent) (hash : JsString)
    (segment : ℕ) : Prop :=
  InScope request (.int segment) ∧ packageEvents request name events hash segment ≠ []

/-- Level 2 and 3 of an intent with these parts: the transaction is included, the placement is
clean, every intent that logs the name there has events, and the state at its block stores the
expected key. -/
structure PlacementVerified (env : VerifyEnv) (source : VerifySource) (request : VerifyRequest)
    (name : Bytes) (level : ℕ) (events : List PartEvent) (hash : JsString) (segment : ℕ)
    (parts : List Bytes) (transaction : SourceTransaction) (decoded : Transaction) : Prop where
  requested : ∀ requested, request.transactionHash = some requested → hash = requested
  included : IncludedBy env source request hash transaction decoded
  clean : checkPlacement decoded request.target.toPlacementTarget segment parts = .ok []
  complete : ∀ e ∈ rawEvents request hash decoded, e.head = name → ∀ s : ℕ, e.segment = .int s →
    InScope request (.int s) → packageEvents request name events hash s ≠ []
  code : 3 ≤ level → ∃ expected state, request.expectedVerifierKey = some expected ∧
    source.contractState request.target.contract transaction.block = .ok state ∧
      StoresKey env request expected state

/-- Every check of an intent but the one of unreadable events passes. -/
def IntentVerified (env : VerifyEnv) (source : VerifySource) (request : VerifyRequest)
    (name : Bytes) (level : ℕ) (events : List PartEvent) (hash : JsString) (segment : ℕ) : Prop :=
  ∃ positions parts, MergedFrom (packageEvents request name events hash segment) positions parts ∧
    (2 ≤ level → ∃ transaction decoded, PlacementVerified env source request name level events hash
      segment parts transaction decoded)

/-- A requested transaction is known to the source. -/
def Known (source : VerifySource) (request : VerifyRequest) : Prop :=
  ∀ hash, request.transactionHash = some hash →
    ∃ transaction, source.transaction hash = .ok (some transaction)

/-- There are packages, and every check of them but the one of unreadable events passes. -/
structure OtherwiseVerified (env : VerifyEnv) (source : VerifySource) (request : VerifyRequest)
    (name : Bytes) (level : ℕ) (events : List PartEvent) : Prop where
  known : Known source request
  found : ∃ hash segment, Listed request name events hash segment
  verified : ∀ hash segment, Listed request name events hash segment →
    IntentVerified env source request name level events hash segment

/-- The parts of an intent are determined by its events. -/
lemma MergedFrom.unique {events : List PartEvent} {positions positions' : List ℕ}
    {parts parts' : List Bytes} (h : MergedFrom events positions parts)
    (h' : MergedFrom events positions' parts') : parts = parts' := by
  obtain rfl : positions = positions' := by
    apply List.Pairwise.eq_of_mem_iff h.ascending h'.ascending
    intro n
    rw [h.covers, h'.covers]
  have hparts := h.parts
  have hparts' := h'.parts
  have hcovers : ∀ n ∈ positions, ∃ e ∈ events, e.position = .int n := fun n hn =>
    (h.covers n).mp hn
  clear h h'
  induction hparts generalizing parts' with
  | nil =>
    cases hparts'
    rfl
  | @cons n part positions parts hpart _ ih =>
    cases hparts' with
    | @cons _ part' _ parts' hpart' hrest' =>
      obtain ⟨e, he, hposition⟩ := hcovers n (by simp)
      have hsame : part = part' := (hpart e he hposition).trans (hpart' e he hposition).symm
      rw [hsame, ih hrest' fun m hm => hcovers m (List.mem_cons_of_mem _ hm)]

/-! ### Packages and intents -/

section Intents

variable {env : VerifyEnv} {source : VerifySource} {request : VerifyRequest} {name : Bytes}
  {level : ℕ} {fetched : SourceEvents} {read : ReadOutput} {collected : Collected}

/-- The transactions whose raw bytes are read: the requested one, else those of the packages. -/
lemma mem_rawHashes {packages : List Package} {hash : JsString} :
    hash ∈ rawHashes request level packages ↔ 2 ≤ level ∧
      (∀ requested, request.transactionHash = some requested → hash = requested) ∧
      (request.transactionHash = none → ∃ pkg ∈ packages, pkg.transactionHash = hash) := by
  unfold rawHashes factHashes
  split_ifs with hlevel
  · cases htransaction : request.transactionHash with
    | some requested => simp [hlevel]
    | none =>
      simp only [List.mem_eraseDups, List.mem_map]
      constructor
      · intro h
        obtain ⟨entry, hentry, rfl⟩ := h
        obtain ⟨key, hkey⟩ := InsertionMap.mem_values_iff.mp hentry
        obtain ⟨pkg, hpkg, -, rfl⟩ := get?_eventEntries hkey
        exact ⟨hlevel, by simp, fun _ => ⟨pkg, hpkg, rfl⟩⟩
      · intro h
        obtain ⟨pkg, hpkg, rfl⟩ := h.2.2 trivial
        have hkey : pkg.entryKey ∈ (eventEntries packages).keys := by
          rw [eventEntries_eq_collect, InsertionMap.mem_keys_collect]
          exact .inr ⟨pkg, hpkg, rfl⟩
        obtain ⟨entry, hentry⟩ := InsertionMap.mem_keys_iff.mp hkey
        obtain ⟨other, -, hsame, rfl⟩ := get?_eventEntries hentry
        exact ⟨_, InsertionMap.mem_values_iff.mpr ⟨_, hentry⟩, (entryKey_inj.mp hsame).1.symm⟩
  · simp [hlevel]

namespace VerificationReads

variable (h : VerificationReads env source request name level fetched read collected)
include h

/-- The packages in scope are those of the listed intents. -/
lemma listed_iff {hash : JsString} {segment : ℕ} :
    Listed request name fetched.events hash segment ↔ ∃ pkg ∈ scopedPackages request read,
      pkg.transactionHash = hash ∧ pkg.segment = segment := by
  unfold Listed scopedPackages
  rw [← exists_package_iff h.length_name h.reads]
  simp only [List.mem_filter, inScope_eq_true_iff]
  constructor
  · intro hlisted
    obtain ⟨hscope, pkg, hpkg, rfl, rfl⟩ := hlisted
    exact ⟨pkg, ⟨hpkg, hscope⟩, rfl, rfl⟩
  · intro hpkg
    obtain ⟨pkg, ⟨hpkg, hscope⟩, rfl, rfl⟩ := hpkg
    exact ⟨hscope, pkg, hpkg, rfl, rfl⟩

/-- A requested transaction is known to the source of a run that reads. -/
lemma known_source : Known source request := by
  intro hash hhash
  have hknown := h.known
  unfold isUnknown at hknown
  rw [hhash] at hknown
  obtain ⟨found, hfound, hknown⟩ := bind_eq_ok_iff.mp hknown
  rw [pure_eq_ok_iff] at hknown
  cases found with
  | none => cases hknown
  | some transaction => exact ⟨transaction, hfound⟩

/-- The entry of a package in scope. -/
lemma eventEntry_mem_values {pkg : Package} (hpkg : pkg ∈ scopedPackages request read) :
    eventEntry pkg ∈ collected.entries.values :=
  InsertionMap.mem_values_iff.mpr ⟨_, h.collectedFrom.events pkg hpkg⟩

end VerificationReads

end Intents

/-! ### The exit status -/

/-- Every transaction of the source has a block, and the state at a block depends on its hash
only. -/
structure AnswersByHash (source : VerifySource) : Prop where
  blocks : ∀ hash transaction, source.transaction hash = .ok (some transaction) →
    transaction.block ≠ none
  states : ∀ contract (block block' : BlockRef), block.hash = block'.hash →
    source.contractState contract (some block) = source.contractState contract (some block')

/-- Level 3 of every package is decided by the state at its transaction's block. -/
def CodeByState (env : VerifyEnv) (source : VerifySource) (request : VerifyRequest) (level : ℕ)
    (report : VerifyReport) : Prop :=
  ∀ p ∈ report.packages, 2 ≤ p.level → 3 ≤ level → ∀ transaction,
    source.transaction p.transactionHash = .ok (some transaction) →
      (3 ≤ p.level ↔ ∃ expected state, request.expectedVerifierKey = some expected ∧
        source.contractState request.target.contract transaction.block = .ok state ∧
          StoresKey env request expected state)

section ExitStatus

variable {env : VerifyEnv} {source : VerifySource} {request : VerifyRequest}
  {report : VerifyReport} {name : Bytes} {level : ℕ} {fetched : SourceEvents} {read : ReadOutput}
  {collected : Collected} {st : ReportState}

namespace VerificationRun

variable (h : VerificationRun env source request report name level fetched read collected st)
include h

/-- From Level 2 on, the block of a report is that of its transaction. -/
lemma block_eq {p : PackageReport} (hp : p ∈ report.packages) (hlevel : 2 ≤ p.level)
    {transaction : SourceTransaction}
    (hfound : source.transaction p.transactionHash = .ok (some transaction))
    (hblock : transaction.block ≠ none) : p.block = transaction.block := by
  obtain ⟨entry, hentry, hreported⟩ := h.exists_entry hp
  obtain ⟨-, hrecorded, -⟩ := hreported.two.mp hlevel
  obtain ⟨fact, hfact⟩ := Option.ne_none_iff_exists'.mp hrecorded
  have hrecords := transactionFacts_records ((h.collectedFrom.facts _ _).mp hfact).2
  rw [← hreported.transactionHash] at hrecords
  have hsome : fact.transaction = some transaction :=
    Except.ok.inj (hrecords.transaction.symm.trans hfound)
  obtain ⟨block, hblock⟩ := Option.ne_none_iff_exists'.mp hblock
  rw [hreported.block, hfact, entryBlock, Option.bind_some, hsome, Option.bind_some, hblock,
    Option.some_or]

/-- From Level 2 on, Level 3 is decided by the state at the transaction's block. -/
lemma three_le_iff (hsource : AnswersByHash source) {p : PackageReport} (hp : p ∈ report.packages)
    (hlevel : 2 ≤ p.level) (hthree : 3 ≤ level) {transaction : SourceTransaction}
    (hfound : source.transaction p.transactionHash = .ok (some transaction)) :
    3 ≤ p.level ↔ ∃ expected state, request.expectedVerifierKey = some expected ∧
      source.contractState request.target.contract transaction.block = .ok state ∧
        StoresKey env request expected state := by
  obtain ⟨-, -, -, hexpected⟩ := checkRequest_eq_ok h.accepted
  obtain ⟨expected, hexpected⟩ := Option.ne_none_iff_exists'.mp (hexpected hthree)
  have hreports : ∀ {q}, q ∈ report.packages ↔ q ∈ st.reports := by
    intro q
    rw [h.returns.2.2.1, mem_sortBy]
  obtain ⟨other, hother, state, hotherTwo, hkey, hstate, hstores⟩ :=
    h.reportsOf.keys expected hexpected hthree p (hreports.mp hp) hlevel
  obtain ⟨_, -, -, -, -, -, otherTransaction, _, hincluded, -⟩ :=
    h.exists_placed (hreports.mpr hother) hotherTwo
  have hblock := hsource.blocks _ _ hfound
  have hotherBlock := hsource.blocks _ _ hincluded.found
  have hp' := h.block_eq hp hlevel hfound hblock
  have hother' := h.block_eq (hreports.mpr hother) hotherTwo hincluded.found hotherBlock
  obtain ⟨block, hblock⟩ := Option.ne_none_iff_exists'.mp hblock
  obtain ⟨otherBlock, hotherBlock⟩ := Option.ne_none_iff_exists'.mp hotherBlock
  rw [hp', hother', hblock, hotherBlock] at hkey
  have hsame : source.contractState request.target.contract transaction.block = .ok state := by
    rw [hblock, ← hstate, hother', hotherBlock]
    exact (hsource.states _ otherBlock block hkey).symm
  rw [hstores]
  constructor
  · intro hstores
    exact ⟨expected, state, hexpected, hsame, hstores⟩
  · intro hverified
    obtain ⟨expected', state', hexpected', hstate', hstores'⟩ := hverified
    rw [hexpected, Option.some.injEq] at hexpected'
    rw [hsame, Except.ok.injEq] at hstate'
    rw [hexpected', hstate']
    exact hstores'

/-- A source that answers by the hash of a block decides Level 3 by the state. -/
lemma codeByState (hsource : AnswersByHash source) : CodeByState env source request level report :=
  fun _ hp hlevel hthree _ hfound => h.three_le_iff hsource hp hlevel hthree hfound

/-- A source with one state for all blocks decides Level 3 by the state. -/
lemma codeByState_of_constant (state : Option Bytes)
    (hstates : ∀ contract block, source.contractState contract block = .ok state) :
    CodeByState env source request level report := by
  intro p hp hlevel hthree transaction _
  obtain ⟨-, -, -, hexpected⟩ := checkRequest_eq_ok h.accepted
  obtain ⟨expected, hexpected⟩ := Option.ne_none_iff_exists'.mp (hexpected hthree)
  have hmem : p ∈ st.reports := by rwa [h.returns.2.2.1, mem_sortBy] at hp
  obtain ⟨_, -, answered, -, -, hanswer, hstores⟩ :=
    h.reportsOf.keys expected hexpected hthree p hmem hlevel
  obtain rfl : state = answered := Except.ok.inj ((hstates _ _).symm.trans hanswer)
  rw [hstores]
  constructor
  · intro hstores
    exact ⟨expected, state, hexpected, hstates _ _, hstores⟩
  · intro hverified
    obtain ⟨expected', state', hexpected', hstate', hstores'⟩ := hverified
    cases hexpected.symm.trans hexpected'
    cases (hstates _ _).symm.trans hstate'
    exact hstores'

/-- The report of a package in scope. -/
lemma exists_report_of_package {pkg : Package} (hpkg : pkg ∈ scopedPackages request read) :
    ∃ p ∈ report.packages,
      Reported env source request level fetched collected.facts (eventEntry pkg) p :=
  h.exists_report (h.eventEntry_mem_values hpkg)

/-- Two packages in scope with one key are the same. -/
lemma eq_of_key {pkg pkg' : Package} (hpkg : pkg ∈ scopedPackages request read)
    (hpkg' : pkg' ∈ scopedPackages request read)
    (hhash : pkg.transactionHash = pkg'.transactionHash) (hsegment : pkg.segment = pkg'.segment) :
    pkg = pkg' := by
  apply List.inj_on_of_nodup_map (nodup_entryKey h.length_name h.reads)
    (List.mem_filter.mp hpkg).1 (List.mem_filter.mp hpkg').1
  exact entryKey_inj.mpr ⟨hhash, hsegment⟩

/-- When every package reached the level, every check of every listed intent passes and no issue
is filed under its transaction. -/
lemma verified_of_reached (hcode : CodeByState env source request level report)
    (hreached : ∀ p ∈ report.packages, level ≤ p.level) {hash : JsString} {segment : ℕ}
    (hlisted : Listed request name fetched.events hash segment) :
    IntentVerified env source request name level fetched.events hash segment ∧
      (fetched.issues.get? hash).getD [] = [] := by
  obtain ⟨⟨hone, -⟩, -⟩ := checkRequest_eq_ok h.accepted
  obtain ⟨pkg, hpkg, rfl, rfl⟩ := h.listed_iff.mp hlisted
  obtain ⟨p, hp, hreported⟩ := h.exists_report_of_package hpkg
  have hlevel := hreached p hp
  obtain ⟨-, other, hshows⟩ := hreported.one.mp (by omega)
  obtain rfl : pkg = other := Option.some.inj hshows.fromEvents
  obtain ⟨hmerged, -⟩ := mergedFrom_of_accepted h.length_name h.reads (List.mem_filter.mp hpkg).1
    hshows.accepted
  refine ⟨⟨_, _, hmerged, fun htwo => ?_⟩, hshows.readable⟩
  obtain ⟨other, hother, hhash, hsegment, -, hraw, transaction, decoded, hincluded, hclean⟩ :=
    h.exists_placed hp (by omega)
  have hsame : p.transactionHash = pkg.transactionHash := hreported.transactionHash
  obtain rfl := h.eq_of_key hother hpkg (hhash.trans hsame) (hsegment.trans hreported.segment)
  rw [hsame] at hraw hincluded
  refine ⟨transaction, decoded, (mem_rawHashes.mp hraw).2.1, hincluded, hclean, ?_, ?_⟩
  · intro e he hhead s hs hscope
    obtain ⟨q, hq, hqhash, hqsegment⟩ := h.exists_report_of_rawEvent hraw
      ⟨transaction, hincluded.found, hincluded.decodes⟩ he hhead (hs ▸ hscope)
    obtain ⟨shown, hshown, hshownHash, hshownSegment, -⟩ := h.exists_package hq
      (by have hqlevel := hreached q hq; omega)
    rw [hs, JsNumber.int.injEq, Int.ofNat_inj] at hqsegment
    exact (h.listed_iff.mpr ⟨shown, hshown, hshownHash.trans hqhash,
      hshownSegment.trans hqsegment.symm⟩).2
  · intro hthree
    rw [← hsame] at hincluded
    exact (hcode p hp (by omega) hthree _ hincluded.found).mp (by omega)

/-- When every check of every listed intent passes, only the events have entries. -/
lemma entry_eq_of_verified
    (hverified : OtherwiseVerified env source request name level fetched.events) {entry : Entry}
    (hentry : entry ∈ collected.entries.values) :
    ∃ pkg ∈ scopedPackages request read, entry = eventEntry pkg := by
  rcases h.collectedFrom.origin entry hentry with hevents |
    ⟨hash, hhash, decoded, raws, hraw, hraws, pkg, hpkg, rfl⟩
  · exact hevents
  -- A package that only the raw bytes show is in an intent that logs the name without events.
  · exfalso
    obtain ⟨htwo, hrequested, hpackages⟩ := mem_rawHashes.mp hhash
    have hlisted : ∃ segment, Listed request name fetched.events hash segment := by
      cases htransaction : request.transactionHash with
      | none =>
        obtain ⟨shown, hshown, rfl⟩ := hpackages htransaction
        exact ⟨_, h.listed_iff.mpr ⟨shown, hshown, rfl, rfl⟩⟩
      | some requested =>
        obtain ⟨hash', segment, hlisted⟩ := hverified.found
        obtain ⟨_, _, -, hplaced⟩ := hverified.verified hash' segment hlisted
        obtain ⟨_, _, hplaced⟩ := hplaced htwo
        have hsame : hash' = hash :=
          (hplaced.requested _ htransaction).trans (hrequested _ htransaction).symm
        exact ⟨segment, hsame ▸ hlisted⟩
    obtain ⟨segment, hlisted⟩ := hlisted
    obtain ⟨_, _, -, hplaced⟩ := hverified.verified hash segment hlisted
    obtain ⟨transaction, decoded', hplaced⟩ := hplaced htwo
    obtain ⟨transaction', hfound, hdecodes⟩ := hraw
    cases hfound.symm.trans hplaced.included.found
    cases hdecodes.symm.trans hplaced.included.decodes
    obtain ⟨hscope, e, he, hhead, hsegment⟩ :=
      (exists_rawPackage_iff h.length_name hraws).mp ⟨pkg, hpkg, rfl⟩
    obtain ⟨shown, hshown, hshownHash, hshownSegment⟩ := h.listed_iff.mp
      ⟨hscope, hplaced.complete e he hhead pkg.segment hsegment hscope⟩
    obtain ⟨key, hkey⟩ := InsertionMap.mem_values_iff.mp hentry
    have hsame : shown.entryKey = key := by
      rw [h.collectedFrom.keys _ _ hkey]
      exact entryKey_inj.mpr ⟨hshownHash, hshownSegment⟩
    have hevent := h.collectedFrom.events shown hshown
    rw [hsame, hkey, Option.some.injEq] at hevent
    cases congrArg Entry.fromEvents hevent

/-- When every check of every listed intent passes and no issue is filed under a transaction of
one, every package reaches the level. -/
lemma reached_of_verified (hcode : CodeByState env source request level report)
    (hverified : OtherwiseVerified env source request name level fetched.events)
    (hreadable : ∀ hash segment, Listed request name fetched.events hash segment →
      (fetched.issues.get? hash).getD [] = []) :
    ∀ p ∈ report.packages, level ≤ p.level := by
  intro p hp
  obtain ⟨⟨hone, hmax⟩, -⟩ := checkRequest_eq_ok h.accepted
  obtain ⟨entry, hentry, hreported⟩ := h.exists_entry hp
  obtain ⟨pkg, hpkg, rfl⟩ := h.entry_eq_of_verified hverified hentry
  have hlisted : Listed request name fetched.events pkg.transactionHash pkg.segment :=
    h.listed_iff.mpr ⟨pkg, hpkg, rfl, rfl⟩
  obtain ⟨positions, parts, hmerged, hplaced⟩ := hverified.verified _ _ hlisted
  have hread := (List.mem_filter.mp hpkg).1
  have haccepted : pkg.status = .accepted :=
    (accepted_iff h.length_name h.reads hread).mpr ⟨hmerged.fits, hmerged.agree⟩
  have hshows : (eventEntry pkg).Shows fetched pkg := ⟨rfl, haccepted, hreadable _ _ hlisted⟩
  have hlevelOne : 1 ≤ p.level := hreported.one.mpr ⟨hone, pkg, hshows⟩
  rcases Nat.lt_or_ge level 2 with hlt | htwo
  · omega
  obtain ⟨transaction, decoded, hplaced⟩ := hplaced htwo
  have hparts : pkg.parts = parts :=
    (mergedFrom_of_accepted h.length_name h.reads hread haccepted).1.unique hmerged
  have hraw : pkg.transactionHash ∈ rawHashes request level (scopedPackages request read) :=
    mem_rawHashes.mpr ⟨htwo, hplaced.requested, fun _ => ⟨pkg, hpkg, rfl⟩⟩
  obtain ⟨fact, hfact⟩ := h.collectedFrom.known _ hraw
  have hrecorded : collected.facts.get? (eventEntry pkg).transactionHash ≠ none := by
    intro hnone
    rw [show (eventEntry pkg).transactionHash = pkg.transactionHash from rfl, hfact] at hnone
    cases hnone
  have hlevelTwo : 2 ≤ p.level := hreported.two.mpr ⟨htwo, hrecorded, pkg, hshows, transaction,
    decoded, hplaced.included, hparts ▸ hplaced.clean⟩
  rcases Nat.lt_or_ge level 3 with hlt | hthree
  · omega
  have hfound : source.transaction p.transactionHash = .ok (some transaction) := by
    rw [hreported.transactionHash]
    exact hplaced.included.found
  have hlevelThree := (hcode p hp hlevelTwo hthree _ hfound).mpr (hplaced.code hthree)
  omega

/-- With exit status 0 every check of every listed intent passes, and no issue is filed under a
transaction of one; and the other way round. -/
lemma exitStatus_iff_verified (hcode : CodeByState env source request level report) :
    verifyExitStatus report = 0 ↔
      OtherwiseVerified env source request name level fetched.events ∧
        ∀ hash segment, Listed request name fetched.events hash segment →
          (fetched.issues.get? hash).getD [] = [] := by
  rw [h.exitStatus_eq_zero_iff]
  constructor
  · intro hreached
    refine ⟨⟨h.known_source, ?_, fun hash segment hlisted => ?_⟩, fun hash segment hlisted => ?_⟩
    · obtain ⟨p, hp⟩ := List.exists_mem_of_ne_nil _ h.packages_ne_nil
      obtain ⟨⟨hone, -⟩, -, -, -⟩ := checkRequest_eq_ok h.accepted
      have hlevel := hreached p hp
      obtain ⟨pkg, hpkg, hhash, hsegment, -⟩ := h.exists_package hp (by omega)
      exact ⟨_, _, h.listed_iff.mpr ⟨pkg, hpkg, hhash, hsegment⟩⟩
    · exact (h.verified_of_reached hcode hreached hlisted).1
    · exact (h.verified_of_reached hcode hreached hlisted).2
  · intro hverified
    exact h.reached_of_verified hcode hverified.1 hverified.2

end VerificationRun

/-- A run that found nothing has no listed intent, unless it does not know the transaction. -/
lemma not_listed_of_nothingFound (hrequest : checkRequest request = .ok (name, level))
    (hfetches : source.events request.target.contract request.transactionHash = .ok fetched)
    (hnothing : NothingFound env source request) (hknown : Known source request)
    {hash : JsString} {segment : ℕ} : ¬Listed request name fetched.events hash segment := by
  intro hlisted
  rcases hnothing with hunknown | ⟨name', level', fetched', read, collected, h, hempty⟩
  · unfold isUnknown at hunknown
    cases htransaction : request.transactionHash with
    | none =>
      rw [htransaction] at hunknown
      cases hunknown
    | some requested =>
      obtain ⟨transaction, hfound⟩ := hknown requested htransaction
      rw [htransaction] at hunknown
      simp only [hfound, ok_bind, pure_eq_ok_iff] at hunknown
      cases hunknown
  · cases h.accepted.symm.trans hrequest
    cases h.fetches.symm.trans hfetches
    obtain ⟨pkg, hpkg, -⟩ := h.listed_iff.mp hlisted
    have hentry := h.eventEntry_mem_values hpkg
    rw [hempty] at hentry
    cases hentry

/-- With Level 3 decided by the state at a transaction's block, the exit status is 0 exactly when
every check of every listed intent passes and no issue is filed under a transaction of one. -/
lemma exitStatus_iff_of_codeByState
    (hcode : ∀ {name level fetched read collected st},
      VerificationRun env source request report name level fetched read collected st →
        CodeByState env source request level report)
    (hrequest : checkRequest request = .ok (name, level))
    (hfetches : source.events request.target.contract request.transactionHash = .ok fetched)
    (hrun : verifyPackages env source request = .ok report) :
    verifyExitStatus report = 0 ↔
      OtherwiseVerified env source request name level fetched.events ∧
        ∀ hash segment, Listed request name fetched.events hash segment →
          (fetched.issues.get? hash).getD [] = [] := by
  rcases verifyPackages_cases hrun with ⟨hnotFound, -, hnothing⟩ |
    ⟨name', level', fetched', read, collected, st, h⟩
  · have hexit : verifyExitStatus report ≠ 0 := by
      unfold verifyExitStatus
      rw [if_pos hnotFound]
      decide
    refine iff_of_false hexit fun hverified => ?_
    obtain ⟨⟨hknown, ⟨hash, segment, hlisted⟩, -⟩, -⟩ := hverified
    exact not_listed_of_nothingFound hrequest hfetches hnothing hknown hlisted
  · cases h.accepted.symm.trans hrequest
    cases h.fetches.symm.trans hfetches
    exact h.exitStatus_iff_verified (hcode h)

/-- **The exit status is decided by the source's answers.**  It is 0 exactly when every check but
the one of unreadable events passes and no issue is filed under the transaction of a package. -/
theorem exitStatus_eq_zero_iff (hsource : AnswersByHash source)
    (hrequest : checkRequest request = .ok (name, level))
    (hfetches : source.events request.target.contract request.transactionHash = .ok fetched)
    (hrun : verifyPackages env source request = .ok report) :
    verifyExitStatus report = 0 ↔
      OtherwiseVerified env source request name level fetched.events ∧
        ∀ hash segment, Listed request name fetched.events hash segment →
          (fetched.issues.get? hash).getD [] = [] :=
  exitStatus_iff_of_codeByState (fun h => h.codeByState hsource) hrequest hfetches hrun

/-- A package reaches Level 1 exactly when its intent is listed, its events merge, and no issue is
filed under its transaction. -/
theorem exists_levelOne_iff (hrequest : checkRequest request = .ok (name, level))
    (hfetches : source.events request.target.contract request.transactionHash = .ok fetched)
    (hrun : verifyPackages env source request = .ok report) {hash : JsString} {segment : ℕ} :
    (∃ p ∈ report.packages, p.transactionHash = hash ∧ p.segment = segment ∧ 1 ≤ p.level) ↔
      Known source request ∧ Listed request name fetched.events hash segment ∧
        (∃ positions parts,
          MergedFrom (packageEvents request name fetched.events hash segment) positions parts) ∧
        (fetched.issues.get? hash).getD [] = [] := by
  rcases verifyPackages_cases hrun with ⟨-, hnone, hnothing⟩ |
    ⟨name', level', fetched', read, collected, st, h⟩
  · rw [hnone]
    refine iff_of_false (by simp) fun hlisted => ?_
    exact not_listed_of_nothingFound hrequest hfetches hnothing hlisted.1 hlisted.2.1
  · cases h.accepted.symm.trans hrequest
    cases h.fetches.symm.trans hfetches
    constructor
    · intro hreached
      obtain ⟨p, hp, rfl, rfl, hlevel⟩ := hreached
      obtain ⟨pkg, hpkg, hhash, hsegment, hshows, -⟩ := h.exists_package hp hlevel
      have hmerged := (mergedFrom_of_accepted h.length_name h.reads (List.mem_filter.mp hpkg).1
        hshows.accepted).1
      rw [hhash, hsegment] at hmerged
      have hreadable := hshows.readable
      rw [show (eventEntry pkg).transactionHash = p.transactionHash from hhash] at hreadable
      exact ⟨h.known_source, h.listed_iff.mpr ⟨pkg, hpkg, hhash, hsegment⟩, ⟨_, _, hmerged⟩,
        hreadable⟩
    · intro hlisted
      obtain ⟨-, hlisted, ⟨positions, parts, hmerged⟩, hreadable⟩ := hlisted
      obtain ⟨pkg, hpkg, rfl, rfl⟩ := h.listed_iff.mp hlisted
      obtain ⟨p, hp, hreported⟩ := h.exists_report_of_package hpkg
      have haccepted : pkg.status = .accepted :=
        (accepted_iff h.length_name h.reads (List.mem_filter.mp hpkg).1).mpr
          ⟨hmerged.fits, hmerged.agree⟩
      have hone := (checkRequest_eq_ok hrequest).1.1
      exact ⟨p, hp, hreported.transactionHash, hreported.segment,
        hreported.one.mpr ⟨hone, pkg, rfl, haccepted, hreadable⟩⟩

/-- With exit status 0 every package reached Level 1. -/
lemma one_le_of_exitStatus_eq_zero (hrun : verifyPackages env source request = .ok report)
    (hexit : verifyExitStatus report = 0) : ∀ p ∈ report.packages, 1 ≤ p.level := by
  rcases verifyPackages_cases hrun with ⟨-, hnone, -⟩ | ⟨_, _, _, _, _, _, h⟩
  · simp [hnone]
  · intro p hp
    have hlevel := h.exitStatus_eq_zero_iff.mp hexit p hp
    have hone := (checkRequest_eq_ok h.accepted).1.1
    omega

end ExitStatus

end MultiPartEvent
