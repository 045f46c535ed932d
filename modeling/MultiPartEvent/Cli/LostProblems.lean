import MultiPartEvent.Cli.Exactness

/-!
# Conversion problems and the exit status

The indexer source files the problems of an item under the transaction the indexer names for it,
while the item's part event carries the hash of its raw ledger event, and verification looks
problems up under the hashes of its packages.  `noProblemLost_iff` says exactly when no problem
is lost on the way: `ProblemsReach` is that condition on the served items, and a transaction
whose raw events name another hash than the indexer does is enough to break it.
-/

namespace MultiPartEvent

/-- A transaction of the indexer source has a block, and its states are those of a block's hash. -/
lemma answersByHash_indexerSource (ledger : LedgerModule) (client : IndexerClient)
    (options : IndexerSourceOptions) : AnswersByHash (indexerSource ledger client options) := by
  refine ⟨fun hash transaction hfound => ?_, fun contract block block' hhash => ?_⟩
  · obtain ⟨found, -, hfound⟩ := bind_eq_ok_iff.mp hfound
    cases found with
    | nil =>
      rw [pure_eq_ok_iff] at hfound
      cases hfound
    | cons found rest =>
      obtain ⟨raw, -, hfound⟩ := bind_eq_ok_iff.mp hfound
      rw [pure_eq_ok_iff, Option.some.injEq] at hfound
      subst hfound
      simp
  · simp only [indexerSource, Option.map_some, hhash]

section LostProblems

variable (env : VerifyEnv) (source : VerifySource) (options : IndexerEventOptions)
  (indexed : List IndexedMiscEvent) (request : VerifyRequest) (name : Bytes) (level : ℕ)

/-- The part events of the served items. -/
def servedEvents : List PartEvent := (indexerEvents env.ledger options indexed).events

/-- No problem of a served item is lost: with one, the exit status is not 0 and no package that
contains the item's event reaches Level 1; and one transaction's exit status 0 is about that
transaction only. -/
structure NoProblemLost (report : VerifyReport) : Prop where
  exit : (∃ item ∈ indexed, Raises env.ledger options item) → verifyExitStatus report ≠ 0
  packages : ∀ item ∈ indexed, Raises env.ledger options item →
    ∀ e ∈ (convertItem env.ledger options item).events, ∀ p ∈ report.packages,
      e ∈ packageEvents request name (servedEvents env options indexed) p.transactionHash
        p.segment → p.level = 0
  transaction : ∀ requested, request.transactionHash = some requested →
    verifyExitStatus report = 0 → ∀ p ∈ report.packages, p.transactionHash = requested

/-- Every problem is filed where verification looks for it. -/
structure ProblemsReach : Prop where
  /-- When all other checks pass, some problem is filed under the transaction of a package. -/
  exit : (∃ item ∈ indexed, Raises env.ledger options item) →
    OtherwiseVerified env source request name level (servedEvents env options indexed) →
      ∃ item ∈ indexed, Raises env.ledger options item ∧
        ∃ segment, Listed request name (servedEvents env options indexed) item.transactionHash
          segment
  /-- A problem of an event in a consistent package is filed, or another is, under the hash of
  the raw event. -/
  packages : Known source request → ∀ item ∈ indexed, Raises env.ledger options item →
    ∀ e ∈ (convertItem env.ledger options item).events, ∀ (hash : JsString) (segment : ℕ),
      InScope request (.int segment) →
      e ∈ packageEvents request name (servedEvents env options indexed) hash segment →
      (∃ positions parts, MergedFrom (packageEvents request name (servedEvents env options indexed)
        hash segment) positions parts) →
      ∃ other ∈ indexed, Raises env.ledger options other ∧ other.transactionHash = hash
  /-- When all checks pass, every package is of the requested transaction. -/
  transaction : ∀ requested, request.transactionHash = some requested →
    OtherwiseVerified env source request name level (servedEvents env options indexed) →
    (∀ item ∈ indexed, Raises env.ledger options item → ∀ segment,
      ¬Listed request name (servedEvents env options indexed) item.transactionHash segment) →
    ∀ hash segment, Listed request name (servedEvents env options indexed) hash segment →
      hash = requested

end LostProblems

section IndexerRun

variable {env : VerifyEnv} {client : IndexerClient} {sourceOptions : IndexerSourceOptions}
  {indexed : List IndexedMiscEvent} {request : VerifyRequest} {name : Bytes} {level : ℕ}
  {report : VerifyReport}

/-- Issues are filed under no listed transaction exactly when no problem is. -/
lemma readable_iff {options : IndexerEventOptions} :
    (∀ hash segment, Listed request name (servedEvents env options indexed) hash segment →
      ((indexerEvents env.ledger options indexed).issues.get? hash).getD [] = []) ↔
      ∀ item ∈ indexed, Raises env.ledger options item → ∀ segment,
        ¬Listed request name (servedEvents env options indexed) item.transactionHash segment := by
  constructor
  · intro h item hitem hraises segment hlisted
    exact getD_issues_eq_nil_iff.mp (h _ segment hlisted) item hitem hraises rfl
  · intro h hash segment hlisted
    rw [getD_issues_eq_nil_iff]
    intro item hitem hraises hhash
    exact h item hitem hraises segment (hhash ▸ hlisted)

/-- **When no problem is lost.**  In every run over the indexer that returns a report, no problem
is lost exactly when every problem is filed where verification looks for it. -/
theorem noProblemLost_iff (hrequest : checkRequest request = .ok (name, level))
    (hserves : client.miscEvents request.target.contract request.transactionHash
      (sourceOptions.maxEvents.getD defaultReaderLimits.maxEvents) = .ok indexed)
    (hrun : verifyPackages env (indexerSource env.ledger client sourceOptions) request =
      .ok report) :
    NoProblemLost env ⟨sourceOptions.network, request.target.contract⟩ indexed request name report ↔
      ProblemsReach env (indexerSource env.ledger client sourceOptions)
        ⟨sourceOptions.network, request.target.contract⟩ indexed request name level := by
  set options : IndexerEventOptions := ⟨sourceOptions.network, request.target.contract⟩
  set source := indexerSource env.ledger client sourceOptions
  have hfetches : source.events request.target.contract request.transactionHash =
      .ok (indexerEvents env.ledger options indexed) := by
    change (client.miscEvents _ _ _ >>= _) = _
    rw [hserves]
    rfl
  have hexit : verifyExitStatus report = 0 ↔
      OtherwiseVerified env source request name level (servedEvents env options indexed) ∧
        ∀ item ∈ indexed, Raises env.ledger options item → ∀ segment,
          ¬Listed request name (servedEvents env options indexed) item.transactionHash segment :=
    (exitStatus_eq_zero_iff (answersByHash_indexerSource _ _ _) hrequest hfetches hrun).trans
      (and_congr_right fun _ => readable_iff)
  have hone : ∀ {hash : JsString} {segment : ℕ}, (∃ p ∈ report.packages,
      p.transactionHash = hash ∧ p.segment = segment ∧ 1 ≤ p.level) ↔ _ := fun {_ _} =>
    exists_levelOne_iff hrequest hfetches hrun
  constructor
  · intro h
    refine ⟨fun hraises hverified => ?_, ?_, fun requested hrequested hverified hnone => ?_⟩
    · by_contra hnone
      apply h.exit hraises
      refine hexit.mpr ⟨hverified, fun item hitem hraises segment hlisted => ?_⟩
      exact hnone ⟨item, hitem, hraises, segment, hlisted⟩
    · intro hknown item hitem hraises e he hash segment hscope hmem hmerged
      by_contra hnone
      have hreadable :
          ((indexerEvents env.ledger options indexed).issues.get? hash).getD [] = [] := by
        rw [getD_issues_eq_nil_iff]
        intro other hother hraises' hhash
        exact hnone ⟨other, hother, hraises', hhash⟩
      obtain ⟨p, hp, rfl, rfl, hlevel⟩ :=
        hone.mpr ⟨hknown, ⟨hscope, List.ne_nil_of_mem hmem⟩, hmerged, hreadable⟩
      have hzero := h.packages item hitem hraises e he p hp hmem
      omega
    · intro hash segment hlisted
      obtain ⟨positions, parts, hmerged, -⟩ := hverified.verified hash segment hlisted
      obtain ⟨p, hp, rfl, -, -⟩ := hone.mpr ⟨hverified.known, hlisted, ⟨positions, parts, hmerged⟩,
        readable_iff.mpr hnone hash segment hlisted⟩
      exact h.transaction requested hrequested (hexit.mpr ⟨hverified, hnone⟩) p hp
  · intro h
    refine ⟨fun hraises hzero => ?_, ?_, fun requested hrequested hzero p hp => ?_⟩
    · obtain ⟨hverified, hnone⟩ := hexit.mp hzero
      obtain ⟨item, hitem, hraises, segment, hlisted⟩ := h.exit hraises hverified
      exact hnone item hitem hraises segment hlisted
    · intro item hitem hraises e he p hp hmem
      by_contra hlevel
      obtain ⟨hknown, hlisted, hmerged, hreadable⟩ :=
        hone.mp ⟨p, hp, rfl, rfl, Nat.one_le_iff_ne_zero.mpr hlevel⟩
      obtain ⟨other, hother, hraises', hhash⟩ := h.packages hknown item hitem hraises e he
        p.transactionHash p.segment hlisted.1 hmem hmerged
      exact getD_issues_eq_nil_iff.mp hreadable other hother hraises' hhash
    · obtain ⟨hverified, hnone⟩ := hexit.mp hzero
      obtain ⟨-, hlisted, -⟩ :=
        hone.mp ⟨p, hp, rfl, rfl, one_le_of_exitStatus_eq_zero hrun hzero p hp⟩
      exact h.transaction requested hrequested hverified hnone p.transactionHash p.segment hlisted

end IndexerRun

/-! ### A transaction hash that differs -/

/-- A ledger module that reads any bytes as one emission of the transaction `aa`. -/
def emissionLedger : LedgerModule where
  deserialize := fun _ _ => .error (.error (js "no transaction"))
  deserializeEvent := fun _ => .ok ⟨.contractLog (List.replicate 64 (hexUnit 10)) (js "misc")
    (.cell [.atom (.bytes 288)] [List.replicate 32 7 ++ List.replicate 256 1]), js "aa", 5⟩
  deserializeState := fun _ => .error (.error (js "no state"))

/-- The emission as the indexer serves it, for the transaction it names. -/
def servedEmission (transactionHash : JsString) : IndexedMiscEvent where
  id := .int 3
  nameHex := bytesToHex (List.replicate 32 7)
  payloadHex := bytesToHex (List.replicate 256 1)
  rawHex := []
  transactionHash := transactionHash
  blockHeight := 7
  blockHash := js "bb"

/-- The emission of the transaction `aa` with another payload than its raw ledger event has. -/
def alteredEmission : IndexedMiscEvent :=
  { servedEmission (js "aa") with payloadHex := bytesToHex (List.replicate 256 2) }

/-- An indexer that serves one item. -/
def servedClient (item : IndexedMiscEvent) : IndexerClient where
  url := js "http"
  miscEvents := fun _ _ _ => .ok [item]
  transactionsByHash := fun hash => .ok [⟨hash, [], some (js "SUCCESS"), ⟨js "bb", 7⟩⟩]
  contractState := fun _ _ => .ok none

/-- A request to verify one transaction to Level 1. -/
def servedRequest (transactionHash : JsString) : VerifyRequest :=
  { emittedRequest 1 with transactionHash := some transactionHash }

/-- A run over the indexer whose report passes a test. -/
lemma exists_served_report (env : VerifyEnv) (item : IndexedMiscEvent) (transactionHash : JsString)
    (test : VerifyReport → Bool)
    (h : (verifyPackages env (indexerSource env.ledger (servedClient item)
      ⟨js "net", none, none⟩) (servedRequest transactionHash)).toOption.any test = true) :
    ∃ report, verifyPackages env (indexerSource env.ledger (servedClient item)
      ⟨js "net", none, none⟩) (servedRequest transactionHash) = .ok report ∧
        test report = true := by
  obtain ⟨report, hrun, htest⟩ := (Option.any_eq_true _ _).mp h
  exact ⟨report, toOption_eq_some_iff.mp hrun, htest⟩

/-- An event whose typed payload is not that of its raw ledger event raises a problem, and the
problem reaches the report of a request for the transaction that both name. -/
theorem noProblemLost_iff_served :
    let env : VerifyEnv := ⟨emissionLedger, bytesToHex⟩
    let options : IndexerEventOptions := ⟨js "net", List.replicate 64 (hexUnit 10)⟩
    ∃ report, verifyPackages env (indexerSource env.ledger (servedClient alteredEmission)
        ⟨js "net", none, none⟩) (servedRequest (js "aa")) = .ok report ∧
      Raises env.ledger options alteredEmission ∧
      ProblemsReach env (indexerSource env.ledger (servedClient alteredEmission)
          ⟨js "net", none, none⟩) options [alteredEmission] (servedRequest (js "aa"))
        (List.replicate 32 7) 1 ∧
      NoProblemLost env options [alteredEmission] (servedRequest (js "aa")) (List.replicate 32 7)
        report := by
  intro env options
  obtain ⟨report, hrun, -⟩ :=
    exists_served_report env alteredEmission (js "aa") (fun _ => true) (by decide +kernel)
  have hrequest : checkRequest (servedRequest (js "aa")) = .ok (List.replicate 32 7, 1) := by rfl
  have hraises : Raises env.ledger options alteredEmission := by
    unfold Raises
    decide +kernel
  have hlisted : Listed (servedRequest (js "aa")) (List.replicate 32 7)
      (servedEvents env options [alteredEmission]) (js "aa") 5 := by
    refine ⟨fun requested hrequested => (nomatch hrequested), ?_⟩
    decide +kernel
  -- every served event is of the transaction the indexer names, so every package is
  have hserved : ∀ e ∈ servedEvents env options [alteredEmission], e.transactionHash = js "aa" := by
    decide +kernel
  have hhash : ∀ hash segment e, e ∈ packageEvents (servedRequest (js "aa")) (List.replicate 32 7)
      (servedEvents env options [alteredEmission]) hash segment → hash = js "aa" := by
    intro hash segment e he
    obtain ⟨hmem, htests⟩ := List.mem_filter.mp he
    rw [← hserved e hmem]
    exact ((of_decide_eq_true htests).2.2.2.1).symm
  have hreach : ProblemsReach env (indexerSource env.ledger (servedClient alteredEmission)
      ⟨js "net", none, none⟩) options [alteredEmission] (servedRequest (js "aa"))
        (List.replicate 32 7) 1 := by
    refine ⟨fun _ _ => ⟨_, List.mem_singleton_self _, hraises, 5, hlisted⟩, ?_, ?_⟩
    · intro _ item _ _ e _ hash segment _ hmem _
      exact ⟨_, List.mem_singleton_self _, hraises, (hhash hash segment e hmem).symm⟩
    · intro requested hrequested _ _ hash segment hlisted
      obtain ⟨e, he⟩ := List.exists_mem_of_ne_nil _ hlisted.2
      cases hrequested
      exact hhash hash segment e he
  exact ⟨report, hrun, hraises, hreach, (noProblemLost_iff hrequest rfl hrun).mpr hreach⟩

/-- An event of the transaction `cc`, as the indexer names it, whose raw ledger event is of the
transaction `aa`: a problem is raised, yet a request for `cc` ends with exit status 0, and lists
the package of `aa`, with the event, at Level 1. -/
theorem problem_lost_other_hash :
    let env : VerifyEnv := ⟨emissionLedger, bytesToHex⟩
    let options : IndexerEventOptions := ⟨js "net", List.replicate 64 (hexUnit 10)⟩
    ∃ report, verifyPackages env (indexerSource env.ledger (servedClient (servedEmission (js "cc")))
        ⟨js "net", none, none⟩) (servedRequest (js "cc")) = .ok report ∧
      Raises env.ledger options (servedEmission (js "cc")) ∧ verifyExitStatus report = 0 ∧
      (∃ p ∈ report.packages, p.transactionHash ≠ js "cc" ∧ 1 ≤ p.level) ∧
      ¬NoProblemLost env options [servedEmission (js "cc")] (servedRequest (js "cc"))
        (List.replicate 32 7) report := by
  intro env options
  obtain ⟨report, hrun, htest⟩ := exists_served_report env (servedEmission (js "cc")) (js "cc")
    (fun report => decide (verifyExitStatus report = 0) &&
      report.packages.any fun p => decide (p.transactionHash ≠ js "cc" ∧ 1 ≤ p.level))
    (by decide +kernel)
  rw [Bool.and_eq_true, decide_eq_true_eq, List.any_eq_true] at htest
  obtain ⟨hexit, p, hp, hlisted⟩ := htest
  have hraises : Raises env.ledger options (servedEmission (js "cc")) := by
    unfold Raises
    decide +kernel
  refine ⟨report, hrun, hraises, hexit, ⟨p, hp, of_decide_eq_true hlisted⟩, fun h => ?_⟩
  exact h.exit ⟨_, List.mem_singleton_self _, hraises⟩ hexit

end MultiPartEvent
