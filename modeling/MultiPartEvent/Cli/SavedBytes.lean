import MultiPartEvent.Cli.Exactness
import MultiPartEvent.Reader.VerifyTransaction

/-!
# Saved bytes as a source

Offline, `verifyPackages` has one transaction to look at: the packages come from its raw bytes, and
the status and the contract state are those that were saved with it.  `SavedVerified` says what it
asks of them, without the reader, the entries or the checks: in terms of what the intents of the
transaction log, and of what was saved.

What the source answers is worked out here: which intents it lists, into what their events merge,
when its transaction passes Levels 2 and 3, and that a run over it returns as soon as the events can
be read.
-/

namespace MultiPartEvent

/-! ### What a transaction logs -/

/-- The contract logs a value under the name in the intent at a segment. -/
def Logs (tx : Transaction) (contract : JsString) (name : Bytes) (segment : ℕ) : Prop :=
  ∃ intent, tx.intents.get? segment = some intent ∧
    ∃ value ∈ intent.emitted contract, value.take 32 = name

/-- Every call of the contract in the transaction can be read. -/
def Transaction.Readable (tx : Transaction) (contract : JsString) : Prop :=
  ∀ segment intent, tx.intents.get? segment = some intent → intent.Readable contract

section Transaction

variable {tx : Transaction} {contract : JsString} {name : Bytes} {segment : ℕ}

/-- There are no issues exactly when every call of the contract can be read. -/
lemma issues_eq_nil_iff (tx : Transaction) (contract : JsString) :
    (contractActivity tx contract).issues = [] ↔ tx.Readable contract := by
  have hmem : ∀ item, item ∈ orderedIntents tx ↔ tx.intents.get? item.1 = some item.2 := by
    intro item
    rw [(orderedIntents_perm tx).mem_iff, InsertionMap.get?_eq_some_iff]
  change (orderedIntents tx).flatMap _ = [] ↔ _
  rw [List.flatMap_eq_nil_iff]
  simp only [hmem, intentIssues_eq_nil_iff, Prod.forall]
  exact Iff.rfl

/-- In a readable transaction an intent logs the name exactly when a value at its segment does. -/
lemma logs_iff (hreadable : tx.Readable contract) :
    Logs tx contract name segment ↔ named name (valuesAt tx contract segment) ≠ [] := by
  rw [named_ne_nil_iff]
  constructor
  · intro h
    obtain ⟨intent, hintent, hlogged⟩ := h
    rwa [valuesAt_eq_emitted hintent (hreadable segment intent hintent)]
  · intro h
    obtain ⟨value, hvalue, hname⟩ := h
    obtain ⟨intent, hintent, -⟩ := List.mem_flatMap.mp hvalue
    have hintent' : tx.intents.get? segment = some intent := by simpa using hintent
    rw [valuesAt_eq_emitted hintent' (hreadable segment intent hintent')] at hvalue
    exact ⟨intent, hintent', value, hvalue, hname⟩

end Transaction

/-! ### Saved bytes as a source -/

/-- The answers of saved bytes. -/
def savedAnswers (saved : SavedData) (tx : Transaction) (hash : JsString) : VerifySource where
  description := js "saved raw transaction"
  events := fun contract transactionHash => .ok (savedEvents saved tx hash contract transactionHash)
  transaction := fun requested => .ok <|
    if requested = hash then some ⟨hash, saved.raw, saved.status, saved.block⟩ else none
  contractState := fun _ _ => .ok saved.contractState
  nodeHolds := none

/-- Saved bytes are a source exactly when they decode and a hash is known for them. -/
lemma savedSource_eq_ok_iff {ledger : LedgerModule} {saved : SavedData} {source : VerifySource} :
    savedSource ledger saved = .ok source ↔ ∃ tx hash,
      deserializeTransaction ledger saved.raw = .ok tx ∧
      saved.transactionHash.or (transactionHashOf tx) = some hash ∧
      source = savedAnswers saved tx hash := by
  unfold savedSource savedAnswers
  cases deserializeTransaction ledger saved.raw with
  | error err => simp
  | ok tx =>
    simp only [Except.ok.injEq]
    cases hhash : saved.transactionHash.or (transactionHashOf tx) with
    | none => simp [hhash]
    | some hash =>
      simp only [Except.ok.injEq]
      constructor
      · intro h
        exact ⟨tx, hash, rfl, hhash, h.symm⟩
      · intro h
        obtain ⟨_, _, rfl, hhash', rfl⟩ := h
        cases hhash.symm.trans hhash'
        rfl

/-! ### The condition -/

/-- Level 2 of saved bytes: they were included under their own hash, no node is asked, and every
intent in scope that logs the name is verifiable. -/
structure SavedPlaced (saved : SavedData) (request : VerifyRequest) (name : Bytes)
    (tx : Transaction) (hash : JsString) : Prop where
  status : saved.status ∈ includedStatuses
  ownHash : ∀ own, transactionHashOf tx = some own → own = hash
  offline : request.crossCheckNode ≠ some true
  verifiable : ∀ segment : ℕ, InScope request (.int segment) →
    Logs tx request.target.contract name segment →
      ∃ intent, tx.intents.get? segment = some intent ∧
        intent.Verifiable request.target.toPlacementTarget name

/-- What saved bytes hold when they verify to a level. -/
structure SavedVerified (env : VerifyEnv) (saved : SavedData) (request : VerifyRequest)
    (name : Bytes) (level : ℕ) (tx : Transaction) (hash : JsString) : Prop where
  network : request.target.network ≠ []
  reported : hash ≠ []
  requested : ∀ requested, request.transactionHash = some requested → requested = hash
  /-- The contract logs at most `maxEvents` values, under the name in at most `maxPackages`
  intents. -/
  limits : ∃ maxEvents maxPackages,
    validateReaderLimits (request.limits.getD defaultReaderLimits) = .ok (maxEvents, maxPackages) ∧
      (contractActivity tx request.target.contract).parts.length ≤ maxEvents ∧
      {segment | Logs tx request.target.contract name segment}.ncard ≤ maxPackages
  readable : tx.Readable request.target.contract
  /-- There is something to verify. -/
  found : ∃ segment : ℕ, InScope request (.int segment) ∧
    Logs tx request.target.contract name segment
  placed : 2 ≤ level → SavedPlaced saved request name tx hash
  /-- The saved state stores the expected key of the emitting circuit. -/
  code : 3 ≤ level → ∃ expected, request.expectedVerifierKey = some expected ∧
    StoresKey env request expected saved.contractState

/-! ### What the reader finds in them -/

/-- The scope under which the events of saved bytes are read. -/
def savedScope (request : VerifyRequest) (hash : JsString) : TransactionScope :=
  ⟨request.target.network, request.target.contract, hash⟩

section Reading

variable {request : VerifyRequest} {name : Bytes} {tx : Transaction} {hash : JsString}

/-- The name of a numbered event is that of its value. -/
lemma head_numberedEvent {scope : TransactionScope} {segment : ℕ} {item : Bytes × ℕ}
    (h : item.1.length = 288) : (numberedEvent scope segment item).head = item.1.take 32 :=
  zeroExtend_of_length_eq (by simp [numberedEvent, h])

/-- The intents that saved bytes list are those in scope that log the name. -/
lemma listed_saved_iff {hash' : JsString} {segment : ℕ} :
    Listed request name (rawEvents request hash tx) hash' segment ↔
      InScope request (.int segment) ∧ hash' = hash ∧
        named name (valuesAt tx request.target.contract segment) ≠ [] := by
  unfold Listed
  refine and_congr_right fun _ => ?_
  constructor
  · intro h
    obtain ⟨e, he⟩ := List.exists_mem_of_ne_nil _ h
    unfold packageEvents at he
    rw [List.mem_filter, decide_eq_true_eq] at he
    obtain ⟨he, -, -, hhead, hhash, hsegment⟩ := he
    obtain ⟨s, item, hitem, rfl⟩ := exists_of_mem_events he
    have hvalue : item.1 ∈ valuesAt tx request.target.contract s :=
      List.fst_mem_of_mem_zipIdx hitem
    obtain rfl : s = segment := Int.ofNat.inj (JsNumber.int.inj hsegment)
    rw [head_numberedEvent (length_of_mem_valuesAt hvalue)] at hhead
    exact ⟨hhash.symm, List.ne_nil_of_mem (List.mem_filter.mpr ⟨hvalue, by simpa using hhead⟩)⟩
  · intro h
    obtain ⟨rfl, hne⟩ := h
    obtain ⟨value, hvalue⟩ := List.exists_mem_of_ne_nil _ hne
    obtain ⟨hvalue, hname⟩ := List.mem_filter.mp hvalue
    have hnumbered : value ∈
        (valuesAt tx request.target.contract segment).zipIdx.map Prod.fst := by
      rw [List.zipIdx_map_fst]
      exact hvalue
    obtain ⟨item, hitem, rfl⟩ := List.mem_map.mp hnumbered
    have he := numberedEvent_mem_events (savedScope request hash') hitem
    refine List.ne_nil_of_mem (a := numberedEvent (savedScope request hash') segment item) ?_
    unfold packageEvents
    rw [List.mem_filter, decide_eq_true_eq, head_numberedEvent (length_of_mem_valuesAt hvalue)]
    exact ⟨he, rfl, rfl, of_decide_eq_true hname, rfl, rfl⟩

/-- The events of a transaction can be read exactly within the limits, when the scope they are read
under is well formed. -/
lemma readPackages_saved (hname : name.length = 32)
    (haddress : isAddress request.target.contract = true)
    (hkeys : ∀ s ∈ tx.intents.keys, 1 ≤ s ∧ s ≤ 65535) (hnetwork : request.target.network ≠ [])
    (hhash : hash ≠ []) {maxEvents maxPackages : ℕ}
    (hlimits : validateReaderLimits (request.limits.getD defaultReaderLimits) =
      .ok (maxEvents, maxPackages))
    (hcount : (contractActivity tx request.target.contract).parts.length ≤ maxEvents)
    (hpackages : {s | named name (valuesAt tx request.target.contract s) ≠ []}.ncard ≤
      maxPackages) :
    ∃ read, readPackages (rawEvents request hash tx) (readOptions request name) = .ok read := by
  have hsame : ∀ network, some request.target.network = some network →
      (savedScope request hash).network = network := fun _ h => Option.some.inj h
  obtain ⟨-, hread⟩ := @readPackages_extracted tx (savedScope request hash) name
    (some request.target.network) (.bytes name) (some (request.limits.getD defaultReaderLimits))
    maxEvents maxPackages hsame haddress (eventName_bytes hname) hnetwork hhash hkeys hlimits hcount
    hpackages
  exact ⟨_, hread⟩

/-- What is known of a transaction whose events could be read. -/
structure ReadSaved (request : VerifyRequest) (name : Bytes) (tx : Transaction) (hash : JsString)
    (read : ReadOutput) : Prop where
  wellFormed : ∀ e ∈ rawEvents request hash tx, e.WellFormed
  limits : ∃ maxEvents maxPackages,
    validateReaderLimits (request.limits.getD defaultReaderLimits) = .ok (maxEvents, maxPackages) ∧
      (contractActivity tx request.target.contract).parts.length ≤ maxEvents ∧
      {s | named name (valuesAt tx request.target.contract s) ≠ []}.ncard ≤ maxPackages
  read : read = readOutput (singleName request.target.contract name) (some request.target.network)
    (rawEvents request hash tx)

/-- A transaction whose events could be read has readable events within the limits. -/
lemma readSaved_of_readPackages (hname : name.length = 32) {read : ReadOutput}
    (h : readPackages (rawEvents request hash tx) (readOptions request name) = .ok read) :
    ReadSaved request name tx hash read := by
  obtain ⟨maxEvents, maxPackages, names, haccepts, hcount, hwell, hpackages, rfl⟩ :=
    readPackages_eq_ok_iff.mp h
  obtain ⟨-, name', hname', rfl⟩ := optInNames_single.mp haccepts.names
  cases hname'.symm.trans (eventName_bytes hname)
  have hsame : ∀ network, some request.target.network = some network →
      (savedScope request hash).network = network := fun _ h => Option.some.inj h
  have hlength := @length_packageScopes_extracted tx (savedScope request hash) name
    (some request.target.network) hsame hwell
  refine ⟨hwell, ⟨maxEvents, maxPackages, haccepts.limits, ?_, ?_⟩, rfl⟩
  · rw [rawEvents, partEventsFromTransaction, length_numberParts] at hcount
    exact hcount
  · exact hlength.symm.trans_le hpackages

/-- The events of an intent that logs the name merge into its values under the name. -/
lemma mergedFrom_saved (hname : name.length = 32) {read : ReadOutput}
    (hread : readPackages (rawEvents request hash tx) (readOptions request name) = .ok read)
    {segment : ℕ} (hne : named name (valuesAt tx request.target.contract segment) ≠ []) :
    ∃ positions, MergedFrom (packageEvents request name (rawEvents request hash tx) hash segment)
      positions (namedPayloads name (valuesAt tx request.target.contract segment)) := by
  have hsaved := readSaved_of_readPackages hname hread
  have hsame : ∀ network, some request.target.network = some network →
      (savedScope request hash).network = network := fun _ h => Option.some.inj h
  have hwell : ∀ e ∈ (partEventsFromTransaction tx (savedScope request hash)).events,
      e.WellFormed := hsaved.wellFormed
  obtain ⟨hstatus, hparts, -⟩ := packageAt_eq hsame hwell name segment
  have hmem : packageAt tx (savedScope request hash) name (some request.target.network) segment ∈
      read.packages := by
    rw [hsaved.read]
    exact (mem_packages_extracted hsame hwell).mpr ⟨segment, hne, rfl⟩
  obtain ⟨hmerged, -⟩ := mergedFrom_of_accepted hname hread hmem hstatus
  rw [hparts] at hmerged
  exact ⟨_, hmerged⟩

end Reading

/-! ### Running it -/

/-- A loop whose steps return from every state, returns. -/
lemma exists_foldlM_ok {ε α σ : Type} {f : σ → α → Except ε σ} (h : ∀ s a, ∃ s', f s a = .ok s')
    (l : List α) (s : σ) : ∃ s', l.foldlM f s = .ok s' := by
  induction l generalizing s with
  | nil => exact ⟨s, rfl⟩
  | cons a l ih =>
    obtain ⟨s₁, hs₁⟩ := h s a
    obtain ⟨s₂, hs₂⟩ := ih s₁
    exact ⟨s₂, by rw [List.foldlM_cons, hs₁, ok_bind, hs₂]⟩

section Offline

variable {env : VerifyEnv} {saved : SavedData} {request : VerifyRequest} {name : Bytes}
  {level : ℕ} {tx : Transaction} {hash : JsString}
  (hdecodes : deserializeTransaction env.ledger saved.raw = .ok tx)
  (hsaved : saved.network = request.target.network)

/-- Only the saved transaction is known. -/
lemma known_saved_iff : Known (savedAnswers saved tx hash) request ↔
    ∀ requested, request.transactionHash = some requested → requested = hash := by
  refine forall₂_congr fun requested _ => ?_
  simp only [savedAnswers, Except.ok.injEq]
  by_cases h : requested = hash <;> simp [h]

include hsaved in
/-- The events of the saved transaction are read from its bytes. -/
lemma events_saved
    (hrequested : ∀ requested, request.transactionHash = some requested → requested = hash) :
    (savedEvents saved tx hash request.target.contract request.transactionHash).events =
        rawEvents request hash tx ∧
      ((savedEvents saved tx hash request.target.contract request.transactionHash).issues.get?
        hash).getD [] = (contractActivity tx request.target.contract).issues := by
  have hnot : ¬request.transactionHash.any (fun requested => requested ≠ hash) = true := by
    rw [Option.any_eq_true]
    rintro ⟨requested, hrequest, hne⟩
    exact of_decide_eq_true hne (hrequested requested hrequest)
  unfold savedEvents
  rw [if_neg hnot, hsaved]
  refine ⟨rfl, ?_⟩
  change ((if (contractActivity tx request.target.contract).issues.length = 0 then _ else
    _ : InsertionMap JsString (List JsString)).get? hash).getD [] = _
  split_ifs with hzero
  · rw [List.length_eq_zero_iff.mp hzero]
    rfl
  · rw [InsertionMap.get?_set, if_pos rfl]
    rfl

include hdecodes in
/-- What the facts of a transaction hold does not fail. -/
lemma exists_addTransaction {read : ReadOutput}
    (hread : readPackages (rawEvents request hash tx) (readOptions request name) = .ok read)
    (st : Collected) (hash' : JsString) :
    ∃ st', addTransaction env (savedAnswers saved tx hash) request name st hash' = .ok st' := by
  unfold addTransaction transactionFacts
  by_cases hsame : hash' = hash
  · subst hsame
    obtain ⟨checks, hchecks⟩ : ∃ checks, nodeChecks (savedAnswers saved tx hash') request
        ⟨hash', saved.raw, saved.status, saved.block⟩ = .ok checks := by
      unfold nodeChecks
      split_ifs
      · exact ⟨_, rfl⟩
      · exact ⟨_, rfl⟩
    have hraw : rawPackages request name hash' tx =
        .ok (read.packages.filter (inScope request)) := by
      unfold rawPackages
      rw [rawEvents] at hread
      rw [hread]
      rfl
    simp [savedAnswers, hdecodes] at hchecks ⊢
    simp [hchecks, hraw]
  · simp [savedAnswers, hsame]

/-- A report on a package of the saved transaction does not fail. -/
lemma exists_reportEntry (hname : eventName request.target.name = .ok name)
    (fetched : SourceEvents) (facts : InsertionMap JsString TransactionFacts) (st : ReportState)
    (entry : Entry) :
    ∃ st', reportEntry env (savedAnswers saved tx hash) request level fetched facts st entry =
      .ok st' := by
  have hplacement : ∀ pkg decoded, ∃ checks,
      placementChecks request.target pkg decoded = .ok checks := by
    intro pkg decoded
    unfold placementChecks
    rw [checkPlacement_eq, hname, Except.map, ok_bind]
    split_ifs <;> exact ⟨_, rfl⟩
  have htwo : ∀ pkg fact, ∃ checks, levelTwoChecks request.target pkg fact = .ok checks := by
    intro pkg fact
    unfold levelTwoChecks
    cases fact with
    | none => exact ⟨[], rfl⟩
    | some fact =>
      dsimp only
      cases fact.decoded with
      | none => exact ⟨_, rfl⟩
      | some decoded =>
        obtain ⟨checks, hchecks⟩ := hplacement pkg decoded
        dsimp only
        rw [hchecks]
        exact ⟨_, rfl⟩
  have hlower : ∀ fact, ∃ checks,
      lowerChecks env request level fetched fact entry = .ok checks := by
    intro fact
    unfold lowerChecks
    cases entry.fromEvents with
    | none => exact ⟨_, rfl⟩
    | some pkg =>
      obtain ⟨second, hsecond⟩ := htwo pkg fact
      dsimp only
      rw [hsecond]
      split_ifs <;> exact ⟨_, rfl⟩
  have hstate : ∀ states block, ∃ answer, stateAt (savedAnswers saved tx hash)
      request.target.contract states block = .ok answer := by
    intro states block
    unfold stateAt
    dsimp only
    split <;> exact ⟨_, rfl⟩
  have hthree : ∀ block checks, ∃ third, levelThreeChecks env (savedAnswers saved tx hash) request
      level st.states block checks = .ok third := by
    intro block checks
    obtain ⟨answer, hanswer⟩ := hstate st.states block
    unfold levelThreeChecks
    split
    · exact ⟨_, rfl⟩
    · rw [hanswer]
      split_ifs <;> exact ⟨_, rfl⟩
  obtain ⟨checks, hchecks⟩ := hlower (facts.get? entry.transactionHash)
  obtain ⟨third, hthird⟩ := hthree
    (entryBlock fetched (facts.get? entry.transactionHash) entry) checks
  unfold reportEntry
  dsimp only
  rw [hchecks, ok_bind, hthird]
  exact ⟨_, rfl⟩

include hdecodes hsaved in
/-- An offline verification returns once the events of a known transaction can be read. -/
lemma exists_report_saved (hrequest : checkRequest request = .ok (name, level))
    (hrequested : ∀ requested, request.transactionHash = some requested → requested = hash)
    {read : ReadOutput}
    (hread : readPackages (rawEvents request hash tx) (readOptions request name) = .ok read) :
    ∃ report, verifyPackages env (savedAnswers saved tx hash) request = .ok report := by
  have hname := (checkRequest_eq_ok hrequest).2.2.1
  have hknown : isUnknown (savedAnswers saved tx hash) request = .ok false := by
    unfold isUnknown
    cases htransaction : request.transactionHash with
    | none => rfl
    | some requested =>
      rw [hrequested requested htransaction]
      simp [savedAnswers]
  obtain ⟨collected, hcollected⟩ : ∃ collected, collectEntries env (savedAnswers saved tx hash)
      request name level read.packages = .ok collected := by
    unfold collectEntries
    dsimp only
    split_ifs
    · exact exists_foldlM_ok (fun st hash' => exists_addTransaction hdecodes hread st hash') _ _
    · exact ⟨_, rfl⟩
  have hreport : ∀ st entry, ∃ st', reportEntry env (savedAnswers saved tx hash) request level
      (savedEvents saved tx hash request.target.contract request.transactionHash) collected.facts st
      entry = .ok st' := fun st entry => exists_reportEntry hname _ _ st entry
  obtain ⟨st, hst⟩ := exists_foldlM_ok hreport collected.entries.values ⟨.empty, []⟩
  have hevents : (savedAnswers saved tx hash).events request.target.contract
      request.transactionHash =
      .ok (savedEvents saved tx hash request.target.contract request.transactionHash) := rfl
  rw [← (events_saved hsaved hrequested).1] at hread
  unfold verifyPackages
  rw [hrequest, ok_bind]
  dsimp only
  rw [hknown, ok_bind, if_neg Bool.false_ne_true, hevents, ok_bind, hread, ok_bind, hcollected,
    ok_bind]
  split_ifs
  · exact ⟨_, rfl⟩
  · rw [hst]
    exact ⟨_, rfl⟩

include hsaved in
/-- A run over saved bytes whose transaction is known has read its events. -/
lemma exists_read_of_report (hrequest : checkRequest request = .ok (name, level))
    (hrequested : ∀ requested, request.transactionHash = some requested → requested = hash)
    {report : VerifyReport}
    (hrun : verifyPackages env (savedAnswers saved tx hash) request = .ok report) :
    ∃ read, readPackages (rawEvents request hash tx) (readOptions request name) = .ok read := by
  have hreads : ∃ name' level' fetched read collected, VerificationReads env
      (savedAnswers saved tx hash) request name' level' fetched read collected := by
    rcases verifyPackages_cases hrun with
      ⟨-, -, hunknown | ⟨_, _, _, _, _, h, -⟩⟩ | ⟨_, _, _, _, _, _, h⟩
    · unfold isUnknown at hunknown
      cases htransaction : request.transactionHash with
      | none =>
        rw [htransaction] at hunknown
        cases hunknown
      | some requested =>
        rw [htransaction, hrequested requested htransaction] at hunknown
        simp [savedAnswers] at hunknown
    · exact ⟨_, _, _, _, _, h⟩
    · exact ⟨_, _, _, _, _, h.toVerificationReads⟩
  obtain ⟨name', level', fetched, read, collected, h⟩ := hreads
  cases h.accepted.symm.trans hrequest
  cases h.fetches
  refine ⟨read, ?_⟩
  rw [← (events_saved hsaved hrequested).1]
  exact h.reads

include hdecodes in
/-- The saved transaction is included when its status and its hash say so and no node is asked. -/
lemma includedBy_saved_iff {transaction : SourceTransaction} {decoded : Transaction} :
    IncludedBy env (savedAnswers saved tx hash) request hash transaction decoded ↔
      transaction = ⟨hash, saved.raw, saved.status, saved.block⟩ ∧ decoded = tx ∧
        saved.status ∈ includedStatuses ∧
        (∀ own, transactionHashOf tx = some own → own = hash) ∧
        request.crossCheckNode ≠ some true := by
  have hfound : (savedAnswers saved tx hash).transaction hash =
      .ok (some ⟨hash, saved.raw, saved.status, saved.block⟩) := by
    simp [savedAnswers]
  constructor
  · intro h
    cases hfound.symm.trans h.found
    cases hdecodes.symm.trans h.decodes
    refine ⟨rfl, rfl, h.included, h.ownHash, fun hasked => ?_⟩
    obtain ⟨_, _, _, hnode, -⟩ := h.node hasked
    cases hnode
  · intro h
    obtain ⟨rfl, rfl, hstatus, hown, hoffline⟩ := h
    exact ⟨hfound, hdecodes, hstatus, hown, fun hasked => absurd hasked hoffline⟩

/-- The package of an intent that logs the name is placed cleanly exactly when the intent is
verifiable. -/
lemma checkPlacement_saved_iff (hname : eventName request.target.name = .ok name) {segment : ℕ}
    (hne : named name (valuesAt tx request.target.contract segment) ≠ []) :
    checkPlacement tx request.target.toPlacementTarget segment
        (namedPayloads name (valuesAt tx request.target.contract segment)) = .ok [] ↔
      ∃ intent, tx.intents.get? segment = some intent ∧
        intent.Verifiable request.target.toPlacementTarget name := by
  let options : VerifyTransactionOptions :=
    { request.target.toPlacementTarget with
      network := request.target.network
      status := []
      transactionHash := none
      limits := none }
  rw [checkPlacement_eq, hname, Except.map, Except.ok.injEq]
  exact @placementIssues_extracted_iff tx options name segment hne

include hdecodes in
/-- The Levels 2 and 3 of an intent of the saved transaction. -/
lemma placementVerified_saved_iff {segment : ℕ} {parts : List Bytes} :
    (∃ transaction decoded, PlacementVerified env (savedAnswers saved tx hash) request name level
      (rawEvents request hash tx) hash segment parts transaction decoded) ↔
      (∀ requested, request.transactionHash = some requested → requested = hash) ∧
        (saved.status ∈ includedStatuses ∧
          (∀ own, transactionHashOf tx = some own → own = hash) ∧
          request.crossCheckNode ≠ some true) ∧
        checkPlacement tx request.target.toPlacementTarget segment parts = .ok [] ∧
        (3 ≤ level → ∃ expected, request.expectedVerifierKey = some expected ∧
          StoresKey env request expected saved.contractState) := by
  constructor
  · intro h
    obtain ⟨transaction, decoded, h⟩ := h
    obtain ⟨rfl, rfl, hincluded⟩ := (includedBy_saved_iff hdecodes).mp h.included
    refine ⟨fun requested hrequested => (h.requested requested hrequested).symm, hincluded, h.clean,
      fun hthree => ?_⟩
    obtain ⟨expected, state, hexpected, hstate, hstores⟩ := h.code hthree
    cases hstate
    exact ⟨expected, hexpected, hstores⟩
  · intro h
    obtain ⟨hrequested, hincluded, hclean, hcode⟩ := h
    refine ⟨_, tx, fun requested hasked => (hrequested requested hasked).symm,
      (includedBy_saved_iff hdecodes).mpr ⟨rfl, rfl, hincluded⟩, hclean, ?_, fun hthree => ?_⟩
    · -- The events are those of the raw bytes, so they lack nothing that the raw bytes show.
      intro e he hhead s hs hscope
      obtain ⟨_, _, -, rfl⟩ := exists_of_mem_events he
      refine List.ne_nil_of_mem (List.mem_filter.mpr ⟨he, ?_⟩)
      rw [decide_eq_true_eq]
      exact ⟨rfl, rfl, hhead, rfl, hs⟩
    · obtain ⟨expected, hexpected, hstores⟩ := hcode hthree
      exact ⟨expected, _, hexpected, rfl, hstores⟩

end Offline

end MultiPartEvent
