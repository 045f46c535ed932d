import MultiPartEvent.DeployTools.SharedRecord
import MultiPartEvent.Indexer.Waiting

/-!
# Waiting for inclusion

The commands wait for a submitted transaction until a minute after its TTL, and at least for a
minute.  The service they ask is `waitForTransaction` on the public indexer, which may lag behind
the chain and be slow to answer.

A command does not report a transaction as unseen that the indexer serves early enough: one round of
queries before the minute after the TTL is over (`reportedInclusion_sees`).  The clock of the
command is read before the wait starts, so the deadline of the wait can only be later.
-/

namespace MultiPartEvent

/-- `toIncluded(tx)`. -/
def toIncluded (tx : IdentifiedTransaction) : IncludedTransaction where
  hash := tx.hash
  rawHex := tx.rawHex
  status := tx.status.getD []
  identifiers := tx.identifiers
  blockHeight := .int tx.block.height
  blockHash := tx.block.hash

/-- What the wait of the opened services comes to, unless it goes on for ever. -/
def Polled.inclusion : Polled IdentifiedTransaction → Option (Option IncludedTransaction)
  | .found tx => some (some (toIncluded tx))
  | .timedOut => some none
  | .polling => none

section Inclusion

variable {σ : Type} {world : IndexerWorld σ} {machine : Machine} {services : ChainServices}
  {stateAt : History → σ} {perQuery nap : ℕ} {identifiers : List JsString} {identifier : JsString}

/-- The wait of the opened services: the identifiers of a transaction and a timeout, with the poll
interval of `waitForTransaction`. -/
def waitForIdentifiers (world : IndexerWorld σ) (identifiers : List JsString)
    (timeoutMs : JsNumber) (rounds : ℕ) : Action RequestError σ (Polled IdentifiedTransaction) :=
  waitForTransaction world ⟨some identifiers, none⟩ ⟨some timeoutMs, none⟩ rounds

/-- The services wait for these identifiers on an indexer, whose world is in the state `stateAt`
when a command has come to a point of its history. -/
structure WaitsOn (world : IndexerWorld σ) (machine : Machine) (services : ChainServices)
    (stateAt : History → σ) (identifiers : List JsString) : Prop where
  /-- The clock is read before the wait starts. -/
  clock : ∀ history, machine.now history ≤ world.now (stateAt history)
  /-- The service returns what the wait comes to. -/
  returns : ∀ history timeoutMs rounds polled s' inclusion,
    (waitForIdentifiers world identifiers timeoutMs rounds).Returns (stateAt history) polled s' →
      polled.inclusion = some inclusion →
        services.waitForInclusion history identifiers timeoutMs = .ok inclusion
  /-- The service throws when the wait does. -/
  throws : ∀ history timeoutMs rounds err s',
    (waitForIdentifiers world identifiers timeoutMs rounds).Throws (stateAt history) err s' →
      ∃ err', services.waitForInclusion history identifiers timeoutMs = .error err'

/-- The transaction is the first of an answer to one of the identifiers. -/
def AnswersOneOf (world : IndexerWorld σ) (identifiers : List JsString)
    (tx : IdentifiedTransaction) : Prop :=
  ∃ asked ∈ identifiers, ∃ others s s',
    (world.transactionsByIdentifier asked).Returns s (tx :: others) s'

/-- A wait for identifiers only makes one query for each. -/
lemma queries_identifiers :
    world.queries ⟨some identifiers, none⟩ = identifiers.map world.transactionsByIdentifier := by
  simp [IndexerWorld.queries]

/-- What a wait finds is an answer to one of the identifiers. -/
lemma answered_of_found {timeoutMs : ℕ} {rounds : ℕ} {s s' : σ} {tx : IdentifiedTransaction}
    (h : (waitForIdentifiers world identifiers (.int timeoutMs) rounds).Returns s (.found tx) s') :
    AnswersOneOf world identifiers tx := by
  unfold Action.Returns waitForIdentifiers at h
  rw [waitForTransaction_int] at h
  obtain ⟨start, -, hlast⟩ := Action.exists_last_round h (by simp)
  rcases hlast with ⟨found, heq, hfound⟩ | ⟨heq, -⟩ | ⟨err, heq, -⟩
  · cases heq
    obtain ⟨query, hquery, others, asked, hanswer⟩ := firstFound_returns_some hfound
    rw [queries_identifiers] at hquery
    obtain ⟨identifier, hidentifier, rfl⟩ := List.mem_map.mp hquery
    exact ⟨identifier, hidentifier, others, asked, s', hanswer⟩
  · cases heq
  · cases heq

/-- A wait whose deadline is late enough ends with an answer to one of the identifiers, or a query
throws. -/
lemma waitForIdentifiers_ends (htimely : world.Timely defaultPollMs perQuery nap)
    (hmem : identifier ∈ identifiers) {known : ℕ}
    (hknown : ∀ s s', known ≤ world.now s →
      ¬(world.transactionsByIdentifier identifier).Returns s [] s') {timeoutMs : ℕ} {s : σ}
    (hearly : known + (identifiers.length * perQuery + nap) ≤ world.now s + timeoutMs) :
    (∃ rounds tx s',
      (waitForIdentifiers world identifiers (.int timeoutMs) rounds).Returns s (.found tx) s') ∨
        ∃ rounds err s',
          (waitForIdentifiers world identifiers (.int timeoutMs) rounds).Throws s err s' := by
  have hpolls : ∀ rounds, waitForIdentifiers world identifiers (.int timeoutMs) rounds s = _ :=
    fun rounds => waitForTransaction_int rounds s
  have hclock := htimely.movesOnClock ⟨some identifiers, none⟩
  obtain ⟨rounds, hends⟩ := Action.pollUntil_ends hclock (world.now s + timeoutMs) s
  rcases Action.returns_or_throws (waitForIdentifiers world identifiers (.int timeoutMs) rounds) s
    with ⟨polled, s', hreturns⟩ | ⟨err, s', hthrows⟩
  · have hreturned := (hpolls rounds).symm.trans hreturns
    cases polled with
    | found tx => exact Or.inl ⟨rounds, tx, s', hreturns⟩
    | polling => exact absurd hreturned (hends s')
    | timedOut =>
      refine absurd hreturned (Action.pollUntil_finds hclock (fun s middle hround => ?_)
        (fun asked later hlate hround => ?_) hearly rounds s s')
      · have htime := htimely.round hround
        rw [queries_identifiers, List.length_map] at htime
        exact htime
      · -- the query of the identifier is made in the round, and not before it
        obtain ⟨asked', answered, hafter, hempty⟩ := firstFound_returns_none
          (fun query hquery s s' hanswer => (htimely.query query hquery s s' hanswer).1) hround
          (world.transactionsByIdentifier identifier) (by
            rw [queries_identifiers]
            exact List.mem_map_of_mem hmem)
        exact hknown asked' answered (hlate.trans hafter) hempty
  · exact Or.inr ⟨rounds, err, s', hthrows⟩

/-- The timeout of a TTL: whole milliseconds, which end at least a minute after the TTL. -/
lemma inclusionTimeout_returns (machine : Machine) {ttl : JsDate} {time : ℕ}
    (httl : ttl.time = some time) (c : CommandState) :
    ∃ timeoutMs : ℕ, (inclusionTimeout machine ttl).Returns c (.int timeoutMs) c ∧
      time + 60000 ≤ machine.now c.history + timeoutMs := by
  refine ⟨(max 60000 ((time : ℤ) - machine.now c.history + 60000)).toNat, ?_, ?_⟩
  · unfold inclusionTimeout
    rw [Action.returns_look_iff, httl]
    refine ⟨?_, rfl⟩
    have hwhole : max 60000 ((time : ℤ) - machine.now c.history + 60000) =
        (max 60000 ((time : ℤ) - machine.now c.history + 60000)).toNat := by omega
    exact congrArg JsNumber.int hwhole
  · omega

/-- **A transaction that the indexer serves in time is not reported as unseen.**  Let the indexer
answer the query for one of the identifiers with a transaction from the time `indexed` on, and let
that time be a round of queries before the minute after the TTL is over.  Then waiting for inclusion
returns the first transaction of an answer to one of the identifiers, or ends with the error of a
request; never with the message that the transaction was not seen. -/
theorem reportedInclusion_sees (htimely : world.Timely defaultPollMs perQuery nap)
    (hwaits : WaitsOn world machine services stateAt identifiers) (hmem : identifier ∈ identifiers)
    {ttl : JsDate} {time : ℕ} (httl : ttl.time = some time) {indexed : ℕ}
    (hindexed : ∀ s s', indexed ≤ world.now s →
      ¬(world.transactionsByIdentifier identifier).Returns s [] s')
    (hearly : indexed + (identifiers.length * perQuery + nap) ≤ time + 60000)
    (notSeen : JsString) (c : CommandState) :
    (∃ tx, (reportedInclusion machine services identifiers ttl notSeen c).1 =
      .ok (toIncluded tx) ∧ AnswersOneOf world identifiers tx) ∨
        ∃ err, (reportedInclusion machine services identifiers ttl notSeen c).1 =
          .error (.library err) := by
  obtain ⟨timeoutMs, htimeout, hdeadline⟩ := inclusionTimeout_returns machine httl c
  have hclock := hwaits.clock c.history
  have hlate : indexed + (identifiers.length * perQuery + nap) ≤
      world.now (stateAt c.history) + timeoutMs := by omega
  have hends := waitForIdentifiers_ends htimely hmem hindexed hlate
  have hreported : (reportedInclusion machine services identifiers ttl notSeen c).1 =
      ((services.waitForInclusion c.history identifiers (.int timeoutMs)).mapError .library >>=
        fun inclusion => required inclusion notSeen) := by
    unfold reportedInclusion
    rw [htimeout.bind]
    rcases hservice : services.waitForInclusion c.history identifiers (.int timeoutMs) with
      err | inclusion
    · have hthrows : (waitForInclusion services identifiers (.int timeoutMs)).Throws c
          (.library err) (waitForInclusion services identifiers (.int timeoutMs) c).2 := by
        refine Prod.ext ?_ rfl
        change ((services.waitForInclusion c.history identifiers (.int timeoutMs)).mapError
          CommandError.library) = _
        rw [hservice]
        rfl
      rw [hthrows.bind]
      rfl
    · have hreturns : (waitForInclusion services identifiers (.int timeoutMs)).Returns c
          inclusion (waitForInclusion services identifiers (.int timeoutMs) c).2 := by
        refine Prod.ext ?_ rfl
        change ((services.waitForInclusion c.history identifiers (.int timeoutMs)).mapError
          CommandError.library) = _
        rw [hservice]
        rfl
      rw [hreturns.bind]
      rfl
  rw [hreported]
  rcases hends with ⟨rounds, tx, s', hfound⟩ | ⟨rounds, err, s', hthrows⟩
  · rw [hwaits.returns _ _ _ _ _ (some (toIncluded tx)) hfound rfl]
    exact Or.inl ⟨tx, rfl, answered_of_found hfound⟩
  · obtain ⟨err', herror⟩ := hwaits.throws _ _ _ _ _ hthrows
    rw [herror]
    exact Or.inr ⟨err', rfl⟩

end Inclusion

/-- A transaction in block 7. -/
def laggingTransaction : RawTransaction where
  typename := js "RegularTransaction"
  hash := js "aa"
  raw := js "bb"
  identifiers := some [js "00"]
  transactionResult := some ⟨js "SUCCESS", none⟩
  fee := none
  block := some ⟨some (js "cc"), some (.int 7), some (.int 1500), none, none⟩

/-- A clock for an indexer that serves the transaction from the time 2000 on. -/
def laggingIndexer : IndexerWorld ℕ where
  now := id
  fetched := fun _ time _ =>
    .ok ⟨200, .json ⟨none, some (if time < 2000 then [] else [laggingTransaction])⟩⟩
  queried := fun _ time => time + 10
  slept := fun _ time => time + 3000
  maxAttempts := 4

/-- The transaction as it is found. -/
def laggingFound : IdentifiedTransaction where
  typename := js "RegularTransaction"
  hash := js "aa"
  rawHex := js "bb"
  identifiers := [js "00"]
  status := some (js "SUCCESS")
  segments := none
  fee := none
  block := ⟨js "cc", 7⟩

/-- Services that wait on this indexer from the time 1000 on. -/
def laggingServices : ChainServices :=
  { sampleServices with
    waitForInclusion := fun _ _ timeoutMs =>
      .ok (if timeIsUp 1000 timeoutMs 1010 then none else some (toIncluded laggingFound)) }

/-- The wait from the time 1000 on sleeps once, unless its time is up by then. -/
lemma waitsOn_lagging :
    WaitsOn laggingIndexer (sampleMachine 1) laggingServices (fun _ => 1000) [js "00"] := by
  have hfirst : (firstFound (laggingIndexer.queries ⟨some [js "00"], none⟩)).Returns 1000 none
      1010 := rfl
  have hsecond : (firstFound (laggingIndexer.queries ⟨some [js "00"], none⟩)).Returns 4010
      (some laggingFound) 4020 := rfl
  have hwait : ∀ timeoutMs rounds,
      waitForIdentifiers laggingIndexer [js "00"] timeoutMs (rounds + 1) 1000 =
        if timeIsUp 1000 timeoutMs 1010 then (.ok .timedOut, 1010)
        else if rounds = 0 then (.ok .polling, 4010) else (.ok (.found laggingFound), 4020) := by
    intro timeoutMs rounds
    refine (Action.pollUntil_of_none hfirst).trans ?_
    cases rounds with
    | zero => rfl
    | succ rounds =>
      rw [if_neg (Nat.succ_ne_zero rounds)]
      exact congrArg _ (Action.pollUntil_of_found hsecond)
  constructor
  · intro history
    exact le_refl 1000
  · intro history timeoutMs rounds polled s' inclusion hreturns hended
    cases rounds with
    | zero =>
      cases hreturns
      cases hended
    | succ rounds =>
      unfold Action.Returns at hreturns
      rw [hwait] at hreturns
      change Except.ok (if timeIsUp 1000 timeoutMs 1010 then none
        else some (toIncluded laggingFound)) = _
      by_cases hup : timeIsUp 1000 timeoutMs 1010 = true
      · rw [if_pos hup] at hreturns ⊢
        cases hreturns
        cases hended
        rfl
      · rw [if_neg hup] at hreturns ⊢
        by_cases hzero : rounds = 0
        · rw [if_pos hzero] at hreturns
          cases hreturns
          cases hended
        · rw [if_neg hzero] at hreturns
          cases hreturns
          cases hended
          rfl
  · intro history timeoutMs rounds err s' hthrows
    cases rounds with
    | zero => cases hthrows
    | succ rounds =>
      unfold Action.Throws at hthrows
      rw [hwait] at hthrows
      split at hthrows
      · cases hthrows
      · split at hthrows <;> cases hthrows

/-- The transaction is served a second after the command starts to wait. -/
theorem reportedInclusion_sees_lagging :
    (∃ tx, (reportedInclusion (sampleMachine 1) laggingServices [js "00"]
        (JsDate.ofMilliseconds 3000) (js "not seen") ⟨fun _ => none, []⟩).1 =
      .ok (toIncluded tx) ∧ AnswersOneOf laggingIndexer [js "00"] tx) ∨
        ∃ err, (reportedInclusion (sampleMachine 1) laggingServices [js "00"]
          (JsDate.ofMilliseconds 3000) (js "not seen") ⟨fun _ => none, []⟩).1 =
            .error (.library err) := by
  have htimely : laggingIndexer.Timely defaultPollMs 10 3000 :=
    ⟨fun offset time => ⟨Nat.le_add_right time 10, le_refl (time + 10)⟩,
      fun time => ⟨Nat.lt_add_of_pos_right (by omega), le_refl (time + 3000)⟩⟩
  have hindexed : ∀ time time', 2000 ≤ laggingIndexer.now time →
      ¬(laggingIndexer.transactionsByIdentifier (js "00")).Returns time [] time' := by
    intro time time' hlate hempty
    have hserved : laggingIndexer.transactionsByIdentifier (js "00") time =
        ((if time < 2000 then [] else [laggingTransaction]).mapM toTransaction, time + 10) := rfl
    unfold Action.Returns at hempty
    have hafter : ¬time < 2000 := Nat.not_lt.mpr hlate
    rw [hserved, if_neg hafter] at hempty
    cases hempty
  exact reportedInclusion_sees htimely waitsOn_lagging List.mem_cons_self rfl hindexed
    (by decide) (js "not seen") ⟨fun _ => none, []⟩

end MultiPartEvent
