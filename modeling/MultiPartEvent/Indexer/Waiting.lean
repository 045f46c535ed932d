import MultiPartEvent.Cli.IndexerSource
import MultiPartEvent.Indexer.Paging
import MultiPartEvent.Indexer.Requests
import MultiPartEvent.Polling

/-!
# Waiting for a transaction

`waitForTransaction` asks the indexer for a transaction again and again, by each of its identifiers
and by its hash, until one of the queries has an answer or the timeout has passed.  Between two
queries the world goes on: the chain grows, the indexer lags behind it, requests fail and are
retried.  `IndexerWorld` is all of that as a state with a clock; what comes of a query depends on
the state it is made in.

A round of queries comes to nothing exactly when every query in it is answered with no transaction
(`firstFound_returns_none`), and what it finds is the first of an answer
(`firstFound_returns_some`).
-/

namespace MultiPartEvent

/-! ### What the indexer serves -/

/-- A block as the indexer serves it. -/
structure RawBlock where
  /-- `hash`, if it is a string. -/
  hash : Option JsString
  /-- `height`, if it is a number. -/
  height : Option JsNumber
  /-- `timestamp`, if it is a number. -/
  timestamp : Option JsNumber
  protocolVersion : Option JsNumber
  ledgerParameters : Option JsString

/-- A block as the indexer reports it. -/
structure IndexedBlock where
  hash : JsString
  height : ℤ
  /-- Milliseconds since the Unix epoch. -/
  timestampMs : ℤ
  protocolVersion : Option JsNumber
  /-- Serialized ledger parameters, hex. -/
  ledgerParametersHex : Option JsString

/-- The value of a number for which `Number.isSafeInteger` holds. -/
def JsNumber.safeInteger? : JsNumber → Option ℤ
  | .int z => if z.natAbs ≤ maxSafeInteger then some z else none
  | .other _ => none

/-- The checked form of a served block, which may be missing. -/
def toBlock (block : Option RawBlock) (what : JsString) : Except RequestError IndexedBlock :=
  let shape := RequestError.publicData .shape
    (what ++ js ": block has no hash, height or timestamp")
  match block with
  | none => .error shape
  | some block =>
    match block.hash, block.height.bind JsNumber.safeInteger?,
      block.timestamp.bind JsNumber.safeInteger? with
    | some hash, some height, some timestamp =>
      .ok ⟨hash, height, timestamp, block.protocolVersion, block.ledgerParameters⟩
    | _, _, _ => .error shape

/-- The result of a served transaction. -/
structure RawTransactionResult where
  status : JsString
  segments : Option (List (ℕ × Bool))

/-- A transaction as the indexer serves it. -/
structure RawTransaction where
  typename : JsString
  hash : JsString
  raw : JsString
  identifiers : Option (List JsString)
  transactionResult : Option RawTransactionResult
  fee : Option JsString
  block : Option RawBlock

/-- A transaction as the indexer reports it, with its identifiers. -/
structure IdentifiedTransaction extends IndexedTransaction where
  typename : JsString
  identifiers : List JsString
  segments : Option (List (ℕ × Bool))
  fee : Option JsString

/-- The checked form of a served transaction. -/
def toTransaction (tx : RawTransaction) : Except RequestError IdentifiedTransaction := do
  let block ← toBlock tx.block (js "transaction " ++ tx.hash)
  return {
    typename := tx.typename
    hash := tx.hash
    rawHex := tx.raw
    identifiers := tx.identifiers.getD []
    status := tx.transactionResult.map RawTransactionResult.status
    segments := tx.transactionResult.bind RawTransactionResult.segments
    fee := tx.fee
    block := ⟨block.hash, block.height⟩ }

/-! ### The client in a world that goes on -/

/-- What a `transactions` query asks for. -/
inductive TransactionsOffset where
  | hash (hash : JsString)
  | identifier (identifier : JsString)

/-- The world of an indexer client: the states it goes through, and what comes of a query in each
of them. -/
structure IndexerWorld (σ : Type) where
  /-- `Date.now()`. -/
  now : σ → ℕ
  /-- What comes of each attempt of a query that starts in a state. -/
  fetched : TransactionsOffset → σ → ℕ → Fetched (GraphqlBody (List RawTransaction))
  /-- The state when a query that starts in a state is over, after all its attempts. -/
  queried : TransactionsOffset → σ → σ
  /-- The state after a sleep of so many milliseconds. -/
  slept : JsNumber → σ → σ
  maxAttempts : ℕ

namespace IndexerWorld

variable {σ : Type}

/-- One `transactions` query. -/
def transactions (world : IndexerWorld σ) (offset : TransactionsOffset) :
    Action RequestError σ (List IdentifiedTransaction) := fun s =>
  ((query (world.fetched offset s) world.maxAttempts).result >>= List.mapM toTransaction,
    world.queried offset s)

/-- Transactions with this hash. -/
def transactionsByHash (world : IndexerWorld σ) (hash : JsString) :
    Action RequestError σ (List IdentifiedTransaction) := do
  let hash ← ((normalizeHex hash (js "transaction hash")).mapError
    (fun err => .uncaught err.message) : Except RequestError JsString)
  world.transactions (.hash hash)

/-- The transaction that carries this identifier, if included. -/
def transactionsByIdentifier (world : IndexerWorld σ) (identifier : JsString) :
    Action RequestError σ (List IdentifiedTransaction) := do
  let identifier ← ((normalizeHex identifier (js "transaction identifier")).mapError
    (fun err => .uncaught err.message) : Except RequestError JsString)
  world.transactions (.identifier identifier)

end IndexerWorld

/-! ### The wait -/

/-- The first transaction of the first answer that has one; the queries after it are not made. -/
def firstFound {ε σ α : Type} : List (Action ε σ (List α)) → Action ε σ (Option α)
  | [] => pure none
  | query :: queries => do
    match ← query with
    | found :: _ => return some found
    | [] => firstFound queries

/-- The transaction to wait for. -/
structure WaitTarget where
  identifiers : Option (List JsString)
  hash : Option JsString

/-- Options of `waitForTransaction`. -/
structure WaitOptions where
  /-- Give up after this many milliseconds. -/
  timeoutMs : Option JsNumber
  /-- Poll interval. -/
  pollMs : Option JsNumber

/-- The default of `timeoutMs`. -/
def defaultWaitTimeoutMs : JsNumber := .int 600000

/-- The default of `pollMs`. -/
def defaultPollMs : JsNumber := .int 3000

/-- `now >= deadline`, where the deadline is `timeoutMs` after the start.  The commands ask for
whole milliseconds, or for `NaN`, which is never reached. -/
def timeIsUp (start : ℕ) (timeoutMs : JsNumber) (now : ℕ) : Bool :=
  match timeoutMs.finite? with
  | some value => start + value ≤ now
  | none => timeoutMs.text = js "-Infinity"

/-- The queries of one round. -/
def IndexerWorld.queries {σ : Type} (world : IndexerWorld σ) (target : WaitTarget) :
    List (Action RequestError σ (List IdentifiedTransaction)) :=
  (target.identifiers.getD []).map world.transactionsByIdentifier ++
    target.hash.toList.map world.transactionsByHash

/-- Poll the indexer until a transaction carrying any of the identifiers, or with the hash, appears,
for at most so many rounds. -/
def waitForTransaction {σ : Type} (world : IndexerWorld σ) (target : WaitTarget)
    (options : WaitOptions) (rounds : ℕ) :
    Action RequestError σ (Polled IdentifiedTransaction) := do
  let start ← Action.look world.now
  Action.pollUntil (firstFound (world.queries target))
    (fun s => timeIsUp start (options.timeoutMs.getD defaultWaitTimeoutMs) (world.now s))
    (world.slept (options.pollMs.getD defaultPollMs)) rounds

/-! ### A round -/

section Round

variable {ε σ α : Type} {queries : List (Action ε σ (List α))} {s s' : σ} {found : α}

/-- What a round finds is the first of an answer to one of its queries. -/
lemma firstFound_returns_some (h : (firstFound queries).Returns s (some found) s') :
    ∃ query ∈ queries, ∃ others asked, query.Returns asked (found :: others) s' := by
  induction queries generalizing s with
  | nil => simp [firstFound] at h
  | cons query queries ih =>
    obtain ⟨answer, middle, hanswer, hrest⟩ := Action.returns_bind_iff.mp h
    cases answer with
    | nil =>
      obtain ⟨other, hother, hfound⟩ := ih hrest
      exact ⟨other, List.mem_cons_of_mem _ hother, hfound⟩
    | cons first others =>
      obtain ⟨heq, rfl⟩ := Action.returns_pure_iff.mp hrest
      cases heq
      exact ⟨query, List.mem_cons_self, others, s, hanswer⟩

/-- A round that finds nothing has made each of its queries and was answered with nothing. -/
lemma firstFound_returns_none {now : σ → ℕ}
    (hclock : ∀ query ∈ queries, ∀ s s', query.Returns s [] s' → now s ≤ now s')
    (h : (firstFound queries).Returns s none s') :
    ∀ query ∈ queries, ∃ asked answered, now s ≤ now asked ∧ query.Returns asked [] answered := by
  induction queries generalizing s with
  | nil => simp
  | cons query queries ih =>
    obtain ⟨answer, middle, hanswer, hrest⟩ := Action.returns_bind_iff.mp h
    cases answer with
    | cons first others => simp at hrest
    | nil =>
      have hmoved := hclock query List.mem_cons_self s middle hanswer
      intro other hother
      rcases List.mem_cons.mp hother with rfl | htail
      · exact ⟨s, middle, le_refl _, hanswer⟩
      · obtain ⟨asked, answered, hlater, hempty⟩ :=
          ih (fun query hquery => hclock query (List.mem_cons_of_mem _ hquery)) hrest other htail
        exact ⟨asked, answered, hmoved.trans hlater, hempty⟩

/-- A round that finds nothing takes at most the time of its queries, and never turns the clock
back. -/
lemma firstFound_time {now : σ → ℕ} {perQuery : ℕ}
    (hclock : ∀ query ∈ queries, ∀ s s', query.Returns s [] s' →
      now s ≤ now s' ∧ now s' ≤ now s + perQuery)
    (h : (firstFound queries).Returns s none s') :
    now s ≤ now s' ∧ now s' ≤ now s + queries.length * perQuery := by
  induction queries generalizing s with
  | nil =>
    obtain ⟨-, rfl⟩ := Action.returns_pure_iff.mp h
    simp
  | cons query queries ih =>
    obtain ⟨answer, middle, hanswer, hrest⟩ := Action.returns_bind_iff.mp h
    cases answer with
    | cons first others => simp at hrest
    | nil =>
      obtain ⟨hmoved, hquery⟩ := hclock query List.mem_cons_self s middle hanswer
      obtain ⟨hlater, hothers⟩ :=
        ih (fun query hquery => hclock query (List.mem_cons_of_mem _ hquery)) hrest
      rw [List.length_cons, Nat.add_mul, Nat.one_mul]
      exact ⟨by omega, by omega⟩

end Round

/-! ### The clock of the world -/

section Clock

variable {σ : Type} {world : IndexerWorld σ} {pollMs : JsNumber} {perQuery nap : ℕ}

/-- The indexer and the timer are not late: a query is over within `perQuery` milliseconds, with all
its attempts, and a sleep takes some time, but at most `nap` milliseconds. -/
structure IndexerWorld.Timely (world : IndexerWorld σ) (pollMs : JsNumber) (perQuery nap : ℕ) :
    Prop where
  queried : ∀ offset s, world.now s ≤ world.now (world.queried offset s) ∧
    world.now (world.queried offset s) ≤ world.now s + perQuery
  slept : ∀ s, world.now s < world.now (world.slept pollMs s) ∧
    world.now (world.slept pollMs s) ≤ world.now s + nap

namespace IndexerWorld.Timely

/-- Each query of a round takes its time. -/
lemma query (h : world.Timely pollMs perQuery nap) {target : WaitTarget} :
    ∀ query ∈ world.queries target, ∀ s s', query.Returns s [] s' →
      world.now s ≤ world.now s' ∧ world.now s' ≤ world.now s + perQuery := by
  intro query hquery s s' hanswer
  -- each query is one `transactions` query, after its argument is checked
  have hone : ∃ offset, s' = world.queried offset s := by
    rcases List.mem_append.mp hquery with hidentifier | hhash
    · obtain ⟨identifier, -, rfl⟩ := List.mem_map.mp hidentifier
      obtain ⟨normalized, middle, hchecked, hasked⟩ := Action.returns_bind_iff.mp hanswer
      obtain ⟨-, rfl⟩ := Action.returns_lift_iff.mp hchecked
      exact ⟨.identifier normalized, (Prod.ext_iff.mp hasked).2.symm⟩
    · obtain ⟨hash, -, rfl⟩ := List.mem_map.mp hhash
      obtain ⟨normalized, middle, hchecked, hasked⟩ := Action.returns_bind_iff.mp hanswer
      obtain ⟨-, rfl⟩ := Action.returns_lift_iff.mp hchecked
      exact ⟨.hash normalized, (Prod.ext_iff.mp hasked).2.symm⟩
  obtain ⟨offset, rfl⟩ := hone
  exact h.queried offset s

/-- The clock moves on while the loop waits. -/
lemma movesOnClock (h : world.Timely pollMs perQuery nap) (target : WaitTarget) :
    Action.MovesOnClock world.now (firstFound (world.queries target)) (world.slept pollMs) := by
  constructor
  · intro s s' hround
    exact (firstFound_time h.query hround).1
  · intro s
    exact (h.slept s).1

/-- A round that waits is over after the time of its queries and of the sleep. -/
lemma round (h : world.Timely pollMs perQuery nap) {target : WaitTarget} {s middle : σ}
    (hround : (firstFound (world.queries target)).Returns s none middle) :
    world.now (world.slept pollMs middle) ≤
      world.now s + ((world.queries target).length * perQuery + nap) := by
  have hqueries := (firstFound_time h.query hround).2
  have hsleep := (h.slept middle).2
  omega

end IndexerWorld.Timely

/-- For whole milliseconds the deadline is a time. -/
lemma timeIsUp_int (start wait now : ℕ) :
    timeIsUp start (.int wait) now = decide (start + wait ≤ now) := by
  have hfinite : (JsNumber.int wait).finite? = some ((wait : ℤ) : ℚ) := rfl
  rw [timeIsUp, hfinite]
  apply decide_eq_decide.mpr
  exact_mod_cast Iff.rfl

/-- With a timeout of whole milliseconds, the wait is polling until the deadline. -/
lemma waitForTransaction_int {target : WaitTarget} {wait : ℕ} {pollMs : Option JsNumber}
    (rounds : ℕ) (s : σ) :
    waitForTransaction world target ⟨some (.int wait), pollMs⟩ rounds s =
      Action.pollUntil (firstFound (world.queries target))
        (fun later => decide (world.now s + wait ≤ world.now later))
        (world.slept (pollMs.getD defaultPollMs)) rounds s := by
  have hlook : (Action.look world.now : Action RequestError σ ℕ).Returns s (world.now s) s := rfl
  rw [waitForTransaction, hlook.bind]
  congr 1
  funext later
  exact timeIsUp_int (world.now s) wait (world.now later)

end Clock

end MultiPartEvent
