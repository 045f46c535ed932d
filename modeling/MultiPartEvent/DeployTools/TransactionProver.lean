import MultiPartEvent.DeployTools.IntentChecks

/-!
# The prover of the tools

`proverFromEndpoint` makes a prover of a proof server: the ledger proves the calls of a transaction
through an endpoint that limits and repeats its requests, and what comes back has to be a proven,
unbound transaction of this ledger module.

Whatever the server answers, and whether the run returns or throws, the wallet is asked to balance
nothing but a transaction that passed: proven, and still what was built (`balanced_proven`).

How the ledger proves is a parameter, which is given the limits of the endpoint; what the requests
do under them is `proverStep`.
-/

namespace MultiPartEvent

/-! ### The prover -/

/-- Retry and concurrency policy, without what the delays use. -/
structure ProverPolicy where
  /-- Largest number of requests in flight (default 4). -/
  maxConcurrent : Option JsNumber
  /-- Attempts per request, including the first (default 5). -/
  maxAttempts : Option JsNumber
  /-- Per-request timeout in milliseconds when `proveTx` gets none (default 600000). -/
  requestTimeoutMs : Option JsNumber

/-- What limits the requests of one proof. -/
structure ProofLimits where
  maxConcurrent : ℕ
  maxAttempts : ℕ
  timeoutMs : JsNumber

/-- `positive`. -/
def ProverPolicy.positive (value : JsNumber) (name : JsString) : Except JsError ℕ :=
  match value.inRange 1 maxSafeInteger with
  | some n => .ok n
  | none => .error (.rangeError (name ++ js " must be a positive integer"))

/-- Wrap a proving endpoint with the concurrency limit and bounded retries. -/
def limitedProvingEndpoint (policy : ProverPolicy) : Except JsError (JsNumber → ProofLimits) := do
  let maxAttempts ← ProverPolicy.positive (policy.maxAttempts.getD (.int 5)) (js "maxAttempts")
  let maxConcurrent ← ProverPolicy.positive (policy.maxConcurrent.getD (.int 4))
    (js "maxConcurrent")
  return fun timeoutMs => ⟨maxConcurrent, maxAttempts, timeoutMs⟩

/-- What `Transaction.prove` answers, as far as it is told apart. -/
inductive ProofAnswer where
  | transaction (tx : Transaction)
  | bytes
  /-- An object with a `version` and a `tx`. -/
  | versioned
  | other

/-- `ProverAnswerError`.  Nobody asks for its class. -/
def proverAnswerError (detail : JsString) : JsError :=
  .error (js "prover answer refused: " ++ detail)

/-- The markers of a proven, unbound transaction. -/
def provenMarkers : Markers := ⟨js "signature", js "proof", js "pre-binding"⟩

/-- Require a proven, unbound transaction of this process's ledger module. -/
def requireProvenTransaction (ledger : LedgerModule) (answer : ProofAnswer) :
    Except JsError Transaction :=
  match answer with
  | .bytes => .error (proverAnswerError
      (js "got serialized bytes, expected a live ledger-v9 transaction"))
  | .versioned => .error (proverAnswerError
      (js ("got a version-tagged payload (\x7b version, tx \x7d); " ++
        "this repository's seams carry plain ledger-v9 objects")))
  | .other => .error (proverAnswerError
      (js "not a transaction of this process's @midnightntwrk/ledger-v9 module"))
  | .transaction proven =>
    match ledger.deserialize provenMarkers proven.serialize with
    | .ok _ => .ok proven
    | .error err => .error (proverAnswerError
        (js "the transaction is not proven and unbound (" ++ err.message ++ js ")"))

/-- Prove through an endpoint, and check the answer.  Without a timeout the one of the policy
counts. -/
def proverFromEndpoint (ledger : LedgerModule)
    (prove : ProofLimits → Transaction → Except JsError ProofAnswer) (policy : ProverPolicy) :
    Except JsError (Transaction → Option JsNumber → Except JsError Transaction) := do
  let providerFor ← limitedProvingEndpoint policy
  let defaultTimeout ← ProverPolicy.positive (policy.requestTimeoutMs.getD (.int 600000))
    (js "requestTimeoutMs")
  return fun tx timeout => do
    let answer ← prove (providerFor (timeout.getD (.int defaultTimeout))) tx
    requireProvenTransaction ledger answer

/-- The providers of a finalization with this prover. -/
def proverProviders (proveTx : Transaction → Option JsNumber → Except JsError Transaction)
    (balanceTx : Transaction → JsDate → Except JsError ProviderAnswer) : Providers where
  proveTx tx timeout := (proveTx tx (some timeout)).map .transaction
  balanceTx := balanceTx

section Proofs

variable {ledger : LedgerModule} {prove : ProofLimits → Transaction → Except JsError ProofAnswer}
  {policy : ProverPolicy} {tx proven : Transaction}

/-- A transaction whose bytes are those of a proven, unbound one. -/
def IsProven (ledger : LedgerModule) (tx : Transaction) : Prop :=
  ∃ read, ledger.deserialize provenMarkers tx.serialize = .ok read

/-- What an answer has to be. -/
lemma requireProvenTransaction_eq_ok_iff {answer : ProofAnswer} :
    requireProvenTransaction ledger answer = .ok proven ↔
      answer = .transaction proven ∧ IsProven ledger proven := by
  cases answer with
  | transaction tx =>
    unfold requireProvenTransaction IsProven
    dsimp only
    constructor
    · intro h
      split at h
      next read hread =>
        cases h
        exact ⟨rfl, read, hread⟩
      next => cases h
    · intro h
      obtain ⟨hsame, read, hread⟩ := h
      cases hsame
      rw [hread]
  | bytes => simp [requireProvenTransaction]
  | versioned => simp [requireProvenTransaction]
  | other => simp [requireProvenTransaction]

/-- A positive integer of the policy. -/
lemma positive_eq_ok_iff {value : JsNumber} {name : JsString} {n : ℕ} :
    ProverPolicy.positive value name = .ok n ↔ value = .int n ∧ 1 ≤ n ∧ n ≤ maxSafeInteger := by
  rw [← JsNumber.inRange_eq_some]
  unfold ProverPolicy.positive
  cases value.inRange 1 maxSafeInteger <;> simp

/-- The limits are those of the policy, where it names none at most 4 requests in flight and 5
attempts, with the timeout of the proof. -/
structure LimitsOf (policy : ProverPolicy) (timeout : JsNumber) (limits : ProofLimits) : Prop where
  concurrent : policy.maxConcurrent.getD (.int 4) = .int limits.maxConcurrent
  attempts : policy.maxAttempts.getD (.int 5) = .int limits.maxAttempts
  timeout : limits.timeoutMs = timeout
  positive : 1 ≤ limits.maxConcurrent ∧ 1 ≤ limits.maxAttempts

/-- An endpoint works under the limits of its policy. -/
lemma limitsOf_of_limitedProvingEndpoint {providerFor : JsNumber → ProofLimits}
    (h : limitedProvingEndpoint policy = .ok providerFor) (timeout : JsNumber) :
    LimitsOf policy timeout (providerFor timeout) := by
  obtain ⟨maxAttempts, hattempts, h⟩ := bind_eq_ok_iff.mp h
  obtain ⟨maxConcurrent, hconcurrent, h⟩ := bind_eq_ok_iff.mp h
  rw [pure_eq_ok_iff] at h
  subst h
  obtain ⟨hattempts, honeAttempt, -⟩ := positive_eq_ok_iff.mp hattempts
  obtain ⟨hconcurrent, hone, -⟩ := positive_eq_ok_iff.mp hconcurrent
  exact ⟨hconcurrent, hattempts, rfl, hone, honeAttempt⟩

/-- How a transaction has been proven: the ledger answered with it, under the limits of the
policy. -/
structure ProvenBy (ledger : LedgerModule)
    (prove : ProofLimits → Transaction → Except JsError ProofAnswer) (policy : ProverPolicy)
    (tx : Transaction) (timeout : JsNumber) (proven : Transaction) : Prop where
  answered : ∃ limits, LimitsOf policy timeout limits ∧
    prove limits tx = .ok (.transaction proven)
  unbound : IsProven ledger proven

/-- **A prover hands on proven transactions only.** -/
lemma provenBy_of_proverFromEndpoint
    {proveTx : Transaction → Option JsNumber → Except JsError Transaction}
    (hprover : proverFromEndpoint ledger prove policy = .ok proveTx) {timeout : JsNumber}
    (h : proveTx tx (some timeout) = .ok proven) :
    ProvenBy ledger prove policy tx timeout proven := by
  obtain ⟨providerFor, hlimits, hprover⟩ := bind_eq_ok_iff.mp hprover
  obtain ⟨defaultTimeout, -, hprover⟩ := bind_eq_ok_iff.mp hprover
  rw [pure_eq_ok_iff] at hprover
  subst hprover
  obtain ⟨answer, hanswer, h⟩ := bind_eq_ok_iff.mp h
  obtain ⟨rfl, hunbound⟩ := requireProvenTransaction_eq_ok_iff.mp h
  exact ⟨⟨_, limitsOf_of_limitedProvingEndpoint hlimits timeout, hanswer⟩, hunbound⟩

end Proofs

/-! ### What the wallet is given -/

namespace Run

variable {κ α β : Type}

/-- After code that calls nobody, the calls are those of the rest, if it comes to that. -/
lemma mem_calls_lift_bind {result : Except JsError α} {f : α → Run κ β} {c : κ}
    (h : c ∈ ((MonadLiftT.monadLift result : Run κ α) >>= f).calls) :
    ∃ a, result = .ok a ∧ c ∈ (f a).calls := by
  cases result with
  | error err =>
    rw [lift_error_bind] at h
    cases h
  | ok a => exact ⟨a, rfl, h⟩

/-- After a call, the calls are that call and those of the rest, if it is answered. -/
lemma mem_calls_call_bind {c d : κ} {answer : Except JsError α} {f : α → Run κ β}
    (h : d ∈ (call c answer >>= f).calls) :
    d = c ∨ ∃ a, answer = .ok a ∧ d ∈ (f a).calls := by
  cases answer with
  | error err => exact Or.inl (List.mem_singleton.mp h)
  | ok a =>
    rcases List.mem_cons.mp h with hfirst | hrest
    · exact Or.inl hfirst
    · exact Or.inr ⟨a, rfl, hrest⟩

end Run

/-- A finalization: of packages, or of a transaction with its own intent. -/
inductive Finalization where
  | packages (built : BuiltTransaction) (options : FinalizeOptions)
  | own (own : OwnIntent) (unproven : Transaction) (options : FinalizeTransactionOptions)

namespace Finalization

/-- What a finalization calls. -/
def calls (env : FinalizeEnv) (providers : Providers) : Finalization → List ProviderCall
  | packages built options => (finalizeTransactionPackages env providers built options).calls
  | own intent unproven options =>
    (finalizeTransaction env providers unproven { options with check := intent.check }).calls

/-- The transaction that is to be proven. -/
def unproven : Finalization → Transaction
  | packages built _ => built.transaction
  | own _ unproven _ => unproven

/-- The timeout of its proof. -/
def timeout : Finalization → JsNumber
  | packages _ options => options.proofTimeoutMs
  | own _ _ options => options.proofTimeoutMs

/-- The TTL of its intents. -/
def ttl : Finalization → JsDate
  | packages built _ => built.ttl
  | own _ _ options => options.ttl

/-- A transaction holds what was built: every package, with the transcripts as they were frozen, or
the own intent. -/
def HeldBy : Finalization → Transaction → Prop
  | packages built _, tx => ∀ (index : ℕ) pkg, built.packages[index]? = some pkg →
      ∃ segment intent, HoldsPackage tx pkg built.frozenTranscripts[index]? segment intent
  | own intent _ _, tx => intent.HeldBy tx

end Finalization

/-- What the wallet may be asked to balance. -/
structure MayBalance (ledger : LedgerModule)
    (prove : ProofLimits → Transaction → Except JsError ProofAnswer) (policy : ProverPolicy)
    (f : Finalization) (tx : Transaction) (ttl : JsDate) : Prop where
  proven : ProvenBy ledger prove policy f.unproven f.timeout tx
  built : f.HeldBy f.unproven
  held : f.HeldBy tx
  ttl : ttl = f.ttl

section Balanced

variable {env : FinalizeEnv} {prove : ProofLimits → Transaction → Except JsError ProofAnswer}
  {policy : ProverPolicy} {proveTx : Transaction → Option JsNumber → Except JsError Transaction}
  {balanceTx : Transaction → JsDate → Except JsError ProviderAnswer} {tx : Transaction}
  {ttl : JsDate}

/-- What the prover of the tools answers a finalization is proven. -/
lemma provenBy_of_proverProviders
    (hprover : proverFromEndpoint env.ledger prove policy = .ok proveTx) {unproven : Transaction}
    {timeout : JsNumber}
    (h : (proverProviders proveTx balanceTx).proveTx unproven timeout = .ok (.transaction tx)) :
    ProvenBy env.ledger prove policy unproven timeout tx := by
  cases hproven : proveTx unproven (some timeout) with
  | error err =>
    simp only [proverProviders, hproven] at h
    cases h
  | ok proven =>
    simp only [proverProviders, hproven] at h
    cases h
    exact provenBy_of_proverFromEndpoint hprover hproven

/-- The wallet's part of a finalization of packages. -/
lemma mayBalance_packages (hprover : proverFromEndpoint env.ledger prove policy = .ok proveTx)
    {built : BuiltTransaction} {options : FinalizeOptions}
    (h : .balanceTx tx ttl ∈ (finalizeTransactionPackages env (proverProviders proveTx balanceTx)
      built options).calls) :
    MayBalance env.ledger prove policy (.packages built options) tx ttl := by
  unfold finalizeTransactionPackages at h
  obtain ⟨_, -, h⟩ := Run.mem_calls_lift_bind h
  obtain ⟨⟨⟩, hunproven, h⟩ := Run.mem_calls_lift_bind h
  rcases Run.mem_calls_call_bind h with h | ⟨answer, hproves, h⟩
  · cases h
  obtain ⟨proven, hproven, h⟩ := Run.mem_calls_lift_bind h
  obtain ⟨⟨⟩, hheld, h⟩ := Run.mem_calls_lift_bind h
  obtain ⟨_, -, h⟩ := Run.mem_calls_lift_bind h
  rcases Run.mem_calls_call_bind h with h | ⟨answer', -, h⟩
  · cases h
    rw [requireLedgerTransaction_eq_ok_iff] at hproven
    subst hproven
    exact ⟨provenBy_of_proverProviders hprover hproves,
      (assertTransactionPackages_eq_ok_iff.mp hunproven).2.2,
      (assertTransactionPackages_eq_ok_iff.mp hheld).2.2, rfl⟩
  · -- Nothing is called after the wallet has answered.
    obtain ⟨_, -, h⟩ := Run.mem_calls_lift_bind h
    obtain ⟨_, -, h⟩ := Run.mem_calls_lift_bind h
    obtain ⟨_, -, h⟩ := Run.mem_calls_lift_bind h
    obtain ⟨_, -, h⟩ := Run.mem_calls_lift_bind h
    obtain ⟨_, -, h⟩ := Run.mem_calls_lift_bind h
    cases h

/-- What the wallet is given in a finalization of a transaction with an own intent. -/
lemma mayBalance_own (hprover : proverFromEndpoint env.ledger prove policy = .ok proveTx)
    {own : OwnIntent} {unproven : Transaction} {options : FinalizeTransactionOptions}
    (h : .balanceTx tx ttl ∈ (finalizeTransaction env (proverProviders proveTx balanceTx)
      unproven { options with check := own.check }).calls) :
    MayBalance env.ledger prove policy (.own own unproven options) tx ttl := by
  unfold finalizeTransaction at h
  obtain ⟨⟨⟩, hunproven, h⟩ := Run.mem_calls_lift_bind h
  rcases Run.mem_calls_call_bind h with h | ⟨answer, hproves, h⟩
  · cases h
  obtain ⟨proven, hproven, h⟩ := Run.mem_calls_lift_bind h
  obtain ⟨⟨⟩, hheld, h⟩ := Run.mem_calls_lift_bind h
  obtain ⟨_, -, h⟩ := Run.mem_calls_lift_bind h
  rcases Run.mem_calls_call_bind h with h | ⟨answer', -, h⟩
  · cases h
    rw [requireTransaction_eq_ok_iff] at hproven
    subst hproven
    exact ⟨provenBy_of_proverProviders hprover hproves, OwnIntent.check_eq_ok_iff.mp hunproven,
      OwnIntent.check_eq_ok_iff.mp hheld, rfl⟩
  · obtain ⟨_, -, h⟩ := Run.mem_calls_lift_bind h
    obtain ⟨_, -, h⟩ := Run.mem_calls_lift_bind h
    obtain ⟨_, -, h⟩ := Run.mem_calls_lift_bind h
    obtain ⟨_, -, h⟩ := Run.mem_calls_lift_bind h
    obtain ⟨_, -, h⟩ := Run.mem_calls_lift_bind h
    obtain ⟨_, -, h⟩ := Run.mem_calls_lift_bind h
    cases h

/-- **The wallet balances what has been proven and is what was built.**  With the prover of the
tools, whatever the proof server and the wallet answer, and whether the finalization returns or
throws, it asks the wallet to balance only a transaction that the ledger has proven under the
limits of the policy, that is proven and unbound, and that still holds what was built. -/
theorem balanced_proven (hprover : proverFromEndpoint env.ledger prove policy = .ok proveTx)
    (balanceTx : Transaction → JsDate → Except JsError ProviderAnswer) (f : Finalization)
    (hcall : .balanceTx tx ttl ∈ f.calls env (proverProviders proveTx balanceTx)) :
    MayBalance env.ledger prove policy f tx ttl := by
  cases f with
  | packages built options => exact mayBalance_packages hprover hcall
  | own intent unproven options => exact mayBalance_own hprover hcall

end Balanced

/-- The transaction of one call as it is proven, before it is bound. -/
def provenOnePart : Transaction := { onePartTransaction with serialize := [1], ownHash := none }

/-- An environment whose ledger reads it in its own form, and the bound one in the final form. -/
def provingEnv : FinalizeEnv where
  ledger :=
    { deserialize := fun markers bytes =>
        if markers = provenMarkers ∧ bytes = provenOnePart.serialize then .ok provenOnePart
        else if markers = finalMarkers ∧ bytes = onePartTransaction.serialize then
          .ok onePartTransaction
        else .error (.error (js "invalid bytes"))
      deserializeEvent := fun _ => .error (.error [])
      deserializeState := fun _ => .error (.error []) }
  normalizedCost := fun _ _ => .ok [(js "readTime", 1 / 2)]
  toFixed := fun _ => []

/-- The wallet is asked. -/
def ProviderCall.isBalance : ProviderCall → Bool
  | .proveTx _ _ => false
  | .balanceTx _ _ => true

/-- The call of one part is proven under the default policy, and balanced. -/
theorem balanced_proven_one_call :
    ∃ proveTx ttl, proverFromEndpoint provingEnv.ledger
        (fun _ _ => .ok (.transaction provenOnePart)) ⟨none, none, none⟩ = .ok proveTx ∧
      MayBalance provingEnv.ledger (fun _ _ => .ok (.transaction provenOnePart)) ⟨none, none, none⟩
        (.own (.call ⟨List.replicate 64 (hexUnit 10), js "emitPart", 5⟩) onePartTransaction
          oneCallOptions) provenOnePart ttl := by
  have hprover : proverFromEndpoint provingEnv.ledger
      (fun _ _ => .ok (.transaction provenOnePart)) ⟨none, none, none⟩ = .ok fun _ _ =>
        requireProvenTransaction provingEnv.ledger (.transaction provenOnePart) := rfl
  have hcalls : ((Finalization.own (.call ⟨List.replicate 64 (hexUnit 10), js "emitPart", 5⟩)
      onePartTransaction oneCallOptions).calls provingEnv (proverProviders
        (fun _ _ => requireProvenTransaction provingEnv.ledger (.transaction provenOnePart))
        fun _ _ => .ok (.transaction onePartTransaction))).any ProviderCall.isBalance = true := by
    decide +kernel
  obtain ⟨call, hmem, hcall⟩ := List.any_eq_true.mp hcalls
  cases call with
  | proveTx tx timeout => cases hcall
  | balanceTx tx ttl =>
    have hbalanced := balanced_proven hprover _ _ hmem
    obtain ⟨limits, -, hanswer⟩ := hbalanced.proven.answered
    cases hanswer
    exact ⟨_, ttl, hprover, hbalanced⟩

end MultiPartEvent
