import MultiPartEvent.Cooperation
import MultiPartEvent.DeployTools.CacheOwner
import MultiPartEvent.DeployTools.Prover
import MultiPartEvent.DeployTools.WalletSync
import MultiPartEvent.Ledger

/-!
# Wallet sessions

`WalletSession` holds a running wallet: it waits for complete syncs, saves the cache, shows
balances, registers NIGHT for DUST generation, and balances and submits transactions.  Its methods
are asynchronous, so that the calls of one session interleave wherever one of them awaits; each is a
`Process` over the state of the session, with at least one step for each piece of code between two
awaits.

The wallet facade is the wallet SDK.  What it answers may depend on all that has happened before,
which is the history of the session.
-/

namespace MultiPartEvent

/-! ### What a session reads and reports -/

/-- `PublicWalletIdentity`. -/
structure PublicWalletIdentity extends WalletCacheIdentity where
  shieldedAddress : JsString

/-- A coin of the unshielded wallet. -/
structure UnshieldedCoin where
  /-- `utxo.type`. -/
  tokenType : JsString
  value : ℕ
  intentHash : JsString
  outputNo : ℕ
  /-- `meta.ctime`. -/
  ctime : JsDate
  registeredForDustGeneration : Bool
  deriving DecidableEq

/-- `FacadeState`: what a session reads of it. -/
structure FacadeState where
  progress : SyncProgressSource
  /-- `unshielded.availableCoins`. -/
  availableCoins : List UnshieldedCoin
  /-- `unshielded.balances`. -/
  unshieldedBalances : InsertionMap JsString ℕ
  /-- `shielded.balances`. -/
  shieldedBalances : InsertionMap JsString ℕ
  /-- `dust.balance(now)`. -/
  dustBalance : JsDate → ℕ
  /-- `serialize()` of the three wallets. -/
  serializeShielded : Except JsError JsString
  serializeUnshielded : Except JsError JsString
  serializeDust : Except JsError JsString

/-- The snapshots of a state. -/
def FacadeState.snapshots (state : FacadeState) : Except JsError WalletSnapshots := do
  let shielded ← state.serializeShielded
  let unshielded ← state.serializeUnshielded
  let dust ← state.serializeDust
  return ⟨shielded, unshielded, dust⟩

/-- `NightUtxo`. -/
structure NightUtxo where
  value : ℕ
  intentHash : JsString
  outputNo : ℕ
  ctime : JsString
  registeredForDustGeneration : Bool

/-- `WalletBalances`. -/
structure WalletBalances where
  night : ℕ
  dust : ℕ
  nightUtxos : List NightUtxo
  shielded : InsertionMap JsString ℕ

/-- The modes of a registration. -/
inductive RegistrationMode where
  | estimate
  | register

/-- `DustRegistrationReport`. -/
structure DustRegistrationReport where
  mode : RegistrationMode
  unregistered : ℕ
  fee : Option ℕ
  transactionId : Option JsString
  dustAfter : Option ℕ
  note : Option JsString

/-! ### The facade -/

/-- The calls a session makes of the facade, besides the subscription of a wait. -/
inductive FacadeCall where
  | estimateRegistration (coins : List UnshieldedCoin)
  | waitForGeneratedDust (coins : List UnshieldedCoin) (fee timeoutMs : ℕ)
  | registerNightUtxosForDustGeneration (coins : List UnshieldedCoin)
  | estimateTransactionFee (tx : Transaction) (ttl : JsDate)
  | balanceUnboundTransaction (tx : Transaction) (ttl : JsDate)
  | signRecipe (recipe : Opaque)
  | finalizeRecipe (recipe : Opaque)
  | submitTransaction (tx : Transaction)
  | stop

/-- What a call resolves with. -/
inductive FacadeValue where
  | none
  | fee (fee : ℕ)
  | recipe (recipe : Opaque)
  | transaction (tx : Transaction)
  | identifier (id : JsString)

/-- What happens in a session. -/
inductive SessionEvent where
  | log (line : JsString)
  | called (call : FacadeCall)
  | returned (call : FacadeCall) (value : FacadeValue)
  /-- A wait for a complete sync has resolved, after the events it observed. -/
  | synced (started : ℤ) (events : List (SyncEvent FacadeState)) (sync : CompleteSync FacadeState)
  /-- The cache has been saved. -/
  | saved (request : SaveRequest)
  /-- A timer has fired. -/
  | slept (milliseconds : ℕ)
  /-- The keys have been cleared. -/
  | cleared

/-- All that has happened in a session. -/
abbrev SessionHistory := List SessionEvent

/-- The events a wait observes until they settle it. -/
structure ObservedSync (settings : SyncSettings) where
  /-- `Date.now()` when the wait starts. -/
  started : ℤ
  events : List (SyncEvent FacadeState)
  outcome : Settlement FacadeState
  settled : (runSync FacadeState.progress settings started events).settlements = [outcome]

/-- `WalletFacade`: how its calls turn out.  What a call throws is told by its `errorText`. -/
structure WalletFacade where
  /-- What a wait over `state()` observes.  A wait that nothing settles is a process that never
  takes its next step. -/
  wait : (settings : SyncSettings) → SessionHistory → ObservedSync settings
  estimateRegistration : List UnshieldedCoin → SessionHistory → Except JsString ℕ
  waitForGeneratedDust : List UnshieldedCoin → ℕ → ℕ → SessionHistory → Except JsString Unit
  registerNightUtxosForDustGeneration :
    List UnshieldedCoin → SessionHistory → Except JsString Opaque
  estimateTransactionFee : Transaction → JsDate → SessionHistory → Except JsString ℕ
  balanceUnboundTransaction : Transaction → JsDate → SessionHistory → Except JsString Opaque
  signRecipe : Opaque → SessionHistory → Except JsString Opaque
  finalizeRecipe : Opaque → SessionHistory → Except JsString Transaction
  submitTransaction : Transaction → SessionHistory → Except JsString JsString
  stop : SessionHistory → Except JsString Unit

/-! ### A session and its state -/

/-- A session: the fields its methods read, and the process it runs in. -/
structure WalletSession where
  identity : PublicWalletIdentity
  facade : WalletFacade
  sync : SyncWaitOptions
  feeWaitMs : ℕ
  cacheFile : Option JsString
  /-- `ledger.nativeToken().raw`. -/
  nativeToken : JsString
  /-- `process.cwd()`. -/
  cwd : JsString
  /-- `process.pid`. -/
  pid : ℕ
  /-- `Date.now()`. -/
  now : SessionHistory → ℕ
  /-- `randomBytes(6)`. -/
  random : SessionHistory → Bytes
  /-- How the file-system calls of a save turn out. -/
  outcomes : SessionHistory → Outcomes

/-- The variables of a session, the files, and what has happened. -/
structure SessionState where
  /-- `#transacted`: this session has started to build a transaction. -/
  transacted : Bool
  syncedOnce : Bool
  savedProgress : Option JsString
  files : Files
  history : SessionHistory

/-- The variables of a new session. -/
def SessionState.start (files : Files) : SessionState := ⟨false, false, none, files, []⟩

/-- What a method of a session throws. -/
inductive SessionError where
  | language (error : JsError)
  | notSynced (error : WalletNotSynced)
  | file (error : FileError)
  /-- An error of the facade, with its `errorText`. -/
  | facade (text : JsString)

/-- Code between two awaits. -/
abbrev SessionAction := Action SessionError SessionState

/-- A method of a session. -/
abbrev SessionProcess := Process SessionError SessionState

/-- Something happens. -/
def happen (event : SessionEvent) : SessionAction Unit := fun s =>
  (.ok (), { s with history := s.history ++ [event] })

/-- The variables are assigned. -/
def assign (change : SessionState → SessionState) : SessionAction Unit := fun s =>
  (.ok (), change s)

/-- `Date.now()`. -/
def sessionNow (w : WalletSession) : SessionAction ℕ := Action.look fun s => w.now s.history

/-- `this.#log(line)`. -/
def sessionLog (line : JsString) : SessionAction Unit := happen (.log line)

/-- A call of the facade resolves, or it throws. -/
def receive {α : Type} (call : FacadeCall) (answer : SessionHistory → Except JsString α)
    (value : α → FacadeValue) : SessionAction α := fun s =>
  match answer s.history with
  | .ok a => (.ok a, { s with history := s.history ++ [.returned call (value a)] })
  | .error text => (.error (.facade text), s)

/-- `await this.#facade.call(…)`. -/
def askFacade {α : Type} (call : FacadeCall) (answer : SessionHistory → Except JsString α)
    (value : α → FacadeValue) : SessionProcess α := do
  happen (.called call)
  receive call answer value

/-- `await new Promise((resolveWait) => setTimeout(resolveWait, milliseconds))`. -/
def sleep (milliseconds : ℕ) : SessionProcess Unit := do
  happen (.slept milliseconds)

/-! ### Complete syncs and the cache -/

/-- `formatSyncProgress(progress)`, without targets. -/
def ownSyncProgress (progress : WalletSyncProgress) : JsString :=
  formatSyncProgress (some progress) fun name => (progress name).highest

/-- The first lines of `synced`: whether this is the first wait, which says so. -/
def announceSync (w : WalletSession) : SessionAction Bool := do
  let first ← Action.look fun s => !s.syncedOnce
  Action.runUnless (!first) do
    let timeoutMs := (w.sync.timeoutMs.getD (.int 3600000)).finite?.getD 0
    let progressMs := (w.sync.progressEveryMs.getD (.int 30000)).finite?.getD 0
    sessionLog (js ("wallet sync        waiting until the shielded, unshielded and DUST wallets " ++
      "have applied everything the indexer reports (a first sync downloads every ledger event " ++
      "and can take long; timeout ") ++ formatDuration timeoutMs ++ js ", progress every " ++
      formatDuration progressMs ++ js ")")
  return first

/-- `await waitForCompleteSync(this.#facade.state(), { ...this.#sync, log: this.#log })`.  The lines
of progress are logged while it waits; here they stand where it settles. -/
def waitSynced (w : WalletSession) : SessionAction (CompleteSync FacadeState) := fun s =>
  match syncSettings w.sync with
  | .error error => (.error (.language error), s)
  | .ok settings =>
    let observed := w.facade.wait settings s.history
    let lines := (runSync FacadeState.progress settings observed.started observed.events).lines
    let history := s.history ++ lines.map SessionEvent.log
    match observed.outcome with
    | .resolved sync =>
      (.ok sync, { s with history := history ++ [.synced observed.started observed.events sync] })
    | .notSynced error => (.error (.notSynced error), { s with history := history })
    | .failed error => (.error (.language error), { s with history := history })

/-- A save of the snapshots of a state: `saveWalletCache(path, this.identity, …)`. -/
def saveRequest (w : WalletSession) (snapshots : WalletSnapshots) (s : SessionState) :
    SaveRequest where
  identity := w.identity.toWalletCacheIdentity
  snapshots := snapshots
  now := .ofMilliseconds (w.now s.history)
  allowInsideRepository := false
  pid := w.pid
  random := w.random s.history

/-- The call of `saveWalletCache`, on the files of the session. -/
def saveSnapshots (w : WalletSession) (path : JsString) (snapshots : WalletSnapshots) :
    SessionAction Unit := fun s =>
  let request := saveRequest w snapshots s
  match saveWalletCache (fileSystem (w.outcomes s.history)) w.cwd path request s.files with
  | (.ok _, files) => (.ok (), { s with files := files, history := s.history ++ [.saved request] })
  | (.error error, files) => (.error (.file error), { s with files := files })

/-- Why a cache was not saved. -/
def notSavedLine : SessionError → JsString
  | .file (.walletCacheError path detail) =>
    js "wallet cache       not saved: wallet cache " ++ path ++ js ": " ++ detail
  | _ => js "wallet cache       not saved: the wallet state could not be serialized"

/-- The `try` block of `#saveCache`. -/
def trySave (w : WalletSession) (path : JsString) (state : FacadeState) (progress : JsString) :
    SessionAction Unit := do
  let snapshots ← (state.snapshots.mapError .language : Except SessionError WalletSnapshots)
  saveSnapshots w path snapshots
  assign fun s => { s with savedProgress := some progress }
  sessionLog (js "wallet cache       saved (" ++ progress ++ js ")")

/-- `#saveCache`: never fatal, and not after a transaction was started. -/
def WalletSession.saveCache (w : WalletSession) (state : FacadeState) (progress : JsString) :
    SessionAction Unit := do
  match w.cacheFile with
  | none => return ()
  | some path => do
    let skipped ← Action.look fun s => s.transacted || s.savedProgress == some progress
    Action.runUnless skipped
      (Action.catching (trySave w path state progress) fun error => sessionLog (notSavedLine error))

/-- The lines of `synced` after its wait. -/
def concludeSync (w : WalletSession) (first : Bool) (sync : CompleteSync FacadeState) :
    SessionAction FacadeState := do
  Action.runUnless (!first) do
    assign fun s => { s with syncedOnce := true }
    sessionLog (js "wallet synced      in " ++ formatDuration sync.elapsedMs ++ js ": " ++
      ownSyncProgress sync.progress)
  w.saveCache sync.state (ownSyncProgress sync.progress)
  return sync.state

/-- `synced()`. -/
def WalletSession.synced (w : WalletSession) : SessionProcess FacadeState := do
  let first ← announceSync w
  let sync ← waitSynced w
  concludeSync w first sync

/-! ### Balances -/

/-- One NIGHT UTxO of the report. -/
def nightUtxo (coin : UnshieldedCoin) : Except JsError NightUtxo := do
  let ctime ← coin.ctime.toISOString
  return ⟨coin.value, coin.intentHash, coin.outputNo, ctime, coin.registeredForDustGeneration⟩

/-- The balances of a state. -/
def WalletSession.balancesOf (w : WalletSession) (state : FacadeState) (now : ℕ) :
    Except JsError WalletBalances := do
  let nightUtxos ← (state.availableCoins.filter fun coin =>
    coin.tokenType = w.nativeToken).mapM nightUtxo
  return {
    night := (state.unshieldedBalances.get? w.nativeToken).getD 0
    dust := state.dustBalance (.ofMilliseconds now)
    nightUtxos := nightUtxos
    shielded := state.shieldedBalances }

/-- `balances()`. -/
def WalletSession.balances (w : WalletSession) : SessionProcess WalletBalances := do
  let state ← w.synced
  let now ← sessionNow w
  ((w.balancesOf state now).mapError .language : Except SessionError WalletBalances)

/-! ### Registration for DUST generation -/

/-- A coin that `registerForDust` registers: NIGHT that is not registered yet. -/
def UnshieldedCoin.isUnregistered (w : WalletSession) (coin : UnshieldedCoin) : Bool :=
  coin.tokenType = w.nativeToken && !coin.registeredForDustGeneration

/-- `this.#transacted = true`. -/
def startTransaction : SessionAction Unit := assign fun s => { s with transacted := true }

/-- The loop of `registerForDust` after its submission, as far as `rounds` rounds. -/
def awaitRegistered (w : WalletSession) (report : DustRegistrationReport) (deadline : ℕ) :
    ℕ → SessionProcess DustRegistrationReport
  | 0 => .done (.error (.facade (js "the run is followed no further")))
  | rounds + 1 => do
    sleep 6000
    let next ← w.synced
    let now ← sessionNow w
    let dust := next.dustBalance (.ofMilliseconds now)
    let registered := next.availableCoins.any fun coin =>
      coin.tokenType = w.nativeToken && coin.registeredForDustGeneration
    if registered && 0 < dust then return { report with dustAfter := some dust }
    else do
      let later ← sessionNow w
      if deadline < later then
        return { report with
          note := some (js "submitted, but no registered UTxO with DUST was observed in time") }
      else awaitRegistered w report deadline rounds

/-- `registerForDust(mode, { waitMs })`; `rounds` bounds how far its loop is followed. -/
def WalletSession.registerForDust (w : WalletSession) (mode : RegistrationMode) (waitMs : Option ℕ)
    (rounds : ℕ) : SessionProcess DustRegistrationReport := do
  let state ← w.synced
  let unregistered := state.availableCoins.filter (UnshieldedCoin.isUnregistered w)
  if unregistered = [] then
    return ⟨mode, 0, none, none, none, some (js "no unregistered NIGHT UTxO; nothing to do")⟩
  else do
    let fee ← askFacade (.estimateRegistration unregistered)
      (w.facade.estimateRegistration unregistered) .fee
    match mode with
    | .estimate => return ⟨mode, unregistered.length, some fee, none, none, none⟩
    | .register => do
      let timeoutMs := waitMs.getD 600000
      startTransaction
      askFacade (.waitForGeneratedDust unregistered fee timeoutMs)
        (w.facade.waitForGeneratedDust unregistered fee timeoutMs) fun _ => .none
      let recipe ← askFacade (.registerNightUtxosForDustGeneration unregistered)
        (w.facade.registerNightUtxosForDustGeneration unregistered) .recipe
      let finalized ← askFacade (.finalizeRecipe recipe) (w.facade.finalizeRecipe recipe)
        .transaction
      let transactionId ← askFacade (.submitTransaction finalized)
        (w.facade.submitTransaction finalized) .identifier
      sessionLog (js "DUST registration submitted: " ++ transactionId)
      let now ← sessionNow w
      awaitRegistered w ⟨mode, unregistered.length, some fee, some transactionId, none, none⟩
        (now + timeoutMs) rounds

/-! ### Balancing and submitting -/

/-- `/insufficient funds|could not balance dust/i.test(text)`. -/
def saysTooLittleDust (text : JsString) : Bool :=
  testIgnoringCase (js "insufficient funds") text ||
    testIgnoringCase (js "could not balance dust") text

/-- One try of `#waitForFeeBudget`: whether the fee could be estimated. -/
def tryEstimate (w : WalletSession) (tx : Transaction) (ttl : JsDate) : SessionAction Bool :=
  Action.catching
    (do
      let _ ← receive (.estimateTransactionFee tx ttl) (w.facade.estimateTransactionFee tx ttl) .fee
      return true)
    fun error =>
      match error with
      | .facade text => if saysTooLittleDust text then return false else Action.fail error
      | _ => Action.fail error

/-- The loop of `#waitForFeeBudget`, as far as `rounds` rounds. -/
def awaitFeeBudget (w : WalletSession) (tx : Transaction) (ttl : JsDate) (deadline : ℕ) :
    (announced : Bool) → ℕ → SessionProcess Unit
  | _, 0 => .done (.error (.facade (js "the run is followed no further")))
  | announced, rounds + 1 => do
    happen (.called (.estimateTransactionFee tx ttl))
    let enough ← tryEstimate w tx ttl
    if enough then return ()
    else do
      Action.runUnless announced
        (sessionLog (js "waiting for the wallet to hold enough DUST for the fee"))
      let now ← sessionNow w
      if deadline ≤ now then
        .done (.error (.language (.error (js "timed out waiting for enough DUST for the fee"))))
      else do
        sleep 5000
        awaitFeeBudget w tx ttl deadline true rounds

/-- `#waitForFeeBudget(tx, ttl)`. -/
def WalletSession.waitForFeeBudget (w : WalletSession) (tx : Transaction) (ttl : JsDate)
    (rounds : ℕ) : SessionProcess Unit := do
  let now ← sessionNow w
  awaitFeeBudget w tx ttl (now + w.feeWaitMs) false rounds

/-- `balancer().balanceTx(tx, ttl)`. -/
def WalletSession.balanceTx (w : WalletSession) (tx : Transaction) (ttl : Option JsDate)
    (rounds : ℕ) : SessionProcess Transaction := do
  startTransaction
  let now ← sessionNow w
  let transactionTtl := ttl.getD (.ofMilliseconds (now + 20 * 60 * 1000))
  w.waitForFeeBudget tx transactionTtl rounds
  let recipe ← askFacade (.balanceUnboundTransaction tx transactionTtl)
    (w.facade.balanceUnboundTransaction tx transactionTtl) .recipe
  let signed ← askFacade (.signRecipe recipe) (w.facade.signRecipe recipe) .recipe
  askFacade (.finalizeRecipe signed) (w.facade.finalizeRecipe signed) .transaction

/-- `submitter().submitTx(tx)`. -/
def WalletSession.submitTx (w : WalletSession) (tx : Transaction) : SessionProcess JsString :=
  askFacade (.submitTransaction tx) (w.facade.submitTransaction tx) .identifier

/-- `close()`: the keys are cleared whether the facade stops or throws. -/
def WalletSession.close (w : WalletSession) : SessionProcess Unit := do
  happen (.called .stop)
  Action.ending (receive .stop w.facade.stop fun _ => .none) (happen .cleared)

/-! ### The calls of a session -/

/-- A call of a method of a session. -/
inductive SessionCall where
  | synced
  | balances
  | registerForDust (mode : RegistrationMode) (waitMs : Option ℕ)
  | balanceTx (tx : Transaction) (ttl : Option JsDate)
  | submitTx (tx : Transaction)
  | close

/-- The process of a call, its loops followed as far as `rounds` rounds. -/
def SessionCall.process (w : WalletSession) (rounds : ℕ) : SessionCall → SessionProcess Unit
  | .synced => do let _ ← w.synced
  | .balances => do let _ ← w.balances
  | .registerForDust mode waitMs => do let _ ← w.registerForDust mode waitMs rounds
  | .balanceTx tx ttl => do let _ ← w.balanceTx tx ttl rounds
  | .submitTx tx => do let _ ← w.submitTx tx
  | .close => do let _ ← w.close

end MultiPartEvent
