import MultiPartEvent.DeployTools.CircuitCall
import MultiPartEvent.DeployTools.Deploy
import MultiPartEvent.Publisher.Submission

/-!
# What the checks of the own intent accept

A deployment and a circuit call are checked at every stage of their finalization and once more
before they are submitted.  Both checks go through the whole transaction, whatever others have
merged into it, and both are exact: the first accepts the transactions that deploy the built
contract, and nothing else, in an intent of its own (`deployIntentCheck_eq_ok_iff`), the second
those with the one guaranteed call (`callIntentCheck_eq_ok_iff`).

Neither looks at the stage but to name it in its error.  So the transaction that a finalization has
recorded holds the own intent at every stage and is submitted from its saved bytes
(`finalizedIntent_submitted`); however the record is edited, nothing else gets past the gate
(`savedIntent_gate`).
-/

namespace MultiPartEvent

/-- A loop that checks every element and adds up a count of each. -/
lemma foldlM_count_iff {α ε : Type} {f : ℕ → α → Except ε ℕ} {P : α → Prop} {count : α → ℕ}
    {l : List α} (hstep : ∀ n n', ∀ a ∈ l, f n a = .ok n' ↔ P a ∧ n' = n + count a) {n n' : ℕ} :
    l.foldlM f n = .ok n' ↔ (∀ a ∈ l, P a) ∧ n' = n + (l.map count).sum := by
  induction l generalizing n with
  | nil =>
    rw [List.foldlM_nil, pure_eq_ok_iff]
    simp [eq_comm]
  | cons a l ih =>
    obtain ⟨hfirst, hrest⟩ : (∀ n n', f n a = .ok n' ↔ P a ∧ n' = n + count a) ∧
        ∀ n n', ∀ a ∈ l, f n a = .ok n' ↔ P a ∧ n' = n + count a :=
      ⟨fun n n' => hstep n n' a List.mem_cons_self,
        fun n n' b hb => hstep n n' b (List.mem_cons_of_mem _ hb)⟩
    rw [List.foldlM_cons, bind_eq_ok_iff, List.forall_mem_cons, List.map_cons, List.sum_cons]
    constructor
    · intro h
      obtain ⟨middle, hmiddle, hlast⟩ := h
      obtain ⟨ha, rfl⟩ := (hfirst n middle).mp hmiddle
      obtain ⟨hl, rfl⟩ := (ih hrest).mp hlast
      exact ⟨⟨ha, hl⟩, by omega⟩
    · intro h
      obtain ⟨⟨ha, hl⟩, rfl⟩ := h
      exact ⟨n + count a, (hfirst n _).mpr ⟨ha, rfl⟩, (ih hrest).mpr ⟨hl, by omega⟩⟩

/-! ### Deployments -/

section Deployments

variable {env : DeployEnv} {built : BuiltDeploy} {tx : Transaction} {stage : JsString}
  {intent : Intent} {action : ContractAction}

/-- The contract an action deploys, if it deploys one. -/
def deployed? (env : DeployEnv) : ContractAction → Option ContractDeploy
  | .other content => env.deployOf content
  | .call _ => none

/-- All that a transaction deploys. -/
def deploysOf (env : DeployEnv) (tx : Transaction) : List ContractDeploy :=
  tx.intents.values.flatMap fun intent => intent.actions.filterMap (deployed? env)

/-- What a transaction holds that deploys exactly the built contract. -/
structure HoldsDeploy (env : DeployEnv) (built : BuiltDeploy) (tx : Transaction) : Prop where
  /-- One deployment, of the built state at the built address. -/
  one : deploysOf env tx = [⟨built.address, built.stateBytes⟩]
  /-- It is alone in its intent. -/
  alone : ∀ intent ∈ tx.intents.values, ∀ action ∈ intent.actions,
    (deployed? env action).isSome = true → intent.actions.length = 1
  /-- The contract is not called before it is there. -/
  uncalled : ∀ intent ∈ tx.intents.values, ∀ call, ContractAction.call call ∈ intent.actions →
    call.address ≠ built.address

/-- What the check asks of one action. -/
structure AcceptsAction (env : DeployEnv) (built : BuiltDeploy) (intent : Intent)
    (action : ContractAction) : Prop where
  deploys : ∀ deploy, deployed? env action = some deploy →
    deploy = ⟨built.address, built.stateBytes⟩ ∧ intent.actions.length = 1
  calls : ∀ call, action = .call call → call.address ≠ built.address

/-- The check asks of a call that it is not of the deployed contract. -/
lemma acceptsAction_call_iff {call : ContractCall} :
    AcceptsAction env built intent (.call call) ↔ call.address ≠ built.address := by
  constructor
  · intro h
    exact h.calls call rfl
  · intro h
    refine ⟨fun deploy hdeploy => (by cases hdeploy), fun other hcall => ?_⟩
    cases hcall
    exact h

/-- The check asks of a deployment that it is the built one, alone in its intent. -/
lemma acceptsAction_deploy_iff {deploy : ContractDeploy}
    (hdeploy : deployed? env action = some deploy) :
    AcceptsAction env built intent action ↔
      deploy = ⟨built.address, built.stateBytes⟩ ∧ intent.actions.length = 1 := by
  constructor
  · intro h
    exact h.deploys deploy hdeploy
  · intro h
    refine ⟨fun other hother => ?_, fun call hcall => ?_⟩
    · cases hdeploy.symm.trans hother
      exact h
    · subst hcall
      cases hdeploy

/-- The check asks nothing of an action that is neither a call nor a deployment. -/
lemma acceptsAction_other {content : Opaque} (hnone : env.deployOf content = none) :
    AcceptsAction env built intent (.other content) :=
  ⟨fun _ hdeploy => (by cases hnone.symm.trans hdeploy), fun _ hcall => (by cases hcall)⟩

/-- One step of the loop: the action is accepted, and counted if it is a deployment. -/
lemma checkDeployAction_eq_ok_iff {found found' : ℕ} :
    checkDeployAction env built stage intent found action = .ok found' ↔
      AcceptsAction env built intent action ∧
        found' = found + (deployed? env action).toList.length := by
  unfold checkDeployAction
  cases action with
  | call call =>
    dsimp only
    rw [acceptsAction_call_iff, bind_eq_ok_iff]
    constructor
    · intro h
      obtain ⟨_, hother, h⟩ := h
      rw [pure_eq_ok_iff] at h
      exact ⟨throwIf_eq_ok_iff.mp hother, h.symm⟩
    · intro h
      obtain ⟨hother, rfl⟩ := h
      exact ⟨(), throwIf_eq_ok_iff.mpr hother, rfl⟩
  | other content =>
    dsimp only
    cases hdeploy : env.deployOf content with
    | none =>
      have hnone : deployed? env (.other content) = none := hdeploy
      dsimp only
      rw [pure_eq_ok_iff, hnone]
      constructor
      · intro h
        exact ⟨acceptsAction_other hdeploy, h.symm⟩
      · intro h
        exact h.2.symm
    | some deploy =>
      have hsome : deployed? env (.other content) = some deploy := hdeploy
      dsimp only
      rw [acceptsAction_deploy_iff hsome, hsome]
      constructor
      · intro h
        obtain ⟨_, haddress, h⟩ := bind_eq_ok_iff.mp h
        obtain ⟨_, hstate, h⟩ := bind_eq_ok_iff.mp h
        obtain ⟨_, halone, hfound⟩ := bind_eq_ok_iff.mp h
        rw [throwIf_eq_ok_iff, not_not] at haddress halone
        rw [throwIf_eq_ok_iff, Bool.not_eq_false, bytesEqual_iff] at hstate
        rw [pure_eq_ok_iff] at hfound
        cases deploy
        cases haddress
        cases hstate
        exact ⟨⟨rfl, halone⟩, hfound.symm⟩
      · intro h
        obtain ⟨⟨rfl, halone⟩, rfl⟩ := h
        refine bind_eq_ok_iff.mpr ⟨(), throwIf_eq_ok_iff.mpr (not_not.mpr rfl),
          bind_eq_ok_iff.mpr ⟨(), throwIf_eq_ok_iff.mpr ?_, bind_eq_ok_iff.mpr
            ⟨(), throwIf_eq_ok_iff.mpr (not_not.mpr halone), rfl⟩⟩⟩
        rw [Bool.not_eq_false, bytesEqual_iff]

/-- The counts of the actions are the numbers of deployments. -/
lemma sum_deployed (actions : List ContractAction) :
    (actions.map fun action => (deployed? env action).toList.length).sum =
      (actions.filterMap (deployed? env)).length := by
  induction actions with
  | nil => rfl
  | cons action actions ih =>
    rw [List.map_cons, List.sum_cons, ih]
    cases hdeploy : deployed? env action with
    | none =>
      rw [List.filterMap_cons_none hdeploy, Option.toList_none, List.length_nil, Nat.zero_add]
    | some deploy =>
      rw [List.filterMap_cons_some hdeploy, List.length_cons, Option.toList_some,
        List.length_singleton, Nat.add_comm]

/-- The loop over all intents accepts every action and counts the deployments. -/
lemma checkIntents_eq_ok_iff {found : ℕ} :
    (tx.intents.values.foldlM (fun found intent =>
      intent.actions.foldlM (checkDeployAction env built stage intent) found) 0) = .ok found ↔
        (∀ intent ∈ tx.intents.values, ∀ action ∈ intent.actions,
          AcceptsAction env built intent action) ∧ found = (deploysOf env tx).length := by
  have hintent : ∀ n n', ∀ intent ∈ tx.intents.values,
      intent.actions.foldlM (checkDeployAction env built stage intent) n = .ok n' ↔
        (∀ action ∈ intent.actions, AcceptsAction env built intent action) ∧
          n' = n + (intent.actions.filterMap (deployed? env)).length := by
    intro n n' intent _
    have hstep : ∀ n n', ∀ action ∈ intent.actions,
        checkDeployAction env built stage intent n action = .ok n' ↔
          AcceptsAction env built intent action ∧
            n' = n + (deployed? env action).toList.length :=
      fun _ _ _ _ => checkDeployAction_eq_ok_iff
    rw [foldlM_count_iff hstep, sum_deployed]
  rw [foldlM_count_iff hintent, deploysOf, List.length_flatMap, Nat.zero_add]

/-- What a transaction deploys, some action of it does. -/
lemma mem_deploysOf_iff {deploy : ContractDeploy} : deploy ∈ deploysOf env tx ↔
    ∃ intent ∈ tx.intents.values, ∃ action ∈ intent.actions,
      deployed? env action = some deploy := by
  simp only [deploysOf, List.mem_flatMap, List.mem_filterMap]

/-- **The check of a deployment is exact.**  It accepts a transaction exactly when this deploys the
built contract and no other, in an intent of its own, and does not call it. -/
theorem deployIntentCheck_eq_ok_iff :
    deployIntentCheck env built tx stage = .ok () ↔ HoldsDeploy env built tx := by
  unfold deployIntentCheck
  rw [bind_eq_ok_iff]
  constructor
  · intro h
    obtain ⟨found, hfound, hone⟩ := h
    rw [throwIf_eq_ok_iff, not_not] at hone
    subst hone
    obtain ⟨haccepts, hlength⟩ := checkIntents_eq_ok_iff.mp hfound
    obtain ⟨deploy, hdeploys⟩ := List.length_eq_one_iff.mp hlength.symm
    refine ⟨?_, ?_, ?_⟩
    · obtain ⟨intent, hintent, action, haction, hsome⟩ :=
        mem_deploysOf_iff.mp (hdeploys ▸ List.mem_singleton_self deploy)
      rw [hdeploys, ((haccepts intent hintent action haction).deploys deploy hsome).1]
    · intro intent hintent action haction hsome
      obtain ⟨other, hother⟩ := Option.isSome_iff_exists.mp hsome
      exact ((haccepts intent hintent action haction).deploys other hother).2
    · intro intent hintent call hcall
      exact acceptsAction_call_iff.mp (haccepts intent hintent _ hcall)
  · intro h
    refine ⟨1, checkIntents_eq_ok_iff.mpr ⟨fun intent hintent action haction => ⟨?_, ?_⟩, ?_⟩,
      throwIf_eq_ok_iff.mpr (not_not.mpr rfl)⟩
    · intro deploy hsome
      have hdeploy : deploy ∈ deploysOf env tx :=
        mem_deploysOf_iff.mpr ⟨intent, hintent, action, haction, hsome⟩
      rw [h.one, List.mem_singleton] at hdeploy
      exact ⟨hdeploy, h.alone intent hintent action haction (by rw [hsome]; rfl)⟩
    · intro call hcall
      exact h.uncalled intent hintent call (hcall ▸ haction)
    · rw [h.one, List.length_singleton]

end Deployments

/-! ### Circuit calls -/

section Calls

variable {built : CallTarget} {tx : Transaction} {stage : JsString}

/-- The intent of a call: exactly that call, guaranteed only, and nothing else. -/
structure CallIntent (built : CallTarget) (intent : Intent) (call : ContractCall) : Prop where
  actions : intent.actions = [.call call]
  address : call.address = built.address
  circuit : entryPointText call.entryPoint = built.circuit
  notFallible : call.fallibleTranscript = none
  guaranteed : call.guaranteedTranscript ≠ none
  noGuaranteedOffer : intent.guaranteedUnshieldedOffer = none
  noFallibleOffer : intent.fallibleUnshieldedOffer = none
  noDust : intent.dustActions = none

/-- What a transaction holds that makes exactly the built call of the circuit. -/
structure HoldsCall (built : CallTarget) (tx : Transaction) : Prop where
  found : ∃ intent call, tx.intents.get? built.segment = some intent ∧ CallIntent built intent call
  /-- No other intent calls the circuit. -/
  only : ∀ segment intent, tx.intents.get? segment = some intent → segment ≠ built.segment →
    ∀ action ∈ intent.actions, built.calledBy action = false

/-- The check of the other intents. -/
lemma checkOtherIntents_eq_ok_iff :
    (∃ results, tx.intents.entries.mapM (checkOtherIntent built stage) = .ok results) ↔
      ∀ segment intent, tx.intents.get? segment = some intent → segment ≠ built.segment →
        ∀ action ∈ intent.actions, built.calledBy action = false := by
  have hentry : ∀ entry : ℕ × Intent, checkOtherIntent built stage entry = .ok () ↔
      (entry.1 ≠ built.segment → ∀ action ∈ entry.2.actions, built.calledBy action = false) := by
    intro entry
    unfold checkOtherIntent
    split_ifs with hown
    · rw [pure_eq_ok_iff]
      exact iff_of_true rfl fun hother => absurd hown hother
    · rw [throwIf_eq_ok_iff, Bool.not_eq_true, List.any_eq_false]
      simp only [Bool.not_eq_true]
      exact ⟨fun h _ => h, fun h => h hown⟩
  rw [exists_mapM_eq_ok_iff]
  simp only [hentry, Prod.forall, InsertionMap.get?_eq_some_iff]

/-- **The check of a call is exact.**  It accepts a transaction exactly when the intent at the
call's segment is the one guaranteed call and no other intent calls the circuit. -/
theorem callIntentCheck_eq_ok_iff :
    callIntentCheck built tx stage = .ok () ↔ HoldsCall built tx := by
  unfold callIntentCheck
  constructor
  · intro h
    cases hfound : tx.intents.get? built.segment with
    | none =>
      rw [hfound] at h
      cases h
    | some intent =>
      rw [hfound] at h
      dsimp only at h
      split at h
      next call hactions =>
        obtain ⟨_, htarget, h⟩ := bind_eq_ok_iff.mp h
        obtain ⟨_, hfallible, h⟩ := bind_eq_ok_iff.mp h
        obtain ⟨_, hguaranteed, h⟩ := bind_eq_ok_iff.mp h
        obtain ⟨_, hoffers, h⟩ := bind_eq_ok_iff.mp h
        obtain ⟨results, hothers, -⟩ := bind_eq_ok_iff.mp h
        rw [throwIf_eq_ok_iff, not_or, not_not, not_not] at htarget
        rw [throwIf_eq_ok_iff, not_not] at hfallible
        rw [throwIf_eq_ok_iff] at hguaranteed
        rw [throwIf_eq_ok_iff, not_or, not_or, not_not, not_not, not_not] at hoffers
        exact ⟨⟨intent, call, hfound, hactions, htarget.1, htarget.2, hfallible, hguaranteed,
          hoffers.1, hoffers.2.1, hoffers.2.2⟩, checkOtherIntents_eq_ok_iff.mp ⟨results, hothers⟩⟩
      next => cases h
      next => cases h
  · intro h
    obtain ⟨intent, call, hfound, hcall⟩ := h.found
    obtain ⟨results, hothers⟩ := checkOtherIntents_eq_ok_iff.mpr h.only
    rw [hfound]
    dsimp only
    rw [hcall.actions]
    dsimp only
    refine bind_eq_ok_iff.mpr ⟨(), throwIf_eq_ok_iff.mpr ?_, bind_eq_ok_iff.mpr ⟨(),
      throwIf_eq_ok_iff.mpr (not_not.mpr hcall.notFallible), bind_eq_ok_iff.mpr ⟨(),
        throwIf_eq_ok_iff.mpr hcall.guaranteed, bind_eq_ok_iff.mpr ⟨(), throwIf_eq_ok_iff.mpr ?_,
          bind_eq_ok_iff.mpr ⟨results, hothers, rfl⟩⟩⟩⟩⟩
    · rw [not_or, not_not, not_not]
      exact ⟨hcall.address, hcall.circuit⟩
    · rw [not_or, not_or, not_not, not_not, not_not]
      exact ⟨hcall.noGuaranteedOffer, hcall.noFallibleOffer, hcall.noDust⟩

end Calls

/-! ### The gate before the submission -/

/-- What a transaction other than packages is for. -/
inductive OwnIntent where
  | deployment (env : DeployEnv) (built : BuiltDeploy)
  | call (built : CallTarget)

/-- The check of the own intent. -/
def OwnIntent.check : OwnIntent → IntentCheck
  | .deployment env built => deployIntentCheck env built
  | .call built => callIntentCheck built

/-- A transaction holds the own intent. -/
def OwnIntent.HeldBy : OwnIntent → Transaction → Prop
  | .deployment env built => HoldsDeploy env built
  | .call built => HoldsCall built

/-- A record is consistent with a transaction: its bytes deserialize to it, it holds the own intent,
and its hash and identifiers are the recorded ones. -/
structure SavedGate (ledger : LedgerModule) (requireProofs : Bool) (own : OwnIntent)
    (record : FinalizedTransactionRecord) (tx : Transaction) : Prop where
  bytes : ∃ bytes, hexToBytes record.transactionHex = .ok bytes ∧
    Deserializes ledger requireProofs bytes tx
  held : own.HeldBy tx
  hash : transactionHashOf tx = record.transactionHash
  identifiers : tx.identifiers = record.identifiers

section Submission

variable {own : OwnIntent} {tx : Transaction} {record : FinalizedTransactionRecord}
  {requireProofs : Option Bool}

/-- The check accepts what holds the own intent, at whatever stage. -/
lemma OwnIntent.check_eq_ok_iff {stage : JsString} :
    own.check tx stage = .ok () ↔ own.HeldBy tx := by
  cases own with
  | deployment env built => exact deployIntentCheck_eq_ok_iff
  | call built => exact callIntentCheck_eq_ok_iff

/-- The checks before the submission accept exactly consistent records. -/
lemma checkedSavedTransaction_eq_ok_iff {ledger : LedgerModule} {requireProofs : Bool} :
    checkedSavedTransaction ledger record own.check requireProofs = .ok tx ↔
      SavedGate ledger requireProofs own record tx := by
  constructor
  · intro h
    obtain ⟨bytes, hbytes, h⟩ := bind_eq_ok_iff.mp h
    obtain ⟨snapshot, hsnapshot, h⟩ := bind_eq_ok_iff.mp h
    obtain ⟨⟨⟩, hheld, h⟩ := bind_eq_ok_iff.mp h
    obtain ⟨_, hhash, h⟩ := bind_eq_ok_iff.mp h
    obtain ⟨_, hidentifiers, h⟩ := bind_eq_ok_iff.mp h
    rw [pure_eq_ok_iff] at h
    subst h
    rw [throwIf_eq_ok_iff, not_not] at hhash
    rw [throwIf_eq_ok_iff, identifiers_differ_iff] at hidentifiers
    exact ⟨⟨bytes, hbytes, deserializeFinal_eq_ok_iff.mp hsnapshot⟩,
      OwnIntent.check_eq_ok_iff.mp hheld, hhash, hidentifiers⟩
  · intro h
    obtain ⟨bytes, hbytes, hsnapshot⟩ := h.bytes
    refine bind_eq_ok_iff.mpr ⟨bytes, hbytes, bind_eq_ok_iff.mpr
      ⟨tx, deserializeFinal_eq_ok_iff.mpr hsnapshot, bind_eq_ok_iff.mpr
        ⟨(), OwnIntent.check_eq_ok_iff.mpr h.held, bind_eq_ok_iff.mpr ⟨(), ?_,
          bind_eq_ok_iff.mpr ⟨(), ?_, rfl⟩⟩⟩⟩⟩
    · rw [throwIf_eq_ok_iff, not_not]
      exact h.hash
    · rw [throwIf_eq_ok_iff, identifiers_differ_iff]
      exact h.identifiers

/-- A consistent record is submitted once, as the transaction it is consistent with. -/
lemma submitSavedTransaction_of_gate {ledger : LedgerModule}
    (h : SavedGate ledger (requireProofs.getD true) own record tx)
    (submitTx : Transaction → Except JsError JsString) :
    submitSavedTransaction ledger submitTx record own.check requireProofs =
      Run.call tx (submitTx tx) := by
  rw [submitSavedTransaction, checkedSavedTransaction_eq_ok_iff.mpr h]
  rfl

/-- **The gate of a deployment or a call is exact.**  However a record has been edited, submitting
it calls the wallet once, with a transaction that holds the own intent and that the record is
consistent with, or throws and calls nobody because there is no such transaction. -/
theorem savedIntent_gate (ledger : LedgerModule) (submitTx : Transaction → Except JsError JsString)
    (record : FinalizedTransactionRecord) (own : OwnIntent) (requireProofs : Option Bool) :
    (∃ tx, SavedGate ledger (requireProofs.getD true) own record tx ∧
      submitSavedTransaction ledger submitTx record own.check requireProofs =
        Run.call tx (submitTx tx)) ∨
    ((∀ tx, ¬SavedGate ledger (requireProofs.getD true) own record tx) ∧ ∃ err,
      (submitSavedTransaction ledger submitTx record own.check requireProofs).Throws [] err) := by
  cases hcheck : checkedSavedTransaction ledger record own.check (requireProofs.getD true) with
  | ok tx =>
    have hgate := checkedSavedTransaction_eq_ok_iff.mp hcheck
    exact Or.inl ⟨tx, hgate, submitSavedTransaction_of_gate hgate submitTx⟩
  | error err =>
    refine Or.inr ⟨fun tx hgate => ?_, err, Run.throws_bind_iff.mpr (Or.inl ?_)⟩
    · cases hcheck.symm.trans (checkedSavedTransaction_eq_ok_iff.mpr hgate)
    · rw [hcheck, Run.throws_lift_iff]
      exact ⟨rfl, rfl⟩

/-- The answer of a provider is a transaction. -/
lemma requireTransaction_eq_ok_iff {answer : ProviderAnswer} {stage provider : JsString} :
    requireTransaction answer stage provider = .ok tx ↔ answer = .transaction tx := by
  cases answer <;> simp [requireTransaction]

/-- What a finalization leaves behind that returns: the own intent at every stage, and a record that
is consistent with the transaction its bytes deserialize to. -/
structure FinalizedIntent (env : FinalizeEnv) (providers : Providers) (unproven : Transaction)
    (options : FinalizeTransactionOptions) (own : OwnIntent) (calls : List ProviderCall)
    (record : FinalizedTransactionRecord) (tx : Transaction) : Prop where
  stages : ∃ proven finalized,
    providers.proveTx unproven options.proofTimeoutMs = .ok (.transaction proven) ∧
    providers.balanceTx proven options.ttl = .ok (.transaction finalized) ∧
    calls = [.proveTx unproven options.proofTimeoutMs, .balanceTx proven options.ttl] ∧
    record.transactionHex = bytesToHex finalized.serialize ∧
    own.HeldBy unproven ∧ own.HeldBy proven ∧ own.HeldBy finalized
  gate : SavedGate env.ledger (options.requireProofs.getD true) own record tx

/-- A finalization that returns has called both providers once, in order. -/
lemma finalizeTransaction_returns {env : FinalizeEnv} {providers : Providers}
    {unproven : Transaction} {options : FinalizeTransactionOptions} {calls : List ProviderCall}
    (hcheck : options.check = own.check)
    (h : (finalizeTransaction env providers unproven options).Returns calls record) :
    ∃ tx, FinalizedIntent env providers unproven options own calls record tx := by
  unfold finalizeTransaction at h
  rw [hcheck] at h
  obtain ⟨⟨⟩, hunproven, h⟩ := Run.returns_lift_bind_iff.mp h
  obtain ⟨rest, proven, rfl, hproves, h⟩ := Run.returns_call_bind_iff.mp h
  obtain ⟨proven', hproven, h⟩ := Run.returns_lift_bind_iff.mp h
  obtain ⟨⟨⟩, hheld, h⟩ := Run.returns_lift_bind_iff.mp h
  obtain ⟨_, -, h⟩ := Run.returns_lift_bind_iff.mp h
  obtain ⟨rest', finalized, rfl, hbalances, h⟩ := Run.returns_call_bind_iff.mp h
  obtain ⟨finalized', hfinalized, h⟩ := Run.returns_lift_bind_iff.mp h
  obtain ⟨⟨⟩, hheld', h⟩ := Run.returns_lift_bind_iff.mp h
  obtain ⟨_, -, h⟩ := Run.returns_lift_bind_iff.mp h
  obtain ⟨roundTrip, hroundTrip, h⟩ := Run.returns_lift_bind_iff.mp h
  obtain ⟨⟨⟩, hlast, h⟩ := Run.returns_lift_bind_iff.mp h
  obtain ⟨ttl, -, h⟩ := Run.returns_lift_bind_iff.mp h
  obtain ⟨rfl, rfl⟩ := Run.returns_pure_iff.mp h
  rw [requireTransaction_eq_ok_iff] at hproven hfinalized
  subst hproven hfinalized
  rw [OwnIntent.check_eq_ok_iff] at hunproven hheld hheld' hlast
  exact ⟨roundTrip, ⟨proven', finalized', hproves, hbalances, rfl, rfl, hunproven, hheld, hheld'⟩,
    ⟨_, hexToBytes_bytesToHex _, deserializeFinal_eq_ok_iff.mp hroundTrip⟩, hlast, rfl, rfl⟩

/-- **A finalized deployment or call is submitted as it was checked.**  When a finalization returns,
each provider has been called once, the transaction holds the own intent as it was built, proven and
balanced, and submitting the record calls the wallet once, with the transaction its saved bytes
deserialize to, which holds the own intent too. -/
theorem finalizedIntent_submitted {env : FinalizeEnv} {providers : Providers}
    {unproven : Transaction} {options : FinalizeTransactionOptions} {calls : List ProviderCall}
    (hcheck : options.check = own.check)
    (h : (finalizeTransaction env providers unproven options).Returns calls record)
    (submitTx : Transaction → Except JsError JsString) :
    ∃ tx, FinalizedIntent env providers unproven options own calls record tx ∧
      submitSavedTransaction env.ledger submitTx record options.check options.requireProofs =
        Run.call tx (submitTx tx) := by
  obtain ⟨tx, hfinalized⟩ := finalizeTransaction_returns hcheck h
  refine ⟨tx, hfinalized, ?_⟩
  rw [hcheck]
  exact submitSavedTransaction_of_gate hfinalized.gate submitTx

end Submission

/-- Options for a transaction of one call. -/
def oneCallOptions : FinalizeTransactionOptions where
  network := js "net"
  purpose := js "pin"
  proofTimeoutMs := .int 1000
  ttl := .ofMilliseconds 2200000
  ledgerParameters := []
  block := ⟨js "b", .int 1, .int 1000⟩
  check := callIntentCheck ⟨List.replicate 64 (hexUnit 10), js "emitPart", 5⟩
  costCheck := none
  requireProofs := none

/-- A transaction of one call is finalized and submitted. -/
theorem finalizedIntent_submitted_one_call :
    ∃ calls record tx, FinalizedIntent (singleTransactionEnv onePartTransaction) echoProviders
        onePartTransaction oneCallOptions
        (.call ⟨List.replicate 64 (hexUnit 10), js "emitPart", 5⟩) calls record tx ∧
      (submitSavedTransaction (singleTransactionEnv onePartTransaction).ledger
        (fun _ => .ok (js "id")) record oneCallOptions.check none).calls = [tx] := by
  have hrun : (finalizeTransaction (singleTransactionEnv onePartTransaction) echoProviders
      onePartTransaction oneCallOptions).result.toOption.isSome = true := by decide +kernel
  obtain ⟨record, hrecord⟩ := Option.isSome_iff_exists.mp hrun
  have hcheck : oneCallOptions.check =
      (OwnIntent.call ⟨List.replicate 64 (hexUnit 10), js "emitPart", 5⟩).check := rfl
  obtain ⟨tx, hfinalized, hsubmit⟩ := finalizedIntent_submitted hcheck
    ⟨rfl, toOption_eq_some_iff.mp hrecord⟩ fun _ => .ok (js "id")
  refine ⟨_, record, tx, hfinalized, ?_⟩
  exact congrArg Run.calls hsubmit

end MultiPartEvent
