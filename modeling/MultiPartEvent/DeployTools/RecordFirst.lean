import MultiPartEvent.DeployTools.Commands
import MultiPartEvent.Journal

/-!
# Records before submissions

What is asked of a chain command: its records come in the order of the stages, `verified` only after
every check, and a transaction is submitted only while the file holds the finalized record of its
bytes. Together this is a `Discipline` over the events of a command (`commandDiscipline`).

`Here` is what holds in the middle of a command: the history follows the discipline, begins with a
known past, and the file at the record's path holds the last record.  There is one rule for each
kind of step; a command is followed through them from its first step to its last.
-/

namespace MultiPartEvent

/-! ### What the services have answered -/

/-- A service was asked when `before` had happened, which is part of the past, and gave this
answer. -/
def Answered {α : Type} (call : ServiceCall) (answer : History → Except JsError α) (a : α)
    (before past : History) : Prop :=
  answer before = .ok a ∧ ∃ files, before ++ [.called call files] <+: past

/-- What was answered in the past was answered in what goes on from it. -/
lemma Answered.of_prefix {α : Type} {call : ServiceCall} {answer : History → Except JsError α}
    {a : α}
    {before past past' : History} (h : Answered call answer a before past)
    (hpast : past <+: past') :
    Answered call answer a before past' := by
  obtain ⟨hanswer, files, hbefore⟩ := h
  exact ⟨hanswer, files, hbefore.trans hpast⟩

section Commands

variable (tools : CommandTools) (services : ChainServices)

/-- An inclusion of a transaction with one of the identifiers has been reported. -/
def InclusionReported (identifiers : List JsString) (inclusion : IncludedTransaction)
    (past : History) : Prop :=
  ∃ timeoutMs before, Answered (.waitForInclusion identifiers timeoutMs)
    (fun history => services.waitForInclusion history identifiers timeoutMs)
    (some inclusion) before past

/-- An inclusion that has been reported stays reported. -/
lemma InclusionReported.of_prefix {services : ChainServices} {identifiers : List JsString}
    {inclusion : IncludedTransaction} {past past' : History}
    (h : InclusionReported services identifiers inclusion past) (hpast : past <+: past') :
    InclusionReported services identifiers inclusion past' := by
  obtain ⟨timeoutMs, before, hanswered⟩ := h
  exact ⟨timeoutMs, before, hanswered.of_prefix hpast⟩

/-- The state of a contract has been read. -/
def StateRead (address : JsString) (state : Option Bytes) (before past : History) : Prop :=
  Answered (.contractState address) (fun history => services.contractState history address)
    state before past

/-! ### The checks of the commands -/

/-- A serialized state shows what a deployment has recorded: the verifier keys, the maintenance
authority and the emitter authority. -/
structure ShowsDeployment (generated : GeneratedModule) (record : DeploymentRecord)
    (stateBytes : Bytes) : Prop where
  deployed : ∃ deployed, tools.deploy.deserializeState stateBytes = .ok deployed ∧
    (∀ entry ∈ record.verifierKeySha256.entries, ∃ key,
      (deployed.operation entry.1).bind ContractOperation.verifierKey = some key ∧
        tools.verifierKeySha256 key = entry.2) ∧
    deployed.maintenanceAuthority.threshold = 1 ∧
    deployed.maintenanceAuthority.committee.map SignatureVerifyingKey.value =
      [record.maintenanceVerifyingKey.value]
  authority : ∃ view authority, ledgerView tools generated stateBytes = .ok view ∧
    view (js "emitterAuthority") = .bytes authority ∧ bytesToHex authority = record.emitterAuthority

/-- A deployment is verified: its inclusion was reported with success, and the state read afterwards
shows what is recorded. -/
def DeploymentVerified (options : DeployOptions) (past : History) (record : DeploymentRecord) :
    Prop :=
  ∃ finalized inclusion stateBytes before,
    record.finalized = some finalized ∧ record.inclusion = some inclusion ∧
    InclusionReported services finalized.identifiers inclusion before ∧
    inclusion.status = success ∧
    StateRead services record.address (some stateBytes) before past ∧
    ShowsDeployment tools options.generated record stateBytes

/-- A recorded package is found in what was read of the included transaction, without an issue and
with the payload of the recorded parts. -/
def PackageFound (verification : TransactionVerification) (pkg : PackageRecord) : Prop :=
  verification.issues = [] ∧ ∃ found ∈ verification.packages,
    JsNumber.int found.package.segment = pkg.segment ∧ found.placement = [] ∧
    found.package.issues = [] ∧ ∃ payload, hexToBytes pkg.partsHex.flatten = .ok payload ∧
      found.package.payload = some payload

/-- A publication is verified: its inclusion was reported, the included bytes contain the recorded
intents, and every recorded package is found in them. -/
def PublicationVerified (options : PublishOptions) (past : History) (record : PublicationRecord) :
    Prop :=
  ∃ inclusion raw included verification,
    record.inclusion = some inclusion ∧
    InclusionReported services record.finalized.identifiers inclusion past ∧
    hexToBytes inclusion.rawHex = .ok raw ∧
    deserializeTransaction tools.assembly.ledger raw = .ok included ∧
    (locateRecord included record.finalized).contains = true ∧
    verifyTransactionPackages included (publishTarget services options inclusion) =
      .ok verification ∧
    ∀ pkg ∈ record.finalized.packages, PackageFound verification pkg

/-- A pin is verified: its inclusion was reported with success, and the state read afterwards shows
the digest and a count that is one more than the count read before, if there was one. -/
def PinVerified (options : PinOptions) (past : History) (record : PinRecord) : Prop :=
  ∃ inclusion stateBytes view count asked before first countBefore,
    record.inclusion = some inclusion ∧
    StateRead services options.address first asked before ∧
    InclusionReported services record.finalized.identifiers inclusion before ∧
    inclusion.status = success ∧
    StateRead services options.address (some stateBytes) before past ∧
    ledgerView tools options.generated stateBytes = .ok view ∧
    view (js "pinnedDigest") = .bytes options.digest ∧ view (js "pinnedCount") = .bigint count ∧
    record.pinnedCount = some (integerText count) ∧
    countOf tools options.generated first = .ok countBefore ∧
    ∀ n, countBefore = some n → count = n + 1

/-! ### The discipline -/

/-- A chain command with its options. -/
inductive ChainCommand where
  | deploy (options : DeployOptions)
  | publish (options : PublishOptions)
  | pin (options : PinOptions)

/-- The path of the record. -/
def ChainCommand.out : ChainCommand → JsString
  | .deploy options => options.out
  | .publish options => options.out
  | .pin options => options.out

/-- The command does not submit. -/
def ChainCommand.isDryRun : ChainCommand → Bool
  | .publish options => options.dryRun = some true
  | .deploy _ | .pin _ => false

/-- The stages of the records of a run that comes to its end. -/
def ChainCommand.courses : ChainCommand → List (List Stage)
  | .deploy _ => [[.built, .finalized, .submitted, .included, .verified]]
  | .publish _ => [[.finalized, .submitted, .included, .verified],
      [.finalized, .submitted, .included, .included]]
  | .pin _ => [[.finalized, .submitted, .included, .verified]]

/-- The record has been verified after its inclusion. -/
def ChainCommand.Verified (command : ChainCommand) (past : History) (record : CommandRecord) :
    Prop :=
  match command, record with
  | .deploy options, .deployment record => DeploymentVerified tools services options past record
  | .publish options, .publication record => PublicationVerified tools services options past record
  | .pin options, .pin record => PinVerified tools services options past record
  | _, _ => False

/-- The record an event writes to the file at a path. -/
def savedAt (path : JsString) : CommandEvent → Option CommandRecord
  | .wrote other (.record record) => if other = path then some record else none
  | .wrote _ .other | .called _ _ => none

/-- The event is a call of `submitTx`. -/
def isSubmission : CommandEvent → Bool
  | .called (.submitTx _) _ => true
  | .called _ _ | .wrote _ _ => false

/-- The finalized record of the bytes a transaction was deserialized from. -/
structure RecordsTransaction (record : CommandRecord) (tx : Transaction) : Prop where
  stage : record.stage = .finalized
  bytes : ∃ hex bytes, record.transactionHex? = some hex ∧ hexToBytes hex = .ok bytes ∧
    Deserializes tools.assembly.ledger services.requireProofs bytes tx

/-- What is asked of the events of a command. -/
def commandDiscipline (command : ChainCommand) : Discipline CommandRecord CommandEvent where
  saves := savedAt command.out
  acts := isSubmission
  next saved past record :=
    (∃ course ∈ command.courses, (saved ++ [record]).map CommandRecord.stage <+: course) ∧
      (record.stage = .verified → command.Verified tools services past record)
  covers record event := ∀ tx files, event = .called (.submitTx tx) files →
    files command.out = some (.record record) ∧ RecordsTransaction tools services record tx

end Commands

/-! ### In the middle of a command -/

section Rules

variable (tools : CommandTools) (services : ChainServices) (command : ChainCommand)

/-- In the middle of a command: these records have been saved, the submission has been made or not,
and the past has happened. -/
structure Here (saved : List CommandRecord) (acted : Bool) (past : History) (s : CommandState) :
    Prop where
  journal : Journal (commandDiscipline tools services command) saved acted s.history
  past : past <+: s.history
  file : ∀ record, saved.getLast? = some record → s.files command.out = some (.record record)

/-- The command has followed the discipline, and has not submitted in a dry run. -/
def Followed (s : CommandState) : Prop :=
  ∃ saved acted, Journal (commandDiscipline tools services command) saved acted s.history ∧
    (acted = true → command.isDryRun = false)

variable {tools services command} {saved : List CommandRecord} {acted : Bool} {past : History}
  {s : CommandState}

/-- A command may end anywhere, unless it has submitted in a dry run. -/
lemma Here.followed (hmay : acted = true → command.isDryRun = false)
    (h : Here tools services command saved acted past s) : Followed tools services command s :=
  ⟨saved, acted, h.journal, hmay⟩

/-- Calls that submit nothing. -/
lemma Here.called (h : Here tools services command saved acted past s) (calls : List ServiceCall)
    (hcalls : ∀ call ∈ calls, ∀ files, isSubmission (.called call files) = false) :
    Here tools services command saved acted past
      { s with history := s.history ++ calls.map fun call => .called call s.files } := by
  refine ⟨h.journal.others ?_, h.past.trans (List.prefix_append _ _), h.file⟩
  intro e he
  obtain ⟨call, hcall, rfl⟩ := List.mem_map.mp he
  exact ⟨rfl, hcalls call hcall s.files⟩

/-- A file that is not the record's is written. -/
lemma Here.wrote_elsewhere {path : JsString} (h : Here tools services command saved acted past s)
    (hpath : path ≠ command.out) (content : FileContent) :
    Here tools services command saved acted past (s.wrote path content) := by
  have hsaves : savedAt command.out (.wrote path content) = none := by
    cases content with
    | record record => simp [savedAt, hpath]
    | other => rfl
  refine ⟨h.journal.other hsaves rfl, h.past.trans (List.prefix_append _ _), ?_⟩
  intro record hlast
  rw [← h.file record hlast]
  exact if_neg hpath.symm

/-- A file that is not the record's is removed. -/
lemma Here.without {path : JsString} (h : Here tools services command saved acted past s)
    (hpath : path ≠ command.out) :
    Here tools services command saved acted past (s.without path) := by
  refine ⟨h.journal, h.past, ?_⟩
  intro record hlast
  rw [← h.file record hlast]
  exact if_neg hpath.symm

/-- A record that may be saved is written to its file. -/
lemma Here.wrote_record {record : CommandRecord}
    (h : Here tools services command saved acted past s)
    (hnext : (commandDiscipline tools services command).next saved s.history record) :
    Here tools services command (saved ++ [record]) acted past
      (s.wrote command.out (.record record)) := by
  have hsaves : savedAt command.out (.wrote command.out (.record record)) = some record :=
    if_pos rfl
  refine ⟨h.journal.save hsaves rfl hnext, h.past.trans (List.prefix_append _ _), ?_⟩
  intro last hlast
  rw [List.getLast?_concat, Option.some.injEq] at hlast
  subst hlast
  exact if_pos rfl

/-- The transaction of the finalized record in the file is submitted. -/
lemma Here.submitted {record : CommandRecord} {tx : Transaction}
    (h : Here tools services command saved false past s) (hlast : saved.getLast? = some record)
    (hrecord : RecordsTransaction tools services record tx) :
    Here tools services command saved true past
      { s with history := s.history ++ [.called (.submitTx tx) s.files] } := by
  refine ⟨h.journal.act rfl rfl hlast ?_, h.past.trans (List.prefix_append _ _), h.file⟩
  intro tx' files heq
  cases heq
  exact ⟨h.file record hlast, hrecord⟩

/-! ### One step -/

variable {α : Type} {machine : Machine}

/-- What calls that submit nothing keep, and new files that are no records. -/
structure Steady (I : CommandState → Prop) : Prop where
  called : ∀ s (calls : List ServiceCall),
    (∀ call ∈ calls, ∀ files, isSubmission (.called call files) = false) → I s →
    I { s with history := s.history ++ calls.map fun call => .called call s.files }
  created : ∀ s path, s.files path = none → I s → I (s.wrote path .other)

/-- What holds in the middle of a command is steady. -/
lemma here_steady : Steady (Here tools services command saved acted past) := by
  constructor
  · intro s calls hcalls hs
    exact hs.called calls hcalls
  · intro s path hnone hs
    refine ⟨hs.journal.other rfl rfl, hs.past.trans (List.prefix_append _ _), ?_⟩
    intro record hlast
    have hfile := hs.file record hlast
    have hpath : command.out ≠ path := by
      rintro rfl
      rw [hfile] at hnone
      cases hnone
    exact (if_neg hpath).trans hfile

section Steady

variable {I : CommandState → Prop} (hI : Steady I)

include hI

/-- Calls that submit nothing. -/
lemma keeps_callServices {κ : Type} {call : κ → ServiceCall}
    (hcall : ∀ c files, isSubmission (.called (call c) files) = false) (run : History → Run κ α) :
    Action.Keeps I (callServices call run) := by
  intro s hs
  have hcalled := hI.called s ((run s.history).calls.map call) (by
    intro c hc files
    obtain ⟨c, -, rfl⟩ := List.mem_map.mp hc
    exact hcall c files) hs
  rw [List.map_map] at hcalled
  exact hcalled

/-- A call that submits nothing. -/
lemma keeps_ask {call : ServiceCall} (hcall : ∀ files, isSubmission (.called call files) = false)
    (answer : History → Except JsError α) : Action.Keeps I (ask call answer) := by
  intro s hs
  exact hI.called s [call] (by simpa using hcall) hs

/-- A line that is logged. -/
lemma keeps_logLine (line : JsString) : Action.Keeps I (logLine services line) :=
  keeps_ask hI (fun _ => rfl) _

end Steady

/-- Code that changes nothing. -/
lemma keeps_compute {I : CommandState → Prop} (result : Except JsError α) :
    Action.Keeps I (compute result) := Action.keeps_lift _

/-- A value that must be there is there. -/
lemma required_eq_ok_iff {value : Option α} {message : JsString} {a : α} :
    required value message = .ok a ↔ value = some a := by
  cases value <;> simp [required]

/-- After code that changes nothing, the command goes on with what it has returned. -/
lemma leaves_compute_bind {β : Type} {P Q : CommandState → Prop} {result : Except JsError α}
    {f : α → Command β} (hweaken : ∀ s, P s → Q s)
    (hnext : ∀ a, result = .ok a → Action.Leaves P Q (f a)) :
    Action.Leaves P Q (compute result >>= f) := by
  apply Action.Leaves.lift_bind hweaken
  intro a ha
  exact hnext a (mapError_eq_ok_iff.mp ha)

/-- After a call that submits nothing, the answer is known. -/
lemma leaves_ask_bind {β : Type} {call : ServiceCall} {answer : History → Except JsError α}
    {f : α → Command β} (hmay : acted = true → command.isDryRun = false)
    (hcall : ∀ files, isSubmission (.called call files) = false)
    (hnext : ∀ a before past', past <+: before → Answered call answer a before past' →
      Action.Leaves (Here tools services command saved acted past')
        (Followed tools services command) (f a)) :
    Action.Leaves (Here tools services command saved acted past) (Followed tools services command)
      (ask call answer >>= f) := by
  apply Action.Leaves.bind
  · intro s err s' hs hthrows
    exact ((keeps_ask here_steady hcall answer).of_throws hs hthrows).followed hmay
  · intro a s' h
    obtain ⟨s, hs, hreturns⟩ := h
    have hhere := (keeps_ask here_steady hcall answer).of_returns hs hreturns
    have hanswer : answer s.history = .ok a := mapError_eq_ok_iff.mp (congrArg Prod.fst hreturns)
    have hhistory : s.history ++ [.called call s.files] = s'.history :=
      congrArg (fun outcome => outcome.2.history) hreturns
    have hanswered : Answered call answer a s.history s'.history :=
      ⟨hanswer, s.files, hhistory ▸ List.prefix_rfl⟩
    exact hnext a s.history s'.history hs.past hanswered s' ⟨hhere.journal, List.prefix_rfl,
      hhere.file⟩

/-- The temporary file of a record is another file. -/
lemma temporary_ne (path : JsString) (pid : ℕ) : path ++ js ".tmp-" ++ decimal pid ≠ path := by
  intro h
  have hlength := congrArg List.length h
  simp [js] at hlength

/-- Writing a file returns with the file written. -/
lemma writeFileSync_returns {path : JsString} {content : FileContent} {u : Unit} {s' : CommandState}
    (h : (writeFileSync machine path content).Returns s u s') : s' = s.wrote path content := by
  unfold Action.Returns writeFileSync writeAs at h
  cases houtcome : machine.writeFileSync s.history path with
  | done =>
    rw [houtcome] at h
    exact (congrArg Prod.snd h).symm
  | failed error left =>
    rw [houtcome] at h
    cases h

/-- Writing a file that is not the record's leads nowhere else. -/
lemma keeps_writeFileSync {path : JsString} (hpath : path ≠ command.out) (content : FileContent) :
    Action.Keeps (Here tools services command saved acted past)
      (writeFileSync machine path content) := by
  intro s hs
  unfold writeFileSync writeAs
  cases machine.writeFileSync s.history path with
  | done => exact hs.wrote_elsewhere hpath content
  | failed error left =>
    cases left with
    | false => exact hs
    | true => exact hs.wrote_elsewhere hpath .other

/-- Renaming a file returns with its content at the target. -/
lemma renameSync_returns {source target : JsString} {content : FileContent} {u : Unit}
    {s' : CommandState} (hsource : s.files source = some content)
    (h : (renameSync machine source target).Returns s u s') :
    s' = (s.without source).wrote target content := by
  unfold Action.Returns renameSync at h
  rw [hsource] at h
  cases houtcome : machine.renameSync s.history source target with
  | none =>
    rw [houtcome] at h
    exact (congrArg Prod.snd h).symm
  | some error =>
    rw [houtcome] at h
    cases h

/-- Renaming a file that fails changes nothing. -/
lemma renameSync_throws {source target : JsString} {err : CommandError} {s' : CommandState}
    (h : (renameSync machine source target).Throws s err s') : s' = s := by
  unfold Action.Throws renameSync at h
  cases houtcome : machine.renameSync s.history source target with
  | some error =>
    rw [houtcome] at h
    exact (congrArg Prod.snd h).symm
  | none =>
    cases hsource : s.files source with
    | none =>
      rw [houtcome, hsource] at h
      exact (congrArg Prod.snd h).symm
    | some content =>
      rw [houtcome, hsource] at h
      cases h

/-- **After a record that may be saved, the file holds it**, and a write that fails leaves what the
file held before. -/
lemma leaves_writeRecord_bind {record : CommandRecord} {f : Unit → Command α}
    (hmay : acted = true → command.isDryRun = false)
    (hnext : ∀ past', past <+: past' →
      (commandDiscipline tools services command).next saved past' record)
    (hrest : Action.Leaves (Here tools services command (saved ++ [record]) acted past)
      (Followed tools services command) (f ())) :
    Action.Leaves (Here tools services command saved acted past) (Followed tools services command)
      (writeRecord machine command.out record >>= f) := by
  have htemporary := temporary_ne command.out machine.pid
  apply Action.Leaves.bind
  · intro s err s' hs hthrows
    rcases Action.throws_bind_iff.mp hthrows with hwrite | ⟨u, middle, hwrite, hrename⟩
    · exact ((keeps_writeFileSync htemporary _).of_throws hs hwrite).followed hmay
    · rw [renameSync_throws hrename, writeFileSync_returns hwrite]
      exact (hs.wrote_elsewhere htemporary _).followed hmay
  · intro u s' h
    obtain ⟨s, hs, hreturns⟩ := h
    obtain ⟨u', middle, hwrite, hrename⟩ := Action.returns_bind_iff.mp hreturns
    rw [writeFileSync_returns hwrite] at hrename
    have hwritten := hs.wrote_elsewhere htemporary (.record record)
    have hs' := renameSync_returns (if_pos rfl) hrename
    have hremoved := hwritten.without htemporary
    rw [hs']
    exact hrest _ (hremoved.wrote_record (hnext _ hremoved.past))

/-- **After the submission of the recorded transaction**, there is no other one. -/
lemma leaves_submit_bind {record : CommandRecord} {checked : Except JsError Transaction}
    {answer : History → Transaction → Except JsError JsString} {f : JsString → Command α}
    (hdry : command.isDryRun = false) (hlast : saved.getLast? = some record)
    (hchecked : ∀ tx, checked = .ok tx → RecordsTransaction tools services record tx)
    (hrest : ∀ id, Action.Leaves (Here tools services command saved true past)
      (Followed tools services command) (f id)) :
    Action.Leaves (Here tools services command saved false past) (Followed tools services command)
      (callServices .submitTx (fun history => do
        let snapshot ← checked
        Run.call snapshot (answer history snapshot)) >>= f) := by
  have hunsubmitted : (false : Bool) = true → command.isDryRun = false :=
    fun h => absurd h (by simp)
  cases checked with
  | error err =>
    -- The checks fail, and nothing is called.
    intro s hs
    have hthrows : (callServices .submitTx (fun history => (do
        let snapshot ← (Except.error err : Except JsError Transaction)
        Run.call snapshot (answer history snapshot) : Run Transaction JsString))).Throws s
          (.library err) s := by
      simp only [Action.Throws, callServices, Run.lift_error_bind, List.map_nil, List.append_nil,
        Except.mapError]
    rw [hthrows.bind f]
    exact hs.followed hunsubmitted
  | ok tx =>
    have hsubmits : ∀ s, Here tools services command saved false past s →
        Here tools services command saved true past
          (callServices .submitTx (fun history => Run.call tx (answer history tx)) s).2 :=
      fun s hs => hs.submitted hlast (hchecked tx rfl)
    simp only [Run.lift_ok_bind]
    apply Action.Leaves.bind
    · intro s err s' hs hthrows
      have hhere := hsubmits s hs
      rw [hthrows] at hhere
      exact hhere.followed fun _ => hdry
    · intro id s' h
      obtain ⟨s, hs, hreturns⟩ := h
      have hhere := hsubmits s hs
      rw [hreturns] at hhere
      exact hrest id s' hhere

end Rules

end MultiPartEvent
