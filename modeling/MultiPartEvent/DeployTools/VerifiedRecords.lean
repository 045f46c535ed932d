import MultiPartEvent.ContractExamples.Board
import MultiPartEvent.DeployTools.SharedRecord

/-!
# What a verified record says about the chain

A chain command writes `verified` into its record after it has read the state of the contract.
Between its reads the contract goes on, with calls of anybody, executed on whatever states.

A pin that is recorded as verified is then the only pin that took effect between the two reads of
the command, and the recorded count is that of all pins (`pin_recorded`): the check compares two
states and cannot tell its own pin from another one of the same digest, but it can tell one pin from
two.  This needs a first read that has found the state; where it has not, no counts are compared.
A deployment that is recorded as verified has the authority of the secret in its secret file, so
every call that is accepted by the contract, while no maintenance update replaces its circuits, is
proven with a secret of the same commitment (`deployment_recorded`).
-/

namespace MultiPartEvent

/-- The generated binding shows the board of a serialized state. -/
structure ShowsBoard (tools : CommandTools) (generated : GeneratedModule) (stateBytes : Bytes)
    (board : BoardState) : Prop where
  view : ∃ view, ledgerView tools generated stateBytes = .ok view ∧
    view (js "pinnedCount") = .bigint board.pinnedCount ∧
    view (js "pinnedDigest") = .bytes board.pinnedDigest ∧
    view (js "emitterAuthority") = .bytes board.emitterAuthority

/-- The services read a board that is `boardAt` when a command has come to a point of its history,
if they find its state, and that goes through accepted calls in between. -/
structure ReadsBoard (tools : CommandTools) (services : ChainServices)
    (generated : GeneratedModule) (address : JsString) (boardAt : History → BoardState) : Prop where
  reads : ∀ history stateBytes, services.contractState history address = .ok (some stateBytes) →
    ShowsBoard tools generated stateBytes (boardAt history)
  goesOn : ∀ earlier later, earlier <+: later →
    ∃ chain, noticeBoard.Runs tools.sha256 ⟨boardAt earlier, [], []⟩ chain ∧
      chain.state = boardAt later

section Pins

variable {tools : CommandTools} {machine : Machine} {services : ChainServices}
  {generated : GeneratedModule} {board : BoardState} {stateBytes : Bytes}
  {chain : OnChain BoardState BoardUpdate BoardCall} {sha256 : Bytes → Bytes}

/-- The counter is one higher and the digest is shown exactly after one pin, of this digest. -/
lemma pins_eq_singleton_iff (h : noticeBoard.Runs sha256 ⟨board, [], []⟩ chain) (digest : Bytes) :
    chain.pins = [digest] ↔
      chain.state.pinnedCount = board.pinnedCount + 1 ∧ chain.state.pinnedDigest = digest := by
  rw [(effect_of_runs h).1]
  constructor
  · intro hpins
    rw [hpins]
    exact ⟨rfl, rfl⟩
  · intro hshown
    obtain ⟨hcount, hdigest⟩ := hshown
    obtain ⟨pin, hpin⟩ := List.length_eq_one_iff.mp (Nat.add_left_cancel hcount)
    rw [hpin] at hdigest ⊢
    exact congrArg (fun shown => [shown]) hdigest

/-- The count of a board that is shown. -/
lemma countOf_of_shows (h : ShowsBoard tools generated stateBytes board) :
    countOf tools generated (some stateBytes) = .ok (some (board.pinnedCount : ℤ)) := by
  obtain ⟨view, hview, hcount, -, -⟩ := h.view
  simp [countOf, hview, hcount]

/-- The digest of a board that is shown. -/
lemma showsDigest_of_shows {options : PinOptions}
    (h : ShowsBoard tools options.generated stateBytes board) :
    showsDigest tools options (some stateBytes) =
      .ok (decide (board.pinnedDigest = options.digest)) := by
  obtain ⟨view, hview, -, hdigest, -⟩ := h.view
  have hshown : (RuntimeValue.bytes board.pinnedDigest).isBytes options.digest =
      decide (board.pinnedDigest = options.digest) := by
    rw [Bool.eq_iff_iff, isBytes_eq_true_iff, decide_eq_true_eq, RuntimeValue.bytes.injEq]
  simp [showsDigest, hview, hdigest, hshown]

/-- **The check of a pin.**  It passes exactly when one pin has taken effect between the two states
and it was of the digest; the count is then that of the board. -/
theorem pinnedCount_eq_ok_iff {options : PinOptions} {after : Bytes} {count : ℤ}
    (hruns : noticeBoard.Runs sha256 ⟨board, [], []⟩ chain)
    (hafter : ShowsBoard tools options.generated after chain.state) :
    pinnedCount tools options (some board.pinnedCount) (some after) = .ok count ↔
      chain.pins = [options.digest] ∧ count = chain.state.pinnedCount := by
  rw [pins_eq_singleton_iff hruns]
  unfold pinnedCount
  rw [countOf_of_shows hafter, showsDigest_of_shows hafter]
  by_cases hdigest : chain.state.pinnedDigest = options.digest
  · by_cases hmore : chain.state.pinnedCount = board.pinnedCount + 1
    · simp [hdigest, hmore, Except.mapError, eq_comm]
    · have hother : (chain.state.pinnedCount : ℤ) ≠ board.pinnedCount + 1 := by exact_mod_cast hmore
      simp [hdigest, hmore, hother, Except.mapError]
  · simp [hdigest, Except.mapError]

/-- A verified pin, on a board the services read. -/
lemma pins_of_pinVerified {options : PinOptions} {boardAt : History → BoardState} {past : History}
    {record : PinRecord}
    (hboard : ReadsBoard tools services options.generated options.address boardAt)
    (h : PinVerified tools services options past record) :
    ∃ earlier later chain first second,
      StateRead services options.address first earlier later ∧
      StateRead services options.address second later past ∧
      noticeBoard.Runs tools.sha256 ⟨boardAt earlier, [], []⟩ chain ∧
      chain.state = boardAt later ∧ (first ≠ none → chain.pins = [options.digest]) ∧
      (boardAt later).pinnedDigest = options.digest ∧
      record.pinnedCount = some (integerText (boardAt later).pinnedCount) := by
  obtain ⟨inclusion, stateBytes, view, count, asked, before, first, countBefore, -, hfirst, -, -,
    hsecond, hview, hdigest, hcount, hrecorded, hcountBefore, hmore⟩ := h
  obtain ⟨view', hview', hcount', hdigest', -⟩ := (hboard.reads _ _ hsecond.1).view
  have hsame : view = view' := Except.ok.inj (hview.symm.trans hview')
  subst hsame
  have hcounted : count = (boardAt before).pinnedCount :=
    RuntimeValue.bigint.inj (hcount.symm.trans hcount')
  have hpinned : (boardAt before).pinnedDigest = options.digest :=
    RuntimeValue.bytes.inj (hdigest'.symm.trans hdigest)
  have hprefix : asked <+: before := by
    obtain ⟨files, hfiles⟩ := hfirst.2
    exact (List.prefix_append _ _).trans hfiles
  obtain ⟨chain, hruns, hstate⟩ := hboard.goesOn asked before hprefix
  refine ⟨asked, before, chain, _, _, hfirst, hsecond, hruns, hstate, ?_, hpinned, ?_⟩
  · intro hfound
    obtain ⟨firstBytes, rfl⟩ := Option.ne_none_iff_exists'.mp hfound
    rw [pins_eq_singleton_iff hruns, hstate]
    refine ⟨?_, hpinned⟩
    rw [countOf_of_shows (hboard.reads _ _ hfirst.1), Except.ok.injEq] at hcountBefore
    have hone := hmore _ hcountBefore.symm
    rw [hcounted] at hone
    exact_mod_cast hone
  · rw [hrecorded, hcounted]

/-- **A recorded pin is the one pin.**  Whenever a run writes a verified record, the board has the
digest at the second of its two reads of the state, and the recorded count is that of the board.  If
the first read has found the state, exactly one pin has taken effect on the board between the two,
and it was of the digest. -/
theorem pin_recorded {options : PinOptions} {boardAt : History → BoardState}
    (hboard : ReadsBoard tools services options.generated options.address boardAt)
    (files : CommandFiles) {before after : History} {record : PinRecord}
    (hwritten : (runPin tools machine services options ⟨files, []⟩).2.history =
      before ++ .wrote options.out (.record (.pin record)) :: after)
    (hverified : record.stage = .verified) :
    ∃ earlier later chain first second,
      StateRead services options.address first earlier later ∧
      StateRead services options.address second later before ∧
      noticeBoard.Runs tools.sha256 ⟨boardAt earlier, [], []⟩ chain ∧
      chain.state = boardAt later ∧ (first ≠ none → chain.pins = [options.digest]) ∧
      (boardAt later).pinnedDigest = options.digest ∧
      record.pinnedCount = some (integerText (boardAt later).pinnedCount) := by
  have hstart : Here tools services (.pin options) [] false [] ⟨files, []⟩ :=
    ⟨.start, List.prefix_rfl, fun _ h => absurd h (by simp)⟩
  obtain ⟨saved, acted, hjournal, -⟩ := runPin_followed options ⟨files, []⟩ hstart
  have hsaves : savedAt (ChainCommand.pin options).out
      (.wrote options.out (.record (.pin record))) = some (.pin record) := if_pos rfl
  exact pins_of_pinVerified hboard ((hjournal.saved_next hwritten hsaves).2 hverified)

end Pins

/-! ### Deployments -/

/-- The file holds the secret when the command reads it. -/
def HoldsSecret (machine : Machine) (path : JsString) (asked : History) (secret : Bytes) : Prop :=
  ∃ text, machine.readProtectedFile asked path = .ok text ∧ isAddress (trimText text) = true ∧
    secret = hexPairs (trimText text)

/-- Every record that has been written meets the condition. -/
def WritesOnly (condition : CommandRecord → Prop) (s : CommandState) : Prop :=
  ∀ path record, .wrote path (.record record) ∈ s.history → condition record

section Deployments

variable {tools : CommandTools} {machine : Machine} {services : ChainServices}
  {condition : CommandRecord → Prop}

/-- Calls do not write a record. -/
lemma WritesOnly.called {s : CommandState} (h : WritesOnly condition s) (calls : List ServiceCall) :
    WritesOnly condition
      { s with history := s.history ++ calls.map fun call => .called call s.files } := by
  intro path record hmem
  rcases List.mem_append.mp hmem with hbefore | hcalled
  · exact h path record hbefore
  · obtain ⟨call, -, heq⟩ := List.mem_map.mp hcalled
    cases heq

/-- Calls and new files that are no records do not write a record. -/
lemma writesOnly_steady : Steady (WritesOnly condition) := by
  constructor
  · intro s calls _ hs
    exact hs.called calls
  · intro s path _ hs other record hmem
    rcases List.mem_append.mp hmem with hbefore | hwrote
    · exact hs other record hbefore
    · cases List.mem_singleton.mp hwrote

/-- A file is written that is no record or a record that meets the condition. -/
lemma WritesOnly.wrote {s : CommandState} {path : JsString} {content : FileContent}
    (h : WritesOnly condition s)
    (hcontent : ∀ record, content = .record record → condition record) :
    WritesOnly condition (s.wrote path content) := by
  intro other record hmem
  rcases List.mem_append.mp hmem with hbefore | hlast
  · exact h other record hbefore
  · cases List.mem_singleton.mp hlast
    exact hcontent record rfl

/-- Writing what is no record or one that meets the condition writes no other record, whether the
write turns out well or not. -/
lemma keeps_writeFileSync_only {path : JsString} {content : FileContent}
    (hcontent : ∀ record, content = .record record → condition record) :
    Action.Keeps (WritesOnly condition) (writeFileSync machine path content) := by
  intro s hs
  unfold writeFileSync writeAs
  cases machine.writeFileSync s.history path with
  | done => exact hs.wrote hcontent
  | failed error left =>
    cases left with
    | false => exact hs
    | true => exact hs.wrote fun record heq => by cases heq

/-- A record that meets the condition is written. -/
lemma keeps_writeRecord {record : CommandRecord} (h : condition record) (path : JsString) :
    Action.Keeps (WritesOnly condition) (writeRecord machine path record) := by
  have hrecord : ∀ other, FileContent.record record = .record other → condition other := by
    intro other heq
    cases heq
    exact h
  intro s hs
  rcases Action.returns_or_throws (writeRecord machine path record) s with
    ⟨u, s', hreturns⟩ | ⟨err, s', hthrows⟩
  · obtain ⟨u', middle, hwrite, hrename⟩ := Action.returns_bind_iff.mp hreturns
    rw [writeFileSync_returns hwrite] at hrename
    rw [hreturns, renameSync_returns (if_pos rfl) hrename]
    exact (hs.wrote hrecord).wrote hrecord
  · rw [hthrows]
    rcases Action.throws_bind_iff.mp hthrows with hwrite | ⟨u, middle, hwrite, hrename⟩
    · exact (keeps_writeFileSync_only hrecord).of_throws hs hwrite
    · rw [renameSync_throws hrename, writeFileSync_returns hwrite]
      exact hs.wrote hrecord

/-- A secret that is read is the one the file holds. -/
lemma readWitnessSecret_returns {path : JsString} {secret : Bytes} {s s' : CommandState}
    (h : (readWitnessSecret machine path).Returns s secret s') :
    HoldsSecret machine path s.history secret := by
  obtain ⟨text, s₁, hread, hchecked⟩ := Action.returns_bind_iff.mp h
  obtain ⟨found, s₂, hlook, hfound⟩ := Action.returns_bind_iff.mp hread
  obtain ⟨hprotected, rfl⟩ := Action.returns_look_iff.mp hlook
  obtain ⟨htext, rfl⟩ := Action.returns_lift_iff.mp hfound
  rw [mapError_eq_ok_iff] at htext
  obtain ⟨u, s₃, haddress, hsecret⟩ := Action.returns_bind_iff.mp hchecked
  obtain ⟨hhex, -⟩ := Action.returns_failIf_iff.mp haddress
  obtain ⟨rfl, -⟩ := Action.returns_pure_iff.mp hsecret
  exact ⟨text, hprotected.trans htext, by simpa using hhex, rfl⟩

/-- The authority of a deployment is the commitment of the secret its file holds. -/
lemma deployAuthority_returns {options : DeployOptions} {authority : Bytes} {s s' : CommandState}
    (h : (deployAuthority tools machine services options).Returns s authority s') :
    ∃ (secret : FixedBytes 32) (asked : History),
      HoldsSecret machine options.emitterSecretFile asked secret.val ∧
      authority = circuitAuthorityOf tools.sha256 secret := by
  unfold deployAuthority at h
  obtain ⟨_, s₁, -, h⟩ := Action.returns_bind_iff.mp h
  obtain ⟨secret, s₂, hsecret, h⟩ := Action.returns_bind_iff.mp h
  obtain ⟨computed, s₃, hcomputed, h⟩ := Action.returns_bind_iff.mp h
  obtain ⟨_, s₄, -, h⟩ := Action.returns_bind_iff.mp h
  obtain ⟨_, s₅, -, h⟩ := Action.returns_bind_iff.mp h
  obtain ⟨rfl, -⟩ := Action.returns_pure_iff.mp h
  obtain ⟨hclient, -⟩ := Action.returns_lift_iff.mp hcomputed
  rw [mapError_eq_ok_iff, emitterAuthorityOf_eq_ok_iff] at hclient
  obtain ⟨hwidth, hcommitment⟩ := hclient
  exact ⟨⟨secret, hwidth⟩, s₁.history, readWitnessSecret_returns hsecret, hcommitment⟩

/-- A record with this authority, if it is that of a deployment. -/
def HasAuthority (authority : Bytes) (record : CommandRecord) : Prop :=
  ∀ deployment, record = .deployment deployment →
    deployment.emitterAuthority = bytesToHex authority

/-- After the authority is known, a deployment writes records with this authority only. -/
lemma writesOnly_runDeploy (options : DeployOptions) (files : CommandFiles) :
    (∀ path record, .wrote path (.record record) ∉
      (runDeploy tools machine services options ⟨files, []⟩).2.history) ∨
    ∃ (secret : FixedBytes 32) (asked : History),
      HoldsSecret machine options.emitterSecretFile asked secret.val ∧
      WritesOnly (HasAuthority (circuitAuthorityOf tools.sha256 secret))
        (runDeploy tools machine services options ⟨files, []⟩).2 := by
  have hstart : WritesOnly (fun _ => False) ⟨files, []⟩ := fun _ _ hmem => by cases hmem
  suffices hleaves : Action.Leaves (WritesOnly fun _ => False)
      (fun s => (∀ path record, .wrote path (.record record) ∉ s.history) ∨
        ∃ (secret : FixedBytes 32) (asked : History),
          HoldsSecret machine options.emitterSecretFile asked secret.val ∧
          WritesOnly (HasAuthority (circuitAuthorityOf tools.sha256 secret)) s)
      (runDeploy tools machine services options) from hleaves ⟨files, []⟩ hstart
  unfold runDeploy
  refine Action.Keeps.bind_leaves (keeps_assertNewRecord _) (fun _ => Or.inl) fun _ => ?_
  apply Action.Leaves.bind
  · intro s err s' hs hthrows
    exact Or.inl ((keeps_deployAuthority writesOnly_steady options).of_throws hs hthrows)
  · intro authority s' hreturned
    obtain ⟨s, hs, hreturns⟩ := hreturned
    obtain ⟨secret, asked, hholds, rfl⟩ := deployAuthority_returns hreturns
    have hnone := (keeps_deployAuthority writesOnly_steady options).of_returns hs hreturns
    refine Or.inr ⟨secret, asked, hholds, ?_⟩
    -- from here on every record that is written has this authority
    generalize hauthority : circuitAuthorityOf tools.sha256 secret = authority
    have hsteady : Steady (WritesOnly (HasAuthority authority)) := writesOnly_steady
    have hsave : ∀ record : DeploymentRecord, record.emitterAuthority = bytesToHex authority →
        Action.Keeps (WritesOnly (HasAuthority authority))
          (writeRecord machine options.out (.deployment record)) := by
      intro record hrecord
      refine keeps_writeRecord (fun deployment heq => ?_) options.out
      cases heq
      exact hrecord
    suffices hkeeps : Action.Keeps (WritesOnly (HasAuthority authority)) _ from
      hkeeps s' fun path record hmem => absurd hmem (hnone path record)
    refine (keeps_maintenanceKey hsteady options).bind fun key => ?_
    refine (keeps_buildDeployment hsteady options _ _).bind fun pinned => ?_
    refine (hsave _ rfl).bind fun _ => ?_
    refine (keeps_logLine hsteady _).bind fun _ => ?_
    refine (keeps_callServices hsteady (fun _ _ => rfl) _).bind fun finalized => ?_
    refine (hsave _ rfl).bind fun _ => ?_
    refine Action.Keeps.bind ?_ fun submittedId => ?_
    · -- the submission is a call, and writes no record either
      intro s hs
      have hcalled := hs.called (((submitSavedTransaction tools.assembly.ledger
        (services.submitTx s.history) finalized (deployIntentCheck tools.deploy pinned.built)
        (some services.requireProofs)).calls).map .submitTx)
      rw [List.map_map] at hcalled
      exact hcalled
    refine (hsave _ rfl).bind fun _ => ?_
    refine (keeps_logLine hsteady _).bind fun _ => ?_
    refine (keeps_reportedInclusion hsteady _ _ _).bind fun inclusion => ?_
    refine (hsave _ rfl).bind fun _ => ?_
    refine (keeps_logLine hsteady _).bind fun _ => ?_
    refine (Action.keeps_failIf _ _).bind fun _ => ?_
    refine (keeps_ask hsteady (fun _ => rfl) _).bind fun state => ?_
    refine (Action.keeps_lift _).bind fun stateBytes => ?_
    refine (keeps_checkDeployed _ _ _ _ _).bind fun _ => ?_
    refine (hsave _ rfl).bind fun _ => ?_
    refine (keeps_logLine hsteady _).bind fun _ => ?_
    exact Action.keeps_pure _

/-- The services read a contract behind the whitelist, which is in the state `stateAt` when a
command has come to a point of its history. -/
def ReadsAdopter {σ U C : Type} (tools : CommandTools) (services : ChainServices)
    (generated : GeneratedModule) (address : JsString) (adopter : Adopter σ U C)
    (stateAt : History → σ) : Prop :=
  ∀ history stateBytes, services.contractState history address = .ok (some stateBytes) →
    ∀ view authority, ledgerView tools generated stateBytes = .ok view →
      view (js "emitterAuthority") = .bytes authority →
        authority = adopter.emitterAuthority (stateAt history)

/-- **A recorded deployment belongs to its secret.**  Whenever a run writes a verified record, the
contract it has read at the recorded address has the authority of the secret in the secret file,
and keeps it: in every run of calls from there, without a maintenance update, every accepted call is
proven with a secret of the same commitment. -/
theorem deployment_recorded {σ U C : Type} {adopter : Adopter σ U C} {options : DeployOptions}
    {stateAt : History → σ} (files : CommandFiles) {before after : History}
    {record : DeploymentRecord}
    (hwritten : (runDeploy tools machine services options ⟨files, []⟩).2.history =
      before ++ .wrote options.out (.record (.deployment record)) :: after)
    (hverified : record.stage = .verified)
    (hreads : ReadsAdopter tools services options.generated record.address adopter stateAt) :
    ∃ (secret : FixedBytes 32) (asked read : History) (stateBytes : Bytes),
      HoldsSecret machine options.emitterSecretFile asked secret.val ∧
      record.emitterAuthority = bytesToHex (circuitAuthorityOf tools.sha256 secret) ∧
      StateRead services record.address (some stateBytes) read before ∧
      ∀ chain, adopter.Runs tools.sha256 ⟨stateAt read, [], []⟩ chain →
        adopter.emitterAuthority chain.state = circuitAuthorityOf tools.sha256 secret ∧
        ∀ proven ∈ chain.accepted, circuitAuthorityOf tools.sha256 proven.secret =
          circuitAuthorityOf tools.sha256 secret := by
  have hmem : CommandEvent.wrote options.out (.record (.deployment record)) ∈
      (runDeploy tools machine services options ⟨files, []⟩).2.history := by
    rw [hwritten]
    exact List.mem_append_right _ List.mem_cons_self
  rcases writesOnly_runDeploy options files with hnone | ⟨secret, asked, hholds, hwrites⟩
  · exact absurd hmem (hnone _ _)
  have hauthority := hwrites _ _ hmem record rfl
  -- the verified record is written after its state has been read
  have hstart : Here tools services (.deploy options) [] false [] ⟨files, []⟩ :=
    ⟨.start, List.prefix_rfl, fun _ h => absurd h (by simp)⟩
  obtain ⟨saved, acted, hjournal, -⟩ := runDeploy_followed options ⟨files, []⟩ hstart
  have hsaves : savedAt (ChainCommand.deploy options).out
      (.wrote options.out (.record (.deployment record))) = some (.deployment record) := if_pos rfl
  obtain ⟨_, _, stateBytes, read, -, -, -, -, hread, hshows⟩ :=
    (hjournal.saved_next hwritten hsaves).2 hverified
  obtain ⟨view, authority, hview, hshown, hhex⟩ := hshows.authority
  have hsame : authority = circuitAuthorityOf tools.sha256 secret := by
    rw [← hexPairs_bytesToHex authority, hhex, hauthority, hexPairs_bytesToHex]
  have hstate := hreads read stateBytes hread.1 view authority hview hshown
  rw [hsame] at hstate
  refine ⟨secret, asked, read, stateBytes, hholds, hauthority, hread, fun chain hruns => ?_⟩
  have hfollows := Adopter.follows_reaches hruns
  rw [hstate]
  exact ⟨hfollows.authority, hfollows.authorized⟩

end Deployments

/-! ### A deployment and a pin with the zero secret -/

/-- The inclusion of a transaction. -/
def sampleInclusion : IncludedTransaction :=
  ⟨js "hash", js "00", success, [js "id"], .int 2, js "block"⟩

/-- The deploy tools on a ledger whose states all show one maintenance key. -/
def deployedTools : CommandTools :=
  { sampleTools 1 with
    assembly := { (sampleTools 1).assembly with runtimeState := fun _ => .ok [] }
    deploy := { (sampleTools 1).deploy with
      deserializeState := fun _ =>
        .ok ⟨⟨fun _ => none⟩, [], ⟨[⟨js "schnorr", js "public"⟩], 1, 0⟩, []⟩ }
    sha256 := zeroSecretHash }

/-- Services that report the inclusion and read a state. -/
def deployedServices : ChainServices :=
  { sampleServices with
    waitForInclusion := fun _ _ _ => .ok (some sampleInclusion)
    contractState := fun _ _ => .ok (some []) }

/-- The deployment of an emitter. -/
def deployedOptions : DeployOptions :=
  { sampleDeployment with
    generated := { sampleDeployment.generated with
      ledger := fun _ => .ok fun name =>
        if name = js "emitterAuthority" then .bytes zeroSecretAuthority.val else .other
      emitterAuthorityOf := some fun _ => .ok (.bytes zeroSecretAuthority.val) } }

/-- The verified deployment an event records. -/
def verifiedDeployment? (out : JsString) : CommandEvent → Option DeploymentRecord
  | .wrote path (.record (.deployment record)) =>
    if path = out ∧ record.stage = .verified then some record else none
  | _ => none

/-- The emitter that is deployed has the authority of the zero secret, and keeps it. -/
theorem deployment_recorded_zero_secret : ∃ secret : FixedBytes 32,
    ∀ chain, emitter.Runs zeroSecretHash ⟨⟨zeroSecretAuthority.val⟩, [], []⟩ chain →
      emitter.emitterAuthority chain.state = circuitAuthorityOf zeroSecretHash secret := by
  have hwrites : (((runDeploy deployedTools (sampleMachine 1) deployedServices deployedOptions
      ⟨fun _ => none, []⟩).2.history.findSome?
        (verifiedDeployment? deployedOptions.out)).isSome) = true := by decide +kernel
  obtain ⟨record, hrecord⟩ := Option.isSome_iff_exists.mp hwrites
  obtain ⟨event, hmem, hevent⟩ := List.exists_of_findSome?_eq_some hrecord
  obtain ⟨before, after, hsplit⟩ := List.append_of_mem hmem
  unfold verifiedDeployment? at hevent
  split at hevent
  · next path written =>
    rw [Option.ite_none_right_eq_some] at hevent
    obtain ⟨⟨rfl, hverified⟩, heq⟩ := hevent
    cases heq
    have hreads : ReadsAdopter deployedTools deployedServices deployedOptions.generated
        record.address emitter fun _ => ⟨zeroSecretAuthority.val⟩ := by
      intro history stateBytes _ view authority hview hshown
      cases hview
      exact (RuntimeValue.bytes.inj hshown).symm
    obtain ⟨secret, _, _, _, -, -, -, hlater⟩ :=
      deployment_recorded (fun _ => none) hsplit hverified hreads
    exact ⟨secret, fun chain hruns => (hlater chain hruns).1⟩
  · cases hevent

/-- The address of the board. -/
def pinnedBoardAddress : JsString := bytesToHex (List.replicate 32 1)

/-- A transaction with one call of `pin`. -/
def pinTransaction : Transaction where
  intents := InsertionMap.empty.set 1
    ⟨[.call ⟨pinnedBoardAddress, .text (js "pin"), some ⟨[], [], []⟩, none⟩], none, none, none,
      fun _ => js "hash"⟩
  fallibleOffer := .empty
  ownHash := some (js "hash")
  identifiers := [js "id"]
  serialize := [9]

/-- The board's circuit `pin`, on a ledger that leaves its transcript out. -/
def tracedPin : GeneratedCircuit := fun context _ => .ok {
  callProofDataTrace := [{
    contractAddress := context.contract
    circuitId := context.entryPoint
    commCommData := none
    zswapLocalState := ⟨none, none⟩
    initialQueryContext := ⟨[], [], [], [], []⟩
    finalQueryContext := ⟨[], [], [], [], []⟩
    publicTranscript := []
    privateTranscriptOutputs := []
    input := []
    output := [] }]
  events := [] }

/-- The deploy tools on a ledger where every call is the one of `pin`. -/
def pinTools : CommandTools :=
  { sampleTools 1 with
    assembly := { (sampleTools 1).assembly with
      ledger := { (sampleTools 1).assembly.ledger with
        deserialize := fun _ _ => .ok pinTransaction
        deserializeState := fun _ => .ok ⟨fun _ => some ⟨some [1]⟩⟩ }
      runtimeState := fun bytes => .ok (bytesToHex bytes)
      fromPartsRandomized := fun _ => ⟨.empty, .empty, none, [], []⟩
      addCalls := fun _ _ _ _ _ => .ok pinTransaction }
    sha256 := zeroSecretHash }

/-- The board before the submission, and after it. -/
def pinnedBoardAt (history : History) : BoardState :=
  if history.any isSubmission then zeroSecretBoard.afterCalls [.pin sampleDigest]
  else zeroSecretBoard

/-- Services that read this board, serialized as its count. -/
def pinServices : ChainServices :=
  { deployedServices with
    contractState := fun history _ => .ok (some (if history.any isSubmission then [1] else [0])) }

/-- The pin of the sample digest. -/
def pinOptions : PinOptions where
  profile := ⟨.noticeBoard, noticeEvent, js "emitPart"⟩
  generated := {
    contract := .ok ⟨fun _ => some tracedPin, fun _ authority => .ok authority⟩
    ledger := fun state => .ok fun name =>
      let board := if state = js "01" then zeroSecretBoard.afterCalls [.pin sampleDigest]
        else zeroSecretBoard
      if name = js "pinnedCount" then .bigint board.pinnedCount
      else if name = js "pinnedDigest" then .bytes board.pinnedDigest
      else .bytes board.emitterAuthority
    emitterAuthorityOf := none }
  address := pinnedBoardAddress
  digest := sampleDigest.val
  secretFile := js "emitter.secret"
  ttlSeconds := .int 600
  out := js "pin.json"

/-- The services read the board before the pin and after it. -/
lemma readsBoard_pin :
    ReadsBoard pinTools pinServices pinOptions.generated pinOptions.address pinnedBoardAt := by
  constructor
  · intro history stateBytes hread
    cases hread
    refine ⟨_, rfl, ?_, ?_, ?_⟩ <;> unfold pinnedBoardAt <;>
      cases history.any isSubmission <;> rfl
  · intro earlier later hprefix
    obtain ⟨more, rfl⟩ := hprefix
    unfold pinnedBoardAt
    rw [List.any_append]
    by_cases hearlier : earlier.any isSubmission = true
    · rw [hearlier, Bool.true_or, if_pos rfl]
      exact ⟨_, .start, rfl⟩
    · rw [if_neg hearlier]
      rw [Bool.not_eq_true] at hearlier
      rw [hearlier, Bool.false_or]
      by_cases hmore : more.any isSubmission = true
      · rw [if_pos hmore]
        exact ⟨_, runs_pinnedBoard, rfl⟩
      · rw [if_neg hmore]
        exact ⟨_, .start, rfl⟩

/-- The check of this pin passes, with the count one. -/
theorem pinnedCount_eq_ok_iff_sample :
    pinnedCount pinTools pinOptions (some 0) (some [1]) = .ok 1 := by
  have hshows : ShowsBoard pinTools pinOptions.generated [1]
      (zeroSecretBoard.afterCalls [.pin sampleDigest]) := ⟨_, rfl, rfl, rfl, rfl⟩
  exact (pinnedCount_eq_ok_iff runs_pinnedBoard hshows).mpr ⟨rfl, rfl⟩

/-- The verified pin an event records. -/
def verifiedPin? (out : JsString) : CommandEvent → Option PinRecord
  | .wrote path (.record (.pin record)) =>
    if path = out ∧ record.stage = .verified then some record else none
  | _ => none

/-- The pin is recorded, and it is the one pin of the board. -/
theorem pin_recorded_sample : ∃ earlier chain,
    noticeBoard.Runs zeroSecretHash ⟨pinnedBoardAt earlier, [], []⟩ chain ∧
      chain.pins = [sampleDigest.val] := by
  have hwrites : (((runPin pinTools (sampleMachine 1) pinServices pinOptions
      ⟨fun _ => none, []⟩).2.history.findSome? (verifiedPin? pinOptions.out)).isSome) = true := by
    decide +kernel
  obtain ⟨record, hrecord⟩ := Option.isSome_iff_exists.mp hwrites
  obtain ⟨event, hmem, hevent⟩ := List.exists_of_findSome?_eq_some hrecord
  obtain ⟨before, after, hsplit⟩ := List.append_of_mem hmem
  unfold verifiedPin? at hevent
  split at hevent
  · next path written =>
    rw [Option.ite_none_right_eq_some] at hevent
    obtain ⟨⟨rfl, hverified⟩, heq⟩ := hevent
    cases heq
    obtain ⟨earlier, _, chain, first, _, hfirst, -, hruns, -, hpins, -⟩ :=
      pin_recorded readsBoard_pin (fun _ => none) hsplit hverified
    refine ⟨earlier, chain, hruns, hpins ?_⟩
    rintro rfl
    cases hfirst.1
  · cases hevent

end MultiPartEvent
