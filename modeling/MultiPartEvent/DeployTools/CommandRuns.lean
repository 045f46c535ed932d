import MultiPartEvent.DeployTools.RecordFirst

/-!
# Runs of the chain commands

Each command follows its discipline from its first step to wherever it ends.  What comes before the
first record neither saves nor submits; from there on every step has its rule.  The discipline then
gives, for every run, that a record precedes the one submission, and everything else a run promises
about its record (`records_first`).
-/

namespace MultiPartEvent

section Runs

variable {tools : CommandTools} {machine : Machine} {services : ChainServices}
  {command : ChainCommand} {saved : List CommandRecord} {acted : Bool} {past : History}

/-! ### Steps that save no record -/

/-- Creating a secret file. -/
lemma keeps_createSecretFile {I : CommandState → Prop} (hI : Steady I) (path content : JsString)
    (allowInsideRepository : Bool) :
    Action.Keeps I (createSecretFile machine path content allowInsideRepository) := by
  intro s hs
  unfold createSecretFile
  cases hfile : s.files path with
  | some found =>
    cases machine.writeSecretFile s.history path content allowInsideRepository with
    | done => exact hs
    | failed error left => exact hs
  | none =>
    have hcreated := hI.created s path hfile hs
    cases machine.writeSecretFile s.history path content allowInsideRepository with
    | done => exact hcreated
    | failed error left =>
      cases left with
      | false => exact hs
      | true => exact hcreated

/-- Reading a protected file. -/
lemma keeps_readProtected {I : CommandState → Prop} (path : JsString) :
    Action.Keeps I (readProtected machine path) :=
  (Action.keeps_look _).bind fun _ => Action.keeps_lift _

/-- Reading a witness secret. -/
lemma keeps_readWitnessSecret {I : CommandState → Prop} (path : JsString) :
    Action.Keeps I (readWitnessSecret machine path) :=
  (keeps_readProtected path).bind fun _ => (Action.keeps_failIf _ _).bind
    fun _ => Action.keeps_pure _

/-- Refusing a path that exists. -/
lemma keeps_assertNewRecord {I : CommandState → Prop} (path : JsString) :
    Action.Keeps I (assertNewRecord path) :=
  (Action.keeps_look _).bind fun _ => Action.keeps_failIf _ _

/-- The authority of a deployment. -/
lemma keeps_deployAuthority {I : CommandState → Prop} (hI : Steady I) (options : DeployOptions) :
    Action.Keeps I (deployAuthority tools machine services options) := by
  unfold deployAuthority
  apply Action.Keeps.bind
  · apply Action.Keeps.runUnless
    exact (Action.keeps_look _).bind fun _ => keeps_createSecretFile hI _ _ _
  intro _
  refine (keeps_readWitnessSecret _).bind fun _ => ?_
  refine (keeps_compute _).bind fun _ => ?_
  refine (keeps_compute _).bind fun _ => ?_
  exact (Action.keeps_failIf _ _).bind fun _ => Action.keeps_pure _

/-- The maintenance key of a deployment. -/
lemma keeps_maintenanceKey {I : CommandState → Prop} (hI : Steady I) (options : DeployOptions) :
    Action.Keeps I (maintenanceKey tools machine services options) := by
  unfold maintenanceKey
  apply Action.Keeps.bind
  · apply Action.Keeps.runUnless
    exact (Action.keeps_look _).bind fun _ => keeps_createSecretFile hI _ _ _
  intro _
  apply Action.Keeps.bind
  · exact (keeps_readProtected _).bind fun _ => Action.keeps_lift _
  intro _
  exact keeps_compute _

/-- Building a deployment. -/
lemma keeps_buildDeployment {I : CommandState → Prop} (hI : Steady I) (options : DeployOptions)
    (authority : Bytes) (key : SignatureVerifyingKey) :
    Action.Keeps I (buildDeployment tools services options authority key) := by
  unfold buildDeployment
  refine (keeps_compute _).bind fun _ => ?_
  refine (keeps_compute _).bind fun _ => ?_
  refine (keeps_ask hI (fun _ => rfl) _).bind fun _ => ?_
  exact (keeps_compute _).bind fun _ => Action.keeps_pure _

/-- A circuit of the generated contract. -/
lemma keeps_requiredCircuit {I : CommandState → Prop} (generated : GeneratedModule)
    (missing name : JsString) : Action.Keeps I (requiredCircuit generated missing name) :=
  (keeps_compute _).bind fun _ => Action.keeps_lift _

/-- Building a publication. -/
lemma keeps_buildPublication {I : CommandState → Prop} (hI : Steady I) (options : PublishOptions) :
    Action.Keeps I (buildPublication tools machine services options) := by
  unfold buildPublication
  refine (Action.keeps_failIf _ _).bind fun _ => ?_
  refine (keeps_readWitnessSecret _).bind fun _ => ?_
  refine (keeps_requiredCircuit _ _ _).bind fun _ => ?_
  refine (keeps_compute _).bind fun _ => ?_
  exact keeps_ask hI (fun _ => rfl) _

/-! ### After the submission -/

/-- After the wait for an inclusion, one has been reported. -/
lemma leaves_reportedInclusion_bind {α : Type} {identifiers : List JsString} {ttl : JsDate}
    {notSeen : JsString} {f : IncludedTransaction → Command α}
    (hmay : acted = true → command.isDryRun = false)
    (hnext : ∀ inclusion past', InclusionReported services identifiers inclusion past' →
      past <+: past' →
      Action.Leaves (Here tools services command saved acted past')
        (Followed tools services command) (f inclusion)) :
    Action.Leaves (Here tools services command saved acted past) (Followed tools services command)
      (reportedInclusion machine services identifiers ttl notSeen >>= f) := by
  have hweaken :
      ∀ s, Here tools services command saved acted past s → Followed tools services command s :=
    fun s hs => hs.followed hmay
  unfold reportedInclusion
  rw [Action.bind_assoc]
  refine Action.Keeps.bind_leaves (Action.keeps_look _) hweaken fun timeoutMs => ?_
  rw [Action.bind_assoc]
  refine leaves_ask_bind hmay (fun _ => rfl) fun answer before past' hbefore hanswered => ?_
  refine Action.Leaves.lift_bind (fun s hs => hs.followed hmay) fun inclusion hinclusion => ?_
  rw [required_eq_ok_iff] at hinclusion
  subst hinclusion
  have hpast : before <+: past' := by
    obtain ⟨files, hfiles⟩ := hanswered.2
    exact (List.prefix_append _ _).trans hfiles
  exact hnext inclusion past' ⟨timeoutMs, before, hanswered⟩ (hbefore.trans hpast)

/-- A record of a stage before the last one may be saved when it is the next one of a course. -/
lemma next_of_course {record : CommandRecord} (stage : Stage) (rest : List Stage)
    (hcourse : saved.map CommandRecord.stage ++ stage :: rest ∈ command.courses)
    (hstage : record.stage = stage) (hne : stage ≠ .verified) :
    (commandDiscipline tools services command).next saved past record := by
  refine ⟨⟨_, hcourse, rest, ?_⟩, fun h => absurd (hstage.symm.trans h) hne⟩
  rw [List.map_append, List.append_assoc, ← hstage]
  rfl

/-! ### Deployments -/

/-- A value is the expected bytes. -/
lemma isBytes_eq_true_iff {value : RuntimeValue} {expected : Bytes} :
    value.isBytes expected = true ↔ value = .bytes expected := by
  cases value with
  | bytes actual => simp [RuntimeValue.isBytes]
  | bigint n => simp [RuntimeValue.isBytes]
  | other => simp [RuntimeValue.isBytes]

/-- After the checks of the deployed state, it shows the record. -/
lemma leaves_checkDeployed_bind {α : Type} {P Q : CommandState → Prop} {options : DeployOptions}
    {built : BuiltDeploy} {key : SignatureVerifyingKey} {authority stateBytes : Bytes}
    {f : Unit → Command α} (hweaken : ∀ s, P s → Q s)
    (hnext : ShowsDeployment tools options.generated
      (builtRecord services options built authority key) stateBytes → Action.Leaves P Q (f ())) :
    Action.Leaves P Q (checkDeployed tools options built key authority stateBytes >>= f) := by
  unfold checkDeployed
  rw [Action.bind_assoc]
  refine leaves_compute_bind hweaken fun deployed hdeployed => ?_
  split
  · exact fun s hs => hweaken s hs
  · next hfound =>
    rw [Action.bind_assoc]
    refine Action.Leaves.failIf_bind hweaken fun hmaintenance => ?_
    rw [Action.bind_assoc]
    refine leaves_compute_bind hweaken fun view hview => ?_
    refine Action.Leaves.failIf_bind hweaken fun hshown => hnext ?_
    rw [not_or, not_not, not_not] at hmaintenance
    refine ⟨⟨deployed, hdeployed, ?_, hmaintenance.1, hmaintenance.2⟩, ?_⟩
    · intro entry hentry
      have hsame := List.find?_eq_none.mp hfound entry hentry
      rw [decide_eq_true_eq, not_not, Option.map_eq_some_iff] at hsame
      exact hsame
    · rw [Bool.not_eq_false, isBytes_eq_true_iff] at hshown
      exact ⟨view, authority, hview, hshown, rfl⟩

/-- **A deployment follows its discipline.** -/
lemma runDeploy_followed (options : DeployOptions) :
    Action.Leaves (Here tools services (.deploy options) [] false past)
      (Followed tools services (.deploy options)) (runDeploy tools machine services options) := by
  have hmay : ∀ {acted : Bool}, acted = true → (ChainCommand.deploy options).isDryRun = false :=
    fun _ => rfl
  have hweaken : ∀ {saved acted past} s, Here tools services (.deploy options) saved acted past s →
      Followed tools services (.deploy options) s := fun s hs => hs.followed hmay
  unfold runDeploy
  refine Action.Keeps.bind_leaves (keeps_assertNewRecord _) hweaken fun _ => ?_
  refine Action.Keeps.bind_leaves (keeps_deployAuthority here_steady options) hweaken
    fun authority => ?_
  refine Action.Keeps.bind_leaves (keeps_maintenanceKey here_steady options) hweaken fun key => ?_
  refine Action.Keeps.bind_leaves (keeps_buildDeployment here_steady options authority key) hweaken
    fun pinned => ?_
  refine leaves_writeRecord_bind hmay (fun _ _ => next_of_course .built
    [.finalized, .submitted, .included, .verified] List.mem_cons_self rfl (by decide)) ?_
  refine Action.Keeps.bind_leaves (keeps_logLine here_steady _) hweaken fun _ => ?_
  refine Action.Keeps.bind_leaves (keeps_callServices here_steady (fun _ _ => rfl) _) hweaken
    fun finalized => ?_
  refine leaves_writeRecord_bind hmay (fun _ _ => next_of_course .finalized
    [.submitted, .included, .verified] List.mem_cons_self rfl (by decide)) ?_
  refine leaves_submit_bind rfl rfl ?_ fun submittedId => ?_
  · intro tx htx
    obtain ⟨bytes, hbytes, hdeserializes⟩ := deserializes_of_checkedSavedTransaction htx
    exact ⟨rfl, _, bytes, rfl, hbytes, hdeserializes⟩
  refine leaves_writeRecord_bind hmay (fun _ _ =>
    next_of_course .submitted [.included, .verified] List.mem_cons_self rfl (by decide)) ?_
  refine Action.Keeps.bind_leaves (keeps_logLine here_steady _) hweaken fun _ => ?_
  refine leaves_reportedInclusion_bind hmay fun inclusion past' hreported hpast => ?_
  refine leaves_writeRecord_bind hmay (fun _ _ =>
    next_of_course .included [.verified] List.mem_cons_self rfl (by decide)) ?_
  refine Action.Keeps.bind_leaves (keeps_logLine here_steady _) hweaken fun _ => ?_
  refine Action.Leaves.failIf_bind hweaken fun hstatus => ?_
  refine leaves_ask_bind hmay (fun _ => rfl) fun state before past'' hbefore hread => ?_
  refine Action.Leaves.lift_bind hweaken fun stateBytes hstate => ?_
  rw [required_eq_ok_iff] at hstate
  subst hstate
  refine leaves_checkDeployed_bind hweaken fun (hshows : ShowsDeployment tools options.generated
    (builtRecord services options pinned.built authority key) stateBytes) => ?_
  refine leaves_writeRecord_bind hmay ?_ ?_
  · intro last hlast
    refine ⟨⟨_, List.mem_cons_self, [], rfl⟩, fun _ => ?_⟩
    exact ⟨finalized, inclusion, stateBytes, before, rfl, rfl, hreported.of_prefix hbefore,
      not_not.mp hstatus, hread.of_prefix hlast, hshows.deployed, hshows.authority⟩
  refine Action.Keeps.bind_leaves (keeps_logLine here_steady _) hweaken fun _ => ?_
  exact hweaken

/-! ### Publications -/

/-- A package that is reported as verified was found. -/
lemma packageFound_of_verified {verification : TransactionVerification} {pkg : PackageRecord}
    {published : PublishedPackage} (h : publishedPackage verification pkg = .ok published)
    (hverified : published.verified = true) : PackageFound verification pkg := by
  obtain ⟨expected, hexpected, h⟩ := bind_eq_ok_iff.mp h
  rw [pure_eq_ok_iff] at h
  subst h
  rw [decide_eq_true_eq, List.length_eq_zero_iff] at hverified
  obtain ⟨hissues, hpayload⟩ := hverified
  rw [List.append_eq_nil_iff, List.append_eq_nil_iff] at hissues
  obtain ⟨⟨htransaction, hplacement⟩, hreader⟩ := hissues
  cases hfound : verification.packages.find? fun entry =>
      decide (JsNumber.int entry.package.segment = pkg.segment) with
  | none =>
    rw [hfound] at hplacement
    cases hplacement
  | some found =>
    rw [hfound] at hplacement hreader hpayload
    have hsegment : JsNumber.int found.package.segment = pkg.segment := by
      simpa using List.find?_some hfound
    obtain ⟨payload, hsome, hsame⟩ := (Option.any_eq_true _ _).mp hpayload
    rw [bytesEqual_iff] at hsame
    subst hsame
    exact ⟨htransaction, found, List.mem_of_find?_eq_some hfound, hsegment, hplacement, hreader,
      payload, hexpected, hsome⟩

/-- The packages that are reported as verified were found. -/
lemma packagesFound_of_verified {verification : TransactionVerification} {pkgs : List PackageRecord}
    {packages : List PublishedPackage}
    (h : pkgs.mapM (publishedPackage verification) = .ok packages)
    (hverified : publishedStage packages = .verified) :
    ∀ pkg ∈ pkgs, PackageFound verification pkg := by
  intro pkg hpkg
  obtain ⟨i, hi⟩ := List.getElem?_of_mem hpkg
  obtain ⟨published, hpublished, hplace⟩ := getElem?_of_mapM_eq_ok h hi
  have hall : packages.all PublishedPackage.verified = true := by
    by_contra hnot
    rw [publishedStage, if_neg hnot] at hverified
    cases hverified
  exact packageFound_of_verified hpublished
    (List.all_eq_true.mp hall published (List.mem_of_getElem? hplace))

/-- The packages have been checked, or one of them has failed. -/
lemma publishedStage_cases (packages : List PublishedPackage) :
    publishedStage packages = .verified ∨ publishedStage packages = .included := by
  unfold publishedStage
  split
  · exact Or.inl rfl
  · exact Or.inr rfl

/-- The record of a publication is finalized. -/
lemma publicationRecord_eq_ok {options : PublishOptions} {built : BuiltTransaction}
    {finalized : FinalizedRecord} {record : PublicationRecord}
    (h : publicationRecord tools services options built finalized = .ok record) :
    record.stage = .finalized ∧ record.finalized = finalized := by
  obtain ⟨bytes, -, h⟩ := bind_eq_ok_iff.mp h
  obtain ⟨finalTx, -, h⟩ := bind_eq_ok_iff.mp h
  obtain ⟨normalizedCost, -, h⟩ := bind_eq_ok_iff.mp h
  rw [pure_eq_ok_iff] at h
  subst h
  exact ⟨rfl, rfl⟩

/-- Writing the lines about the packages. -/
lemma keeps_logPackages {I : CommandState → Prop} (hI : Steady I)
    (packages : List PublishedPackage) :
    Action.Keeps I (logPackages services packages) := by
  induction packages with
  | nil => exact Action.keeps_pure _
  | cons pkg packages ih => exact (keeps_logLine hI _).bind fun _ => ih

/-- **A publication follows its discipline.** -/
lemma runPublish_followed (options : PublishOptions) :
    Action.Leaves (Here tools services (.publish options) [] false past)
      (Followed tools services (.publish options)) (runPublish tools machine services options) := by
  have hbefore : ∀ {saved past} s, Here tools services (.publish options) saved false past s →
      Followed tools services (.publish options) s :=
        fun s hs => hs.followed fun h => absurd h (by simp)
  unfold runPublish
  refine Action.Keeps.bind_leaves (keeps_assertNewRecord _) hbefore fun _ => ?_
  refine Action.Keeps.bind_leaves (keeps_buildPublication here_steady options) hbefore
    fun built => ?_
  refine Action.Keeps.bind_leaves (keeps_logLine here_steady _) hbefore fun _ => ?_
  refine Action.Keeps.bind_leaves (keeps_callServices here_steady (fun _ _ => rfl) _) hbefore
    fun finalized => ?_
  refine leaves_compute_bind hbefore fun record hrecord => ?_
  obtain ⟨hstage, rfl⟩ := publicationRecord_eq_ok hrecord
  refine leaves_writeRecord_bind (fun h => absurd h (by simp)) (fun _ _ => next_of_course .finalized
    [.submitted, .included, .verified] List.mem_cons_self hstage (by decide)) ?_
  refine Action.Keeps.bind_leaves (keeps_logLine here_steady _) hbefore fun _ => ?_
  split
  · exact hbefore
  · next hdry =>
    have hmay : ∀ {acted : Bool}, acted = true → (ChainCommand.publish options).isDryRun = false :=
      fun _ => decide_eq_false hdry
    have hweaken :
        ∀ {saved acted past} s, Here tools services (.publish options) saved acted past s →
        Followed tools services (.publish options) s := fun s hs => hs.followed hmay
    refine leaves_submit_bind (decide_eq_false hdry) rfl ?_ fun submittedId => ?_
    · intro tx htx
      obtain ⟨bytes, hbytes, hdeserializes⟩ := (checkedTransaction_eq_ok_iff.mp htx).bytes
      exact ⟨hstage, _, bytes, rfl, hbytes, hdeserializes⟩
    refine leaves_writeRecord_bind hmay (fun _ _ => next_of_course .submitted [.included, .verified]
      (by simp [CommandRecord.stage, hstage, ChainCommand.courses]) rfl (by decide)) ?_
    refine Action.Keeps.bind_leaves (keeps_logLine here_steady _) hweaken fun _ => ?_
    refine leaves_reportedInclusion_bind hmay fun inclusion past' hreported hpast => ?_
    refine leaves_compute_bind hweaken fun included hincluded => ?_
    obtain ⟨raw, hraw, hincluded⟩ := bind_eq_ok_iff.mp hincluded
    refine leaves_writeRecord_bind hmay (fun _ _ => next_of_course .included [.verified]
      (by simp [CommandRecord.stage, hstage, ChainCommand.courses]) rfl (by decide)) ?_
    refine Action.Leaves.failIf_bind hweaken fun hcontains => ?_
    refine leaves_compute_bind hweaken fun verification hverification => ?_
    refine leaves_compute_bind hweaken fun packages hpackages => ?_
    refine leaves_writeRecord_bind hmay ?_ ?_
    · intro last hlast
      refine ⟨?_, fun hverified => ?_⟩
      · rcases publishedStage_cases packages with h | h
        · exact ⟨_, List.mem_cons_self, [], by simp [CommandRecord.stage, hstage, h]⟩
        · exact ⟨_, List.mem_cons_of_mem _ List.mem_cons_self,
            [], by simp [CommandRecord.stage, hstage, h]⟩
      · refine ⟨inclusion, raw, included, verification, rfl, ?_, hraw, hincluded, ?_, hverification,
          ?_⟩
        · exact hreported.of_prefix hlast
        · exact Bool.eq_true_of_not_eq_false hcontains
        · exact packagesFound_of_verified hpackages hverified
    refine Action.Keeps.bind_leaves (keeps_logLine here_steady _) hweaken fun _ => ?_
    refine Action.Keeps.bind_leaves (keeps_logPackages here_steady packages) hweaken fun _ => ?_
    exact Action.Leaves.failIf_bind hweaken fun _ => hweaken

/-! ### Pins -/

/-- After building a pin, the count before it is known. -/
lemma leaves_buildPin_bind {α : Type} {options : PinOptions} {f : PinnedCall → Command α}
    (hmay : acted = true → command.isDryRun = false)
    (hnext : ∀ pinned past' first asked, past <+: past' →
      StateRead services options.address first asked past' →
      countOf tools options.generated first = .ok pinned.countBefore →
      Action.Leaves (Here tools services command saved acted past')
        (Followed tools services command) (f pinned)) :
    Action.Leaves (Here tools services command saved acted past) (Followed tools services command)
      (buildPin tools machine services options >>= f) := by
  have hweaken : ∀ {past} s, Here tools services command saved acted past s →
      Followed tools services command s := fun s hs => hs.followed hmay
  unfold buildPin
  rw [Action.bind_assoc]
  refine Action.Leaves.failIf_bind hweaken fun _ => ?_
  rw [Action.bind_assoc]
  refine Action.Leaves.failIf_bind hweaken fun _ => ?_
  rw [Action.bind_assoc]
  refine Action.Keeps.bind_leaves (keeps_readWitnessSecret _) hweaken fun secret => ?_
  rw [Action.bind_assoc]
  refine Action.Keeps.bind_leaves (keeps_requiredCircuit _ _ _) hweaken fun pin => ?_
  rw [Action.bind_assoc]
  refine leaves_ask_bind hmay (fun _ => rfl) fun first asked past' hbefore hread => ?_
  rw [Action.bind_assoc]
  refine leaves_compute_bind hweaken fun countBefore hcount => ?_
  rw [Action.bind_assoc]
  refine Action.Keeps.bind_leaves (keeps_ask here_steady (fun _ => rfl) _) hweaken fun built => ?_
  have hpast : asked <+: past' := by
    obtain ⟨files, hfiles⟩ := hread.2
    exact (List.prefix_append _ _).trans hfiles
  exact hnext ⟨countBefore, built⟩ past' first asked (hbefore.trans hpast) hread hcount

/-- The count of a state is the one its view shows. -/
lemma countOf_eq_some {generated : GeneratedModule} {stateBytes : Bytes}
    {view : JsString → RuntimeValue}
    {count : ℤ} (hview : ledgerView tools generated stateBytes = .ok view)
    (h : countOf tools generated (some stateBytes) = .ok (some count)) :
    view (js "pinnedCount") = .bigint count := by
  obtain ⟨view', hview', h⟩ := bind_eq_ok_iff.mp h
  rw [hview] at hview'
  cases hview'
  split at h
  · next shown hshown =>
    rw [pure_eq_ok_iff, Option.some.injEq] at h
    exact h ▸ hshown
  · cases h

/-- A state that shows the pin shows the digest, and a count that is one more than before. -/
lemma pinnedCount_eq_ok {options : PinOptions} {countBefore : Option ℤ} {after : Option Bytes}
    {count : ℤ} (h : pinnedCount tools options countBefore after = .ok count) :
    ∃ stateBytes view, after = some stateBytes ∧
      ledgerView tools options.generated stateBytes = .ok view ∧
      view (js "pinnedDigest") = .bytes options.digest ∧ view (js "pinnedCount") = .bigint count ∧
      ∀ n, countBefore = some n → count = n + 1 := by
  obtain ⟨shown, hshown, h⟩ := bind_eq_ok_iff.mp h
  obtain ⟨countAfter, hcount, h⟩ := bind_eq_ok_iff.mp h
  rw [mapError_eq_ok_iff] at hshown hcount
  split at h
  · split_ifs at h with hmore
    cases h
    cases after with
    | none => cases hcount
    | some stateBytes =>
      obtain ⟨view, hview, hdigest⟩ := bind_eq_ok_iff.mp hshown
      rw [pure_eq_ok_iff, isBytes_eq_true_iff] at hdigest
      refine ⟨stateBytes, view, rfl, hview, hdigest, countOf_eq_some hview hcount, ?_⟩
      intro n hn
      rw [hn, Option.all_some, decide_eq_true_eq] at hmore
      exact hmore
  · cases h

/-- **A pin follows its discipline.** -/
lemma runPin_followed (options : PinOptions) :
    Action.Leaves (Here tools services (.pin options) [] false past)
      (Followed tools services (.pin options)) (runPin tools machine services options) := by
  have hmay : ∀ {acted : Bool}, acted = true → (ChainCommand.pin options).isDryRun = false :=
    fun _ => rfl
  have hweaken : ∀ {saved acted past} s, Here tools services (.pin options) saved acted past s →
      Followed tools services (.pin options) s := fun s hs => hs.followed hmay
  unfold runPin
  refine Action.Keeps.bind_leaves (keeps_assertNewRecord _) hweaken fun _ => ?_
  refine leaves_buildPin_bind hmay fun pinned started first asked hpast hfirst hcountBefore => ?_
  refine Action.Keeps.bind_leaves (keeps_callServices here_steady (fun _ _ => rfl) _) hweaken
    fun finalized => ?_
  refine leaves_writeRecord_bind hmay (fun _ _ => next_of_course .finalized
    [.submitted, .included, .verified] List.mem_cons_self rfl (by decide)) ?_
  refine leaves_submit_bind rfl rfl ?_ fun submittedId => ?_
  · intro tx htx
    obtain ⟨bytes, hbytes, hdeserializes⟩ := deserializes_of_checkedSavedTransaction htx
    exact ⟨rfl, _, bytes, rfl, hbytes, hdeserializes⟩
  refine leaves_writeRecord_bind hmay (fun _ _ =>
    next_of_course .submitted [.included, .verified] List.mem_cons_self rfl (by decide)) ?_
  refine Action.Keeps.bind_leaves (keeps_logLine here_steady _) hweaken fun _ => ?_
  refine leaves_reportedInclusion_bind hmay fun inclusion past' hreported hpast' => ?_
  refine leaves_writeRecord_bind hmay (fun _ _ =>
    next_of_course .included [.verified] List.mem_cons_self rfl (by decide)) ?_
  refine Action.Keeps.bind_leaves (keeps_logLine here_steady _) hweaken fun _ => ?_
  refine Action.Leaves.failIf_bind hweaken fun hstatus => ?_
  refine leaves_ask_bind hmay (fun _ => rfl) fun after before past'' hbefore hread => ?_
  refine Action.Leaves.lift_bind hweaken fun count hcount => ?_
  obtain ⟨stateBytes, view, rfl, hview, hdigest, hshown, hmore⟩ := pinnedCount_eq_ok hcount
  refine leaves_writeRecord_bind hmay ?_ ?_
  · intro last hlast
    refine ⟨⟨_, List.mem_cons_self, [], rfl⟩, fun _ => ?_⟩
    exact ⟨inclusion, stateBytes, view, count, asked, before, first, pinned.countBefore, rfl,
      hfirst.of_prefix (hpast'.trans hbefore), hreported.of_prefix hbefore, not_not.mp hstatus,
      hread.of_prefix hlast, hview, hdigest, hshown, rfl, hcountBefore, hmore⟩
  refine Action.Keeps.bind_leaves (keeps_logLine here_steady _) hweaken fun _ => ?_
  exact hweaken

end Runs

/-! ### All commands -/

/-- Run a command, with its record as the result. -/
def ChainCommand.run (command : ChainCommand) (tools : CommandTools) (machine : Machine)
    (services : ChainServices) : Command CommandRecord :=
  match command with
  | .deploy options => do return .deployment (← runDeploy tools machine services options)
  | .publish options => do return .publication (← runPublish tools machine services options)
  | .pin options => do return .pin (← runPin tools machine services options)

/-- A command keeps its record before its submission: what a run that starts with some files and
ends with an outcome has done. -/
structure RecordsFirst (tools : CommandTools) (services : ChainServices) (command : ChainCommand)
    (files : CommandFiles) (outcome : Except CommandError CommandRecord × CommandState) : Prop where
  /-- `submitTx` is called at most once. -/
  once : outcome.2.history.countP isSubmission ≤ 1
  /-- When it is called, the file holds the finalized record of the bytes of its transaction. -/
  recorded : ∀ tx files', .called (.submitTx tx) files' ∈ outcome.2.history →
    ∃ record, files' command.out = some (.record record) ∧
      RecordsTransaction tools services record tx
  /-- Where there is a file, nothing happens. -/
  existing : files command.out ≠ none → outcome = (.error (.commandFailure
    (js "the record " ++ command.out ++ js " already exists; choose a new path")), ⟨files, []⟩)
  /-- A dry run does not submit. -/
  dryRun : command.isDryRun = true → outcome.2.history.countP isSubmission = 0
  /-- The stages are written in their order. -/
  stages : ∃ course ∈ command.courses,
    (outcome.2.history.filterMap (savedAt command.out)).map CommandRecord.stage <+: course
  /-- The last stage is written after every check. -/
  verified : ∀ before record after,
    outcome.2.history = before ++ .wrote command.out (.record record) :: after →
    record.stage = .verified → command.Verified tools services before record

/-- A path that exists is refused before anything happens. -/
lemma assertNewRecord_of_exists {path : JsString} {s : CommandState} (h : s.files path ≠ none) :
    (assertNewRecord path).Throws s
      (.commandFailure (js "the record " ++ path ++ js " already exists; choose a new path"))
        s := by
  unfold assertNewRecord
  rw [Action.throws_bind_iff]
  refine Or.inr ⟨true, s, ?_, ?_⟩
  · rw [Action.returns_look_iff]
    exact ⟨Option.isSome_iff_ne_none.mpr h, rfl⟩
  · rw [Action.throws_failIf_iff]
    exact ⟨rfl, rfl, rfl⟩

/-- A command whose record exists throws at once. -/
lemma run_of_exists {tools : CommandTools} {machine : Machine} {services : ChainServices}
    {command : ChainCommand} {s : CommandState} (h : s.files command.out ≠ none) :
    (command.run tools machine services).Throws s (.commandFailure
      (js "the record " ++ command.out ++ js " already exists; choose a new path")) s := by
  have hrefused := assertNewRecord_of_exists h
  cases command with
  | deploy options =>
    have hrun : (runDeploy tools machine services options).Throws s _ s := hrefused.bind _
    exact hrun.bind _
  | publish options =>
    have hrun : (runPublish tools machine services options).Throws s _ s := hrefused.bind _
    exact hrun.bind _
  | pin options =>
    have hrun : (runPin tools machine services options).Throws s _ s := hrefused.bind _
    exact hrun.bind _

/-- A result that is only wrapped leaves the same state. -/
lemma leaves_map {ε σ α β : Type} {P Q : σ → Prop} {x : Action ε σ α} (h : Action.Leaves P Q x)
    (g : α → β) :
    Action.Leaves P Q (do return g (← x)) := by
  apply Action.Leaves.bind
  · intro s err s' hs hthrows
    have hleft := h s hs
    rw [hthrows] at hleft
    exact hleft
  · intro a s' hreturned
    obtain ⟨s, hs, hreturns⟩ := hreturned
    have hleft := h s hs
    rw [hreturns] at hleft
    exact hleft

/-- **A command follows its discipline.** -/
lemma run_followed (tools : CommandTools) (machine : Machine) (services : ChainServices)
    (command : ChainCommand) (files : CommandFiles) :
    Followed tools services command ((command.run tools machine services) ⟨files, []⟩).2 := by
  have hstart : Here tools services command [] false [] ⟨files, []⟩ :=
    ⟨.start, List.prefix_rfl, fun _ h => absurd h (by simp)⟩
  cases command with
  | deploy options => exact leaves_map (runDeploy_followed options) _ _ hstart
  | publish options => exact leaves_map (runPublish_followed options) _ _ hstart
  | pin options => exact leaves_map (runPin_followed options) _ _ hstart

/-- **Record before submission, submit at most once.** -/
theorem records_first (tools : CommandTools) (machine : Machine) (services : ChainServices)
    (command : ChainCommand) (files : CommandFiles) :
    RecordsFirst tools services command files
      ((command.run tools machine services) ⟨files, []⟩) := by
  obtain ⟨saved, acted, hjournal, hmay⟩ := run_followed tools machine services command files
  have hcount : _ = if acted then 1 else 0 := hjournal.countP_acts
  have hsaved : List.filterMap (savedAt command.out) _ = saved := hjournal.filterMap_saves
  refine ⟨?_, ?_, ?_, ?_, ?_, ?_⟩
  · have hle : (if acted then 1 else 0) ≤ 1 := by cases acted <;> simp
    exact hcount.trans_le hle
  · intro tx files' hmem
    obtain ⟨before, after, hsplit⟩ := List.append_of_mem hmem
    obtain ⟨record, -, hcovers⟩ := hjournal.covered hsplit rfl
    exact ⟨record, hcovers tx files' rfl⟩
  · intro hexists
    exact run_of_exists hexists
  · intro hdry
    have hacted : acted = false := by
      by_contra h
      rw [hmay (by simpa using h)] at hdry
      cases hdry
    rw [hacted] at hcount
    exact hcount
  · rw [hsaved]
    refine hjournal.records (P := fun saved => ∃ course ∈ command.courses,
      saved.map CommandRecord.stage <+: course) ?_ fun _ _ _ hnext => hnext.1
    cases command <;> exact ⟨_, List.mem_cons_self, List.nil_prefix⟩
  · intro before record after hsplit hstage
    have hsaves : savedAt command.out (.wrote command.out (.record record)) = some record :=
      if_pos rfl
    exact (hjournal.saved_next hsplit hsaves).2 hstage

end MultiPartEvent
