import MultiPartEvent.ContractExamples.Notice
import MultiPartEvent.DeployTools.SharedRecord
import MultiPartEvent.Publisher.GuardReader
import MultiPartEvent.Publisher.OneIntent
import MultiPartEvent.Publisher.Submission

/-!
# From messages to verified packages

`runPublish` splits every message into parts, builds a package for each, finalizes, submits and
waits; then it reads the included transaction as any reader would and compares.  Its steps are
composed here.  A run that returns, and is no dry run, has every message in a verified package of
the included transaction (`publish_delivers`).  And it reports what is there: once the included
transaction contains the recorded packages, they verify exactly when the transaction is included as
reported (`publication_verifies_iff`), whatever others have merged into it.  Notices are messages;
the notice board decodes them from these packages (`publish_delivers_notices`).
-/

namespace MultiPartEvent

/-! ### Place by place -/

/-- Two lists that correspond to a third place by place correspond to each other. -/
lemma forall₂_comp {α β γ : Type} {R : α → β → Prop} {S : β → γ → Prop} {T : α → γ → Prop}
    (hcomp : ∀ a b c, R a b → S b c → T a c) {l : List α} {l' : List β} {l'' : List γ}
    (h : List.Forall₂ R l l') (h' : List.Forall₂ S l' l'') : List.Forall₂ T l l'' := by
  induction h generalizing l'' with
  | nil =>
    cases h'
    exact List.Forall₂.nil
  | cons hfirst _ ih =>
    cases h' with
    | cons hsecond hrest => exact List.Forall₂.cons (hcomp _ _ _ hfirst hsecond) (ih hrest)

/-- A choice of an element for each place. -/
lemma exists_forall₂ {α β : Type} {R : α → β → Prop} {l : List α} (h : ∀ a ∈ l, ∃ b, R a b) :
    ∃ l', List.Forall₂ R l l' := by
  induction l with
  | nil => exact ⟨[], List.Forall₂.nil⟩
  | cons a l ih =>
    obtain ⟨b, hb⟩ := h a List.mem_cons_self
    obtain ⟨l', hl'⟩ := ih fun a' ha' => h a' (List.mem_cons_of_mem _ ha')
    exact ⟨b :: l', List.Forall₂.cons hb hl'⟩

/-! ### Building -/

section Building

variable {PS : Type} {env : AssemblyEnv} {source : PublicationStateSource}
  {config : PublisherConfig} {requests : List (PackageRequest PS)} {built : BuiltTransaction}

/-- The expectations of a build are those of its requests, in order, each at a segment. -/
lemma expects_of_buildPackagesTransaction
    (h : buildPackagesTransaction env source config requests = .ok built) :
    List.Forall₂ (fun request pkg => ∃ segment, Expects config.network request segment pkg)
      requests built.packages := by
  obtain ⟨asm, hasm, h⟩ := bind_eq_ok_iff.mp h
  obtain ⟨st, hst, h⟩ := bind_eq_ok_iff.mp h
  obtain ⟨⟨⟩, -, h⟩ := bind_eq_ok_iff.mp h
  obtain ⟨frozen, -, h⟩ := bind_eq_ok_iff.mp h
  rw [pure_eq_ok_iff] at h
  subst h
  have hstart : Started config requests asm := started_of_startAssembly hasm
  have hall : requests.zipIdx.take requests.length = requests.zipIdx :=
    List.take_of_length_le (by simp)
  have hloop : List.Forall₂
      (fun request pkg => ∃ segment, Expects config.network request segment pkg)
      (requests.take requests.length) st.packages := by
    refine foldlM_invariant (I := fun done (st : AssemblyState) => List.Forall₂
      (fun request pkg => ∃ segment, Expects config.network request segment pkg)
      (requests.take done) st.packages) ?_ ?_ (i := requests.length) (by simp) (hall.symm ▸ hst)
    · rw [List.take_zero]
      exact List.Forall₂.nil
    · intro index item st st' hitem hbefore hround
      rw [List.getElem?_zipIdx, Option.map_eq_some_iff] at hitem
      obtain ⟨request, hrequest, rfl⟩ := hitem
      rw [Nat.zero_add] at hround
      obtain ⟨name, hname, hpreflight⟩ := hstart.names index request hrequest
      obtain ⟨prepared, hprepare, hround⟩ := bind_eq_ok_iff.mp hround
      obtain ⟨added, -, hround⟩ := bind_eq_ok_iff.mp hround
      rw [pure_eq_ok_iff] at hround
      subst hround
      have hprepared := prepared_of_prepareRequest hname hpreflight hprepare
      rw [List.take_add_one, hrequest]
      refine List.rel_append hbefore (List.Forall₂.cons ⟨added.segment, ?_⟩ List.Forall₂.nil)
      exact ⟨hstart.network, rfl, rfl, hprepared.named.symm ▸ hpreflight.name, rfl, rfl⟩
  rwa [List.take_length] at hloop

end Building

/-! ### Reading the included transaction -/

section Reading

variable {tx : Transaction} {options : VerifyTransactionOptions}
  {verification : TransactionVerification} {entry : PackageRecord} {published : PublishedPackage}

/-- The hex of several byte strings, one after the other. -/
lemma flatten_map_bytesToHex (parts : List Bytes) :
    (parts.map bytesToHex).flatten = bytesToHex parts.flatten := by
  induction parts with
  | nil => rfl
  | cons part parts ih =>
    rw [List.map_cons, List.flatten_cons, ih, List.flatten_cons, bytesToHex, bytesToHex, bytesToHex,
      List.flatMap_append]

/-- A package with a payload is accepted, and has no issues. -/
lemma accepted_of_payload {group : Group} {payload : Bytes}
    (h : (evaluate group).payload = some payload) :
    (evaluate group).status = .accepted ∧ (evaluate group).issues = [] := by
  unfold evaluate at h ⊢
  simp only at h ⊢
  split_ifs at h ⊢
  exact ⟨rfl, rfl⟩

/-- The packages of a verification are those the reader evaluates. -/
lemma evaluated_of_mem {checked : CheckedPackage}
    (h : verifyTransactionPackages tx options = .ok verification)
    (hchecked : checked ∈ verification.packages) : ∃ group, checked.package = evaluate group := by
  obtain ⟨read, hread, h⟩ := bind_eq_ok_iff.mp h
  obtain ⟨packages, hpackages, h⟩ := bind_eq_ok_iff.mp h
  rw [pure_eq_ok_iff] at h
  subst h
  obtain ⟨_, _, names, -, -, -, -, rfl⟩ := readPackages_eq_ok_iff.mp hread
  obtain ⟨i, hi⟩ := List.getElem?_of_mem hchecked
  have hlength := length_of_mapM_eq_ok hpackages
  obtain ⟨hlt, -⟩ := List.getElem?_eq_some_iff.mp hi
  obtain ⟨b, hb, hplace⟩ := getElem?_of_mapM_eq_ok hpackages
    (List.getElem?_eq_getElem (hlength ▸ hlt))
  obtain ⟨placement, -, hb⟩ := bind_eq_ok_iff.mp hb
  rw [pure_eq_ok_iff] at hb
  have hsame : b = checked := Option.some.inj (hplace.symm.trans hi)
  subst hsame
  obtain ⟨scope, -, hscope⟩ := List.mem_map.mp
    (List.getElem_mem (l := (readOutput names none _).packages) (hlength ▸ hlt))
  exact ⟨_, by rw [← hb]; exact hscope.symm⟩

/-- A recorded package that is reported verified is one of the verified packages, with the recorded
payload. -/
lemma verified_of_publishedPackage (h : verifyTransactionPackages tx options = .ok verification)
    (hpublished : publishedPackage verification entry = .ok published)
    (hverified : published.verified = true) :
    ∃ pkg ∈ verification.verified, ∃ payload, JsNumber.int pkg.segment = entry.segment ∧
      hexToBytes entry.partsHex.flatten = .ok payload ∧ pkg.payload = some payload := by
  obtain ⟨payload, hpayload, hpublished⟩ := bind_eq_ok_iff.mp hpublished
  rw [pure_eq_ok_iff] at hpublished
  subst hpublished
  simp only [decide_eq_true_eq] at hverified
  obtain ⟨hissues, hsame⟩ := hverified
  cases hfound : verification.packages.find? fun checked =>
      JsNumber.int checked.package.segment = entry.segment with
  | none =>
    rw [hfound] at hsame
    cases hsame
  | some checked =>
    rw [hfound] at hissues hsame
    rw [Option.bind_some, Option.any_eq_true] at hsame
    obtain ⟨found, hfoundPayload, hequal⟩ := hsame
    rw [bytesEqual_iff] at hequal
    subst hequal
    have hmem := List.mem_of_find?_eq_some hfound
    have hsegment := List.find?_some hfound
    rw [decide_eq_true_eq] at hsegment
    obtain ⟨group, hgroup⟩ := evaluated_of_mem h hmem
    have haccepted := accepted_of_payload (hgroup ▸ hfoundPayload)
    simp only [List.length_append, Nat.add_eq_zero_iff, Option.map_some, Option.getD_some,
      List.length_eq_zero_iff] at hissues
    refine ⟨checked.package, ?_, found, hsegment, hpayload, hfoundPayload⟩
    obtain ⟨read, -, h⟩ := bind_eq_ok_iff.mp h
    obtain ⟨packages, -, h⟩ := bind_eq_ok_iff.mp h
    rw [pure_eq_ok_iff] at h
    subst h
    simp only at hissues hmem ⊢
    rw [if_pos (by rw [hissues.1.1]; rfl)]
    refine List.mem_map_of_mem (List.mem_filter.mpr ⟨hmem, ?_⟩)
    rw [hgroup, haccepted.1, hissues.1.2]
    rfl

/-- What the reader finds on valid input of Level 2: the packages of the transaction. -/
lemma readPackages_level2 {name : Bytes} (hinput : Level2Input tx options name) :
    (∀ e ∈ (partEventsFromTransaction tx (readScope tx options)).events, e.WellFormed) ∧
      readPackages (partEventsFromTransaction tx (readScope tx options)).events
        ⟨[⟨options.contract, options.name⟩], none, options.limits⟩ =
          .ok (readOutput (singleName options.contract name) none
            (partEventsFromTransaction tx (readScope tx options)).events) := by
  obtain ⟨maxEvents, maxPackages, hlimits, hcount, hpackages⟩ := hinput.limits
  have hsegments : {s | named name (valuesAt tx options.contract s) ≠ []}.ncard ≤ maxPackages := by
    simpa only [named_ne_nil_iff] using hpackages
  have hnone : ∀ n, (none : Option JsString) = some n → (readScope tx options).network = n := by
    simp
  exact readPackages_extracted hnone hinput.address hinput.validName hinput.network
    (readScope_transactionHash_ne_nil tx options) hinput.keys hlimits hcount hsegments

/-- What a verification says of a package that the transaction holds: it finds the package at its
segment, placed as it should be, with the parts as its payload. -/
lemma found_of_holds {name : Bytes} {pkg : ExpectedPackage} {segment : ℕ} {intent : Intent}
    (hinput : Level2Input tx options name) (hholds : HoldsPackage tx pkg none segment intent)
    (hcontract : options.contract = pkg.contract) (hentry : options.entryPoint = pkg.entryPoint)
    (hname : pkg.name = name) (h : verifyTransactionPackages tx options = .ok verification) :
    verification.issues = transactionIssues tx options ∧ ∃ found,
      verification.packages.find? (fun checked =>
        JsNumber.int checked.package.segment = .int segment) = some found ∧
      found.placement = [] ∧ found.package.issues = [] ∧
      found.package.payload = some pkg.parts.flatten := by
  subst hname
  have hnone : ∀ n, (none : Option JsString) = some n → (readScope tx options).network = n := by
    simp
  have hverifiable : intent.Verifiable options.toPlacementTarget pkg.name :=
    hholds.holds.verifiable hcontract hentry
  obtain ⟨hwell, hread⟩ := readPackages_level2 hinput
  have hvalues := valuesAt_eq_emitted hholds.found hverifiable.readable
  have hparts : namedPayloads pkg.name (valuesAt tx options.contract segment) = pkg.parts := by
    rw [hvalues, ← hholds.holds.namedPayloads_emitted, hcontract]
  obtain ⟨value, hvalue, hnamed⟩ := hverifiable.logged
  rw [← hvalues] at hvalue
  have hlogged : named pkg.name (valuesAt tx options.contract segment) ≠ [] :=
    List.ne_nil_of_mem (List.mem_filter.mpr ⟨hvalue, by simpa using hnamed⟩)
  obtain ⟨-, hpkgParts, hpkgPayload⟩ := packageAt_eq hnone hwell pkg.name segment
  have hplacement := (placementIssues_extracted_iff hlogged).mpr ⟨intent, hholds.found, hverifiable⟩
  have hmem := (mem_packages_extracted hnone hwell).mpr ⟨segment, hlogged, rfl⟩
  have hfilter := filter_key_eq_singleton (nodup_segments_extracted hnone hwell) hmem
  obtain ⟨read, hread', h⟩ := bind_eq_ok_iff.mp h
  cases hread.symm.trans hread'
  obtain ⟨packages, hpackages, h⟩ := bind_eq_ok_iff.mp h
  rw [pure_eq_ok_iff] at h
  subst h
  let checked := fun p : Package => CheckedPackage.mk p
    (placementIssues tx options.toPlacementTarget pkg.name p.segment p.parts)
  rw [mapM_ok  fun p _ => by rw [checkPlacement_eq, hinput.validName]; rfl]
    at hpackages
  cases hpackages
  refine ⟨rfl, checked (packageAt tx (readScope tx options) pkg.name none segment), ?_, ?_,
    (accepted_of_payload hpkgPayload).2, ?_⟩
  · rw [List.find?_map, Option.map_eq_some_iff]
    refine ⟨_, ?_, rfl⟩
    rw [← List.head?_filter]
    have hkey : ((fun c : CheckedPackage => decide (JsNumber.int c.package.segment =
        .int segment)) ∘ checked) = fun p : Package => decide (p.segment =
          (packageAt tx (readScope tx options) pkg.name none segment).segment) := by
      funext p
      refine decide_eq_decide.mpr ?_
      simp only [checked, packageAt_segment, JsNumber.int.injEq, Nat.cast_inj]
    rw [hkey]
    exact congrArg List.head? hfilter
  · simp only [checked, hpkgParts, packageAt_segment]
    exact hplacement
  · exact hpkgPayload.trans (congrArg (fun parts => some parts.flatten) hparts)

/-- What is reported of a recorded package that was found as it should be. -/
lemma publishedPackage_of_found {found : CheckedPackage} {payload : Bytes}
    (hfound : verification.packages.find? (fun checked =>
      JsNumber.int checked.package.segment = entry.segment) = some found)
    (hplacement : found.placement = []) (hissues : found.package.issues = [])
    (hrecorded : hexToBytes entry.partsHex.flatten = .ok payload)
    (hpayload : found.package.payload = some payload) :
    ∃ published, publishedPackage verification entry = .ok published ∧
      (published.verified = true ↔ verification.issues = []) := by
  unfold publishedPackage
  rw [hrecorded, ok_bind]
  refine ⟨_, rfl, ?_⟩
  simp [hfound, hplacement, hissues, hpayload]

end Reading

/-! ### A whole run -/

/-- A package carries a message: the message, and zeros up to a multiple of 256 bytes. -/
def Package.Carries (pkg : Package) (message : Bytes) : Prop :=
  ∃ padding < 256, (message.length + padding) % 256 = 0 ∧
    pkg.payload = some (message ++ List.replicate padding 0)

/-- Every message is carried by a verified package of the transaction, each by its own. -/
def Delivers (tx : Transaction) (options : VerifyTransactionOptions) (messages : List Bytes) :
    Prop :=
  ∃ verification, verifyTransactionPackages tx options = .ok verification ∧
    ∃ packages : List Package, (packages.map Package.segment).Nodup ∧
      (∀ pkg ∈ packages, pkg ∈ verification.verified) ∧
      List.Forall₂ (fun message pkg => Package.Carries pkg message) messages packages

section Run

variable {tools : CommandTools} {machine : Machine} {services : ChainServices}
  {options : PublishOptions} {s s' : CommandState} {built : BuiltTransaction}
  {finalized : FinalizedRecord} {record : PublicationRecord}

/-- A run that calls services returns what they let it return. -/
lemma returns_callServices {κ α : Type} {call : κ → ServiceCall} {run : History → Run κ α} {a : α}
    (h : (callServices call run).Returns s a s') : (run s.history).result = .ok a := by
  unfold Action.Returns callServices at h
  exact mapError_eq_ok_iff.mp (congrArg Prod.fst h)

/-- What is computed. -/
lemma returns_compute {α : Type} {result : Except JsError α} {a : α}
    (h : (compute result).Returns s a s') : result = .ok a :=
  mapError_eq_ok_iff.mp (Action.returns_lift_iff.mp h).1

/-- A package is the one of a message. -/
structure Publishes (services : ChainServices) (options : PublishOptions) (message : Bytes)
    (pkg : ExpectedPackage) : Prop where
  contract : pkg.contract = options.address
  entryPoint : pkg.entryPoint = options.profile.entryPoint
  name : eventName (.text options.profile.eventName) = .ok pkg.name
  parts : splitPayload message = .ok pkg.parts

/-- The packages of a built publication are those of the messages, in order. -/
lemma publishes_of_buildPublication
    (h : (buildPublication tools machine services options).Returns s built s') :
    List.Forall₂ (Publishes services options) options.messages built.packages := by
  obtain ⟨_, _, -, h⟩ := Action.returns_bind_iff.mp h
  obtain ⟨secret, _, -, h⟩ := Action.returns_bind_iff.mp h
  obtain ⟨emitPart, _, -, h⟩ := Action.returns_bind_iff.mp h
  obtain ⟨requests, _, hrequests, h⟩ := Action.returns_bind_iff.mp h
  have hbuilt := expects_of_buildPackagesTransaction (returns_callServices h)
  refine forall₂_comp ?_ (mapM_eq_ok_iff.mp (returns_compute hrequests)) hbuilt
  intro message request pkg hrequest hexpects
  obtain ⟨parts, hparts, hrequest⟩ := bind_eq_ok_iff.mp hrequest
  rw [pure_eq_ok_iff] at hrequest
  subst hrequest
  obtain ⟨segment, hexpects⟩ := hexpects
  exact ⟨hexpects.contract, hexpects.entryPoint, hexpects.name, hexpects.parts ▸ hparts⟩

/-- A record of a package has a message, and zeros up to a multiple of 256 bytes. -/
def PackageRecord.Carries (entry : PackageRecord) (message : Bytes) : Prop :=
  ∃ padding < 256, (message.length + padding) % 256 = 0 ∧
    hexToBytes entry.partsHex.flatten = .ok (message ++ List.replicate padding 0)

/-- The parts of a recorded package. -/
lemma hexToBytes_partsHex {tx : Transaction} {pkg : ExpectedPackage} {entry : PackageRecord}
    (h : packageRecord tx pkg = .ok entry) :
    hexToBytes entry.partsHex.flatten = .ok pkg.parts.flatten := by
  obtain ⟨hash, -, hentry⟩ := bind_eq_ok_iff.mp h
  rw [pure_eq_ok_iff] at hentry
  subst hentry
  rw [flatten_map_bytesToHex, hexToBytes_bytesToHex]

/-- Each message is recorded by a finalization of its publication, at a segment of its own. -/
lemma records_of_finalized {messages : List Bytes} {env : FinalizeEnv} {providers : Providers}
    {finalizeOptions : FinalizeOptions} {calls : List ProviderCall}
    (hparts : List.Forall₂ (Publishes services options) messages built.packages)
    (h : (finalizeTransactionPackages env providers built finalizeOptions).Returns calls
      finalized) :
    (finalized.packages.map PackageRecord.segment).Nodup ∧
      List.Forall₂ (fun message entry => PackageRecord.Carries entry message) messages
        finalized.packages := by
  obtain ⟨proven, balanced, roundTrip, h⟩ := finalizeTransactionPackages_returns h
  have hrecord := recordOf_finalizedRecord h.record
  constructor
  · have hsegments : finalized.packages.map PackageRecord.segment =
        built.packages.map ExpectedPackage.segment := by
      rw [← List.forall₂_eq_eq_eq, List.forall₂_map_left_iff, List.forall₂_map_right_iff]
      exact hrecord.packages.flip.imp fun entry pkg hentry => (packageRecord_eq_ok hentry).1
    rw [hsegments]
    exact h.holds.2.1
  · refine forall₂_comp ?_ hparts hrecord.packages
    intro message pkg entry hpublishes hentry
    obtain ⟨-, -, padding, hpadding, hmultiple, hflatten⟩ := splitPayload_spec hpublishes.parts
    exact ⟨padding, hpadding, hmultiple, hflatten ▸ hexToBytes_partsHex hentry⟩

/-- A transaction in which every recorded package is reported verified delivers the messages. -/
lemma delivers_of_published {messages : List Bytes} {tx : Transaction}
    {target : VerifyTransactionOptions} {verification : TransactionVerification}
    {packages : List PublishedPackage}
    (hnodup : (finalized.packages.map PackageRecord.segment).Nodup)
    (hrecorded : List.Forall₂ (fun message entry => PackageRecord.Carries entry message) messages
        finalized.packages)
    (hverification : verifyTransactionPackages tx target = .ok verification)
    (hpackages : finalized.packages.mapM (publishedPackage verification) = .ok packages)
    (hverified : packages.all PublishedPackage.verified = true) :
    Delivers tx target messages := by
  have hfound : ∀ entry ∈ finalized.packages, ∃ pkg, pkg ∈ verification.verified ∧ ∃ payload,
      JsNumber.int pkg.segment = entry.segment ∧
      hexToBytes entry.partsHex.flatten = .ok payload ∧ pkg.payload = some payload := by
    intro entry hentry
    obtain ⟨i, hi⟩ := List.getElem?_of_mem hentry
    obtain ⟨published, hpublished, hplace⟩ := getElem?_of_mapM_eq_ok hpackages hi
    exact verified_of_publishedPackage hverification hpublished
      (List.all_eq_true.mp hverified _ (List.mem_of_getElem? hplace))
  obtain ⟨found, hfound⟩ := exists_forall₂ hfound
  have hsegments : finalized.packages.map PackageRecord.segment =
      (found.map Package.segment).map fun segment : ℕ => JsNumber.int segment := by
    rw [List.map_map, ← List.forall₂_eq_eq_eq, List.forall₂_map_left_iff,
      List.forall₂_map_right_iff]
    refine hfound.imp fun entry pkg h => ?_
    obtain ⟨-, _, hsegment, -⟩ := h
    exact hsegment.symm
  refine ⟨verification, hverification, found, ?_, ?_, ?_⟩
  · rw [hsegments] at hnodup
    exact hnodup.of_map _
  · intro pkg hpkg
    obtain ⟨entry, -, hmem, -⟩ := exists_left_of_forall₂ hfound hpkg
    exact hmem
  · refine forall₂_comp ?_ hrecorded hfound
    intro message entry pkg hmessage h
    obtain ⟨padding, hpadding, hmultiple, hbytes⟩ := hmessage
    obtain ⟨-, payload, -, hpayload, hcarried⟩ := h
    rw [hbytes] at hpayload
    cases hpayload
    exact ⟨padding, hpadding, hmultiple, hcarried⟩

/-- What a run has found that ends verified: the included transaction, in which every recorded
package is reported verified. -/
structure PublishedAs (tools : CommandTools) (target : VerifyTransactionOptions)
    (messages : List Bytes) (included : Transaction) (inclusion : IncludedTransaction)
    (finalized : FinalizedRecord) : Prop where
  read : ∃ bytes, hexToBytes inclusion.rawHex = .ok bytes ∧
    deserializeTransaction tools.assembly.ledger bytes = .ok included
  distinct : (finalized.packages.map PackageRecord.segment).Nodup
  recorded : List.Forall₂ (fun message entry => PackageRecord.Carries entry message) messages
    finalized.packages
  reported : ∃ verification packages, verifyTransactionPackages included target =
      .ok verification ∧ finalized.packages.mapM (publishedPackage verification) = .ok packages ∧
    packages.all PublishedPackage.verified = true

/-- A run that returns is a dry run, or has found that. -/
lemma publishedAs_of_returns
    (h : (runPublish tools machine services options).Returns s record s') :
    (options.dryRun = some true ∧ record.stage = .finalized) ∨
      record.stage = .verified ∧ ∃ inclusion included finalized,
        record.inclusion = some inclusion ∧
        PublishedAs tools (publishTarget services options inclusion) options.messages included
          inclusion finalized := by
  obtain ⟨_, _, -, h⟩ := Action.returns_bind_iff.mp h
  obtain ⟨built, _, hbuilt, h⟩ := Action.returns_bind_iff.mp h
  obtain ⟨_, _, -, h⟩ := Action.returns_bind_iff.mp h
  obtain ⟨finalized, _, hfinalized, h⟩ := Action.returns_bind_iff.mp h
  obtain ⟨first, _, hfirst, h⟩ := Action.returns_bind_iff.mp h
  obtain ⟨_, _, -, h⟩ := Action.returns_bind_iff.mp h
  obtain ⟨_, _, -, h⟩ := Action.returns_bind_iff.mp h
  obtain ⟨_, -, hfirst⟩ := bind_eq_ok_iff.mp (returns_compute hfirst)
  obtain ⟨finalTx, -, hfirst⟩ := bind_eq_ok_iff.mp hfirst
  obtain ⟨cost, -, hfirst⟩ := bind_eq_ok_iff.mp hfirst
  rw [pure_eq_ok_iff] at hfirst
  split_ifs at h with hdry
  · left
    obtain ⟨rfl, -⟩ := Action.returns_pure_iff.mp h
    exact ⟨hdry, by rw [← hfirst]⟩
  · right
    obtain ⟨submittedId, _, -, h⟩ := Action.returns_bind_iff.mp h
    obtain ⟨_, _, -, h⟩ := Action.returns_bind_iff.mp h
    obtain ⟨_, _, -, h⟩ := Action.returns_bind_iff.mp h
    obtain ⟨inclusion, _, -, h⟩ := Action.returns_bind_iff.mp h
    obtain ⟨included, _, hincluded, h⟩ := Action.returns_bind_iff.mp h
    obtain ⟨bytes, hbytes, hincluded⟩ := bind_eq_ok_iff.mp (returns_compute hincluded)
    obtain ⟨_, _, -, h⟩ := Action.returns_bind_iff.mp h
    obtain ⟨_, _, -, h⟩ := Action.returns_bind_iff.mp h
    obtain ⟨verification, _, hverification, h⟩ := Action.returns_bind_iff.mp h
    obtain ⟨packages, _, hpackages, h⟩ := Action.returns_bind_iff.mp h
    obtain ⟨_, _, -, h⟩ := Action.returns_bind_iff.mp h
    obtain ⟨_, _, -, h⟩ := Action.returns_bind_iff.mp h
    obtain ⟨_, _, -, h⟩ := Action.returns_bind_iff.mp h
    obtain ⟨_, _, hchecked, h⟩ := Action.returns_bind_iff.mp h
    obtain ⟨rfl, -⟩ := Action.returns_pure_iff.mp h
    have hverified : packages.all PublishedPackage.verified = true := by
      rw [← Bool.not_eq_false]
      exact (Action.returns_failIf_iff.mp hchecked).1
    obtain ⟨hnodup, hrecorded⟩ := records_of_finalized (publishes_of_buildPublication hbuilt)
      ⟨rfl, returns_callServices hfinalized⟩
    refine ⟨?_, inclusion, included, finalized, rfl, ⟨⟨bytes, hbytes, hincluded⟩, hnodup, hrecorded,
      ⟨verification, packages, returns_compute hverification, returns_compute hpackages,
        hverified⟩⟩⟩
    simp only [publishedStage, hverified, if_pos]

/-- What was published is delivered. -/
lemma PublishedAs.delivers {target : VerifyTransactionOptions} {messages : List Bytes}
    {included : Transaction} {inclusion : IncludedTransaction}
    (h : PublishedAs tools target messages included inclusion finalized) :
    Delivers included target messages := by
  obtain ⟨verification, packages, hverification, hpackages, hverified⟩ := h.reported
  exact delivers_of_published h.distinct h.recorded hverification hpackages hverified

/-- **A publication delivers its messages.**  A run that returns is a dry run that stops once it has
recorded the finalized transaction, or it ends verified: the transaction it saw included has every
message in a verified package of its own, followed by fewer than 256 zeros. -/
theorem publish_delivers (h : (runPublish tools machine services options).Returns s record s') :
    (options.dryRun = some true ∧ record.stage = .finalized) ∨
      record.stage = .verified ∧ ∃ inclusion bytes included,
        record.inclusion = some inclusion ∧ hexToBytes inclusion.rawHex = .ok bytes ∧
        deserializeTransaction tools.assembly.ledger bytes = .ok included ∧
        Delivers included (publishTarget services options inclusion) options.messages := by
  rcases publishedAs_of_returns h with hdry | ⟨hstage, inclusion, included, finalized, hinclusion,
    hpublished⟩
  · exact Or.inl hdry
  · obtain ⟨bytes, hbytes, hincluded⟩ := hpublished.read
    exact Or.inr ⟨hstage, inclusion, bytes, included, hinclusion, hbytes, hincluded,
      hpublished.delivers⟩

/-- A transaction that contains the packages of a record passes the guard for them. -/
lemma guard_of_contains {tx : Transaction} (h : (locateRecord tx finalized).contains = true) :
    ∃ expected, expectedFromRecord finalized = .ok expected ∧
      assertTransactionPackages tx expected (js "locate") none = .ok () := by
  unfold locateRecord at h
  split_ifs at h
  split at h
  · cases h
  · split at h
    · cases h
    · rename_i hguard
      exact bind_eq_ok_iff.mp hguard

/-- **A publication is reported as it is.**  Once the transaction found on the chain contains the
recorded packages, the checks of `runPublish` find each of them, whatever others have merged into
it; they report all of them verified exactly when the transaction is included as it was reported,
with a status of inclusion and the hash of its bytes. -/
theorem publication_verifies_iff {s₁ s₂ s₃ : CommandState} {inclusion : IncludedTransaction}
    {included : Transaction} {name : Bytes}
    (hbuilt : (buildPublication tools machine services options).Returns s built s₁)
    (hfinalized : (finalizePublication tools services options built).Returns s₂ finalized s₃)
    (hcontains : (locateRecord included finalized).contains = true)
    (hinput : Level2Input included (publishTarget services options inclusion) name) :
    ∃ verification packages,
      verifyTransactionPackages included (publishTarget services options inclusion) =
        .ok verification ∧
      finalized.packages.mapM (publishedPackage verification) = .ok packages ∧
      (packages.all PublishedPackage.verified = true ↔
        Included included (publishTarget services options inclusion)) := by
  obtain ⟨-, verification, hverification, -⟩ := verifyTransactionPackages_result hinput
  obtain ⟨expected, hexpected, hguard⟩ := guard_of_contains hcontains
  obtain ⟨hne, -, hall⟩ := assertTransactionPackages_none_eq_ok_iff.mp hguard
  have hpublishes := publishes_of_buildPublication hbuilt
  obtain ⟨proven, balanced, roundTrip, hfinal⟩ :=
    finalizeTransactionPackages_returns ⟨rfl, returns_callServices hfinalized⟩
  have hrecord := recordOf_finalizedRecord hfinal.record
  rw [hrecord.expectedFromRecord_eq] at hexpected
  cases hexpected
  have hchecked : ∀ entry ∈ finalized.packages, ∃ published,
      publishedPackage verification entry = .ok published ∧
      (published.verified = true ↔
        Included included (publishTarget services options inclusion)) := by
    intro entry hentry
    obtain ⟨pkg, hpkg, hpackage⟩ := exists_left_of_forall₂ hrecord.packages hentry
    obtain ⟨message, -, hpublishes⟩ := exists_left_of_forall₂ hpublishes hpkg
    obtain ⟨segment, intent, hholds⟩ := hall _ (List.mem_map_of_mem hpkg)
    have hname : pkg.name = name := Except.ok.inj (hpublishes.name.symm.trans hinput.validName)
    obtain ⟨hissues, found, hfound, hplacement, hnone, hpayload⟩ := found_of_holds hinput hholds
      hpublishes.contract.symm hpublishes.entryPoint.symm hname hverification
    have hplace : entry.segment = .int segment :=
      (packageRecord_eq_ok hpackage).1.trans hholds.placed.1
    rw [← hplace] at hfound
    rw [← transactionIssues_eq_nil_iff, ← hissues]
    exact publishedPackage_of_found hfound hplacement hnone (hexToBytes_partsHex hpackage) hpayload
  obtain ⟨packages, hpackages⟩ := exists_mapM_ok fun entry hentry =>
    (hchecked entry hentry).imp fun _ h => h.1
  refine ⟨verification, packages, hverification, hpackages, ?_⟩
  have heach : ∀ published ∈ packages, (published.verified = true ↔
      Included included (publishTarget services options inclusion)) := by
    intro published hmem
    obtain ⟨entry, hentry, hpublished⟩ := exists_left_of_forall₂ (mapM_eq_ok_iff.mp hpackages) hmem
    obtain ⟨published', hpublished', hiff⟩ := hchecked entry hentry
    cases hpublished.symm.trans hpublished'
    exact hiff
  have hsome : packages ≠ [] := by
    rw [← List.length_pos_iff, length_of_mapM_eq_ok hpackages, ← hrecord.packages.length_eq,
      List.length_pos_iff]
    exact hfinal.holds.1
  rw [List.all_eq_true]
  constructor
  · intro hall
    obtain ⟨published, hmem⟩ := List.exists_mem_of_ne_nil _ hsome
    exact (heach published hmem).mp (hall published hmem)
  · exact fun hincluded published hmem => (heach published hmem).mpr hincluded

end Run

/-! ### A message of three bytes -/

/-- The name of the sample event. -/
def sampleEventName : Bytes := zeroExtend 32 (textEncode (js "event"))

/-- The address of the sample contract. -/
def sampleContract : JsString := bytesToHex (List.replicate 32 9)

/-- The transaction of one message as the chain includes it. -/
def publishedTransaction : Transaction where
  intents := InsertionMap.empty.set 7 (emissionIntent sampleContract (js "emitPart")
    [sampleEventName ++ zeroExtend 256 [1, 2, 3]])
  fallibleOffer := .empty
  ownHash := some (js "aa")
  identifiers := [js "id"]
  serialize := []

/-- Tools that draw segment 7, and whose ledger reads that transaction from any bytes. -/
def publishTools : CommandTools :=
  { sampleTools 1 with
    assembly := { drawingEnv (fun _ => 7) with
      ledger := { (drawingEnv fun _ => 7).ledger with
        deserialize := fun _ _ => .ok publishedTransaction } } }

/-- Services that include what is submitted. -/
def publishServices : ChainServices :=
  { sampleServices with
    submitTx := fun _ _ => .ok (js "id")
    waitForInclusion := fun _ _ _ =>
      .ok (some ⟨js "aa", [], success, [js "id"], .int 2, js "block"⟩) }

/-- The circuit of the sample contract. -/
def sampleCircuit : GeneratedCircuit := fun context part =>
  (emittingBinding sampleContract (js "emitPart") sampleEventName).emitPart
    { context with privateState := () } part

/-- A publication of one message of three bytes. -/
def samplePublication : PublishOptions where
  profile := ⟨.emitter, js "event", js "emitPart"⟩
  generated := {
    contract := .ok ⟨fun _ => some sampleCircuit, fun _ authority => .ok authority⟩
    ledger := fun _ => .ok fun _ => .other
    emitterAuthorityOf := none }
  address := sampleContract
  messages := [[1, 2, 3]]
  secretFile := js "emitter.secret"
  maxParts := .int 8
  ttlSeconds := .int 1200
  maxBlockFraction := none
  out := js "publication.json"
  dryRun := none

/-- A machine without files at the start of a command. -/
def noFiles : CommandState := ⟨fun _ => none, []⟩

/-- The publication of three bytes returns, and delivers its message. -/
theorem publish_delivers_three_bytes :
    ∃ record s', (runPublish publishTools (sampleMachine 7) publishServices
        samplePublication).Returns noFiles record s' ∧ record.stage = .verified ∧
      ∃ inclusion included,
        Delivers included (publishTarget publishServices samplePublication inclusion)
          [[1, 2, 3]] := by
  have hrun : ((runPublish publishTools (sampleMachine 7) publishServices samplePublication
      noFiles).1.toOption.map PublicationRecord.stage) = some .verified := by decide +kernel
  obtain ⟨record, hrecord, hstage⟩ := Option.map_eq_some_iff.mp hrun
  have hreturns := Action.returns_of_result (toOption_eq_some_iff.mp hrecord)
  refine ⟨record, _, hreturns, hstage, ?_⟩
  rcases publish_delivers hreturns with ⟨hdry, -⟩ | ⟨-, inclusion, _, included, -, -, -, hdelivers⟩
  · cases hdry
  · exact ⟨inclusion, included, hdelivers⟩

/-- The transaction of the message contains the recorded package; it is reported verified with the
status of an inclusion. -/
theorem publication_verifies_iff_three_bytes :
    ∃ verification,
      verifyTransactionPackages publishedTransaction (publishTarget publishServices
        samplePublication ⟨js "aa", [], success, [js "id"], .int 2, js "block"⟩) =
          .ok verification ∧
      ∃ (finalized : FinalizedRecord) (package : PublishedPackage),
        finalized.packages.mapM (publishedPackage verification) = .ok [package] ∧
        package.verified = true := by
  have hrun : ((buildPublication publishTools (sampleMachine 7) publishServices samplePublication
      noFiles).1.toOption.bind fun built =>
        (finalizePublication publishTools publishServices samplePublication built
          noFiles).1.toOption.map fun finalized =>
            ((locateRecord publishedTransaction finalized).contains,
              finalized.packages.length)) = some (true, 1) := by
    decide +kernel
  obtain ⟨built, hbuilt, hrun⟩ := Option.bind_eq_some_iff.mp hrun
  obtain ⟨finalized, hfinalized, hfound⟩ := Option.map_eq_some_iff.mp hrun
  obtain ⟨hcontains, hone⟩ := Prod.mk.inj hfound
  have hbuiltReturns := Action.returns_of_result (toOption_eq_some_iff.mp hbuilt)
  have hfinalizedReturns := Action.returns_of_result (toOption_eq_some_iff.mp hfinalized)
  let target := publishTarget publishServices samplePublication
    ⟨js "aa", [], success, [js "id"], .int 2, js "block"⟩
  have hpackages := (ncard_segments_le publishedTransaction target.contract sampleEventName).trans
    (by decide : 1 ≤ 1024)
  have hinput : Level2Input publishedTransaction target sampleEventName :=
    { keys := by decide
      address := by decide +kernel
      validName := by decide +kernel
      network := by decide +kernel
      limits := ⟨4096, 1024, rfl, by decide +kernel, hpackages⟩ }
  obtain ⟨verification, packages, hverification, hpublished, hiff⟩ :=
    publication_verifies_iff hbuiltReturns hfinalizedReturns hcontains hinput
  have hincluded : Included publishedTransaction target := by
    refine ⟨Or.inl rfl, ⟨js "aa", rfl, by decide⟩, ?_⟩
    intro own reported hown hreported
    cases hown
    cases hreported
    rfl
  have hverified := hiff.mpr hincluded
  obtain ⟨package, rfl⟩ :=
    List.length_eq_one_iff.mp ((length_of_mapM_eq_ok hpublished).trans hone)
  exact ⟨verification, hverification, finalized, package, hpublished, by simpa using hverified⟩

/-! ### Notices -/

/-- What a reader is shown of a notice. -/
def shownNotice (text : JsString) : JsString :=
  if text.head? = some byteOrderUnit then text.tail else text

/-- Every notice is decoded from a verified package of the transaction, each from its own. -/
def DeliversNotices (tx : Transaction) (options : VerifyTransactionOptions)
    (texts : List JsString) : Prop :=
  ∃ verification, verifyTransactionPackages tx options = .ok verification ∧
    ∃ packages : List Package, (packages.map Package.segment).Nodup ∧
      (∀ pkg ∈ packages, pkg ∈ verification.verified) ∧
      List.Forall₂ (fun text pkg => ∃ payload, Package.payload pkg = some payload ∧
        decodeNotice payload = .ok (shownNotice text)) texts packages

/-- The encoded notices are delivered as notices. -/
lemma deliversNotices_of_delivers {tx : Transaction} {target : VerifyTransactionOptions}
    {texts : List JsString}
    (htexts : ∀ text ∈ texts, Paired text ∧ (textEncode text).length < 2 ^ 32)
    (h : Delivers tx target (texts.map encodeNoticeText)) : DeliversNotices tx target texts := by
  obtain ⟨verification, hverification, packages, hnodup, hmem, hcarried⟩ := h
  refine ⟨verification, hverification, packages, hnodup, hmem, ?_⟩
  rw [List.forall₂_map_left_iff] at hcarried
  have hshown := (List.forall₂_and_left texts packages).mpr ⟨htexts, hcarried⟩
  refine hshown.imp fun text pkg h => ?_
  obtain ⟨⟨hpaired, hlength⟩, padding, -, -, hpayload⟩ := h
  exact ⟨_, hpayload, decodeNotice_encodeNotice hpaired hlength padding⟩

/-- **A published notice is read.**  When notices are published and the run ends verified, the
notice board decodes each of them from a verified package of its own in the included transaction,
but for a first U+FEFF. -/
theorem publish_delivers_notices {tools : CommandTools} {machine : Machine}
    {services : ChainServices} {options : PublishOptions} {s s' : CommandState}
    {record : PublicationRecord} {texts : List JsString}
    (hmessages : options.messages = texts.map encodeNoticeText)
    (htexts : ∀ text ∈ texts, Paired text ∧ (textEncode text).length < 2 ^ 32)
    (h : (runPublish tools machine services options).Returns s record s') :
    (options.dryRun = some true ∧ record.stage = .finalized) ∨
      record.stage = .verified ∧ ∃ inclusion bytes included,
        record.inclusion = some inclusion ∧ hexToBytes inclusion.rawHex = .ok bytes ∧
        deserializeTransaction tools.assembly.ledger bytes = .ok included ∧
        DeliversNotices included (publishTarget services options inclusion) texts := by
  rcases publishedAs_of_returns h with hdry | ⟨hstage, inclusion, included, finalized, hinclusion,
    hpublished⟩
  · exact Or.inl hdry
  · obtain ⟨bytes, hbytes, hincluded⟩ := hpublished.read
    have hdelivers := hpublished.delivers
    rw [hmessages] at hdelivers
    exact Or.inr ⟨hstage, inclusion, bytes, included, hinclusion, hbytes, hincluded,
      deliversNotices_of_delivers htexts hdelivers⟩

/-- The transaction of one notice as the chain includes it. -/
def noticeTransaction : Transaction :=
  { publishedTransaction with
    intents := InsertionMap.empty.set 7 (emissionIntent sampleContract (js "emitPart")
      [sampleEventName ++ zeroExtend 256 (encodeNotice (js "hi"))]) }

/-- Tools whose ledger reads that transaction. -/
def noticeTools : CommandTools :=
  { publishTools with
    assembly := { publishTools.assembly with
      ledger := { publishTools.assembly.ledger with
        deserialize := fun _ _ => .ok noticeTransaction } } }

/-- A publication of one notice. -/
def noticePublication : PublishOptions :=
  { samplePublication with
    profile := ⟨.noticeBoard, js "event", js "emitPart"⟩
    messages := [encodeNoticeText (js "hi")] }

/-- The notice is read from the included transaction. -/
theorem publish_delivers_notices_hi :
    ∃ record s', (runPublish noticeTools (sampleMachine 7) publishServices
        noticePublication).Returns noFiles record s' ∧ record.stage = .verified ∧
      ∃ inclusion, record.inclusion = some inclusion ∧
        DeliversNotices noticeTransaction
          (publishTarget publishServices noticePublication inclusion) [js "hi"] := by
  have hrun : ((runPublish noticeTools (sampleMachine 7) publishServices noticePublication
      noFiles).1.toOption.map PublicationRecord.stage) = some .verified := by decide +kernel
  obtain ⟨record, hrecord, hstage⟩ := Option.map_eq_some_iff.mp hrun
  have hreturns := Action.returns_of_result (toOption_eq_some_iff.mp hrecord)
  have htexts : ∀ text ∈ [js "hi"], Paired text ∧ (textEncode text).length < 2 ^ 32 := by
    intro text htext
    rw [List.mem_singleton] at htext
    subst htext
    exact ⟨paired_literal rfl, by decide⟩
  refine ⟨record, _, hreturns, hstage, ?_⟩
  rcases publish_delivers_notices rfl htexts hreturns with ⟨hdry, -⟩ |
    ⟨-, inclusion, bytes, included, hinclusion, -, hread, hdelivers⟩
  · cases hdry
  · cases hread
    exact ⟨inclusion, hinclusion, hdelivers⟩

end MultiPartEvent
