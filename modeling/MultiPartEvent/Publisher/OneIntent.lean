import MultiPartEvent.Publisher.Assembly

/-!
# What a built transaction holds

`OneIntentEach` is the result of a build in full: one intent per request, at distinct segments
other than 0, each with the calls of its request in part order, found at the first free segment
drawn for it.  `buildPackagesTransaction_one_intent_each` proves it for every sequence of draws,
together with the exact condition under which the assembly of a request throws.
-/

namespace MultiPartEvent

section Start

variable {PS : Type} {env : AssemblyEnv} {source : PublicationStateSource}
  {config : PublisherConfig} {requests : List (PackageRequest PS)} {asm : Assembly}

/-- A resolved configuration is for the configured network. -/
lemma network_of_resolvePublisherConfig {sha256Hex : Bytes → JsString} {resolved : ResolvedConfig}
    (h : resolvePublisherConfig sha256Hex config = .ok resolved) :
    resolved.network = config.network := by
  simp only [resolvePublisherConfig, bind_eq_ok_iff, pure_eq_ok_iff] at h
  obtain ⟨-, -, -, -, _, -, _, -, _, -, _, -, rfl⟩ := h
  rfl

/-- What is known when the loop over the packages starts. -/
structure Started (config : PublisherConfig) (requests : List (PackageRequest PS))
    (asm : Assembly) : Prop where
  network : asm.resolved.network = config.network
  count : 1 ≤ requests.length ∧ requests.length ≤ 16
  names : ∀ (index : ℕ) request, requests[index]? = some request → ∃ name,
    asm.names[index]? = some name ∧ Preflight request asm.resolved.maxParts name

/-- The loop starts with every request accepted by preflight. -/
lemma started_of_startAssembly (h : startAssembly env source config requests = .ok asm) :
    Started config requests asm := by
  obtain ⟨resolved, hresolved, h⟩ := bind_eq_ok_iff.mp h
  obtain ⟨_, hcount, h⟩ := bind_eq_ok_iff.mp h
  obtain ⟨names, hnames, h⟩ := bind_eq_ok_iff.mp h
  obtain ⟨block, -, h⟩ := bind_eq_ok_iff.mp h
  obtain ⟨_, -, h⟩ := bind_eq_ok_iff.mp h
  rw [throwIf_eq_ok_iff, not_or, not_lt, not_lt] at hcount
  have hall : ∀ (index : ℕ) request, requests[index]? = some request → ∃ name,
      names[index]? = some name ∧ Preflight request resolved.maxParts name := by
    intro index request hrequest
    have hitem : requests.zipIdx[index]? = some (request, index) := by
      rw [List.getElem?_zipIdx, hrequest]
      simp
    obtain ⟨name, hname, hplace⟩ := getElem?_of_mapM_eq_ok hnames hitem
    exact ⟨name, hplace, preflightPackage_eq_ok_iff.mp hname⟩
  split at h
  · simp at h
  · obtain ⟨snapshots, -, h⟩ := bind_eq_ok_iff.mp h
    split at h
    · simp at h
    · rw [pure_eq_ok_iff] at h
      subst h
      exact ⟨network_of_resolvePublisherConfig hresolved, hcount, hall⟩

/-- **The loop keeps the invariant**, from the empty transaction on and after any number of
requests. -/
theorem assembled_of_assembleRequests {IsCall : PrePartitionCall → ContractCall → Prop}
    (hadd : AddsCalls env IsCall)
    (hnew : ∀ network, (env.fromPartsRandomized network).intents.keys = [])
    (hstart : Started config requests asm) {done : ℕ} (hdone : done ≤ requests.length)
    {st : AssemblyState} (h : assembleRequests env asm (requests.zipIdx.take done) = .ok st) :
    Assembled env IsCall asm requests done st := by
  refine foldlM_invariant (I := Assembled env IsCall asm requests) ?_ ?_
    (by simpa using hdone) h
  · exact
      { packages := rfl
        attempts := rfl
        drawn := rfl
        segments := by simp [hnew]
        each := fun _ _ hlt => absurd hlt (Nat.not_lt_zero _) }
  · intro index item st st' hitem hinv hround
    rw [List.getElem?_zipIdx, Option.map_eq_some_iff] at hitem
    obtain ⟨request, hrequest, rfl⟩ := hitem
    rw [Nat.zero_add] at hround
    obtain ⟨name, hname, hpreflight⟩ := hstart.names index request hrequest
    exact hinv.step hadd hrequest hname hpreflight hround

end Start

/-- A built transaction as the loop over the packages leaves it. -/
def BuiltTransaction.state (built : BuiltTransaction) : AssemblyState :=
  ⟨built.transaction, built.packages, built.assemblyAttempts, built.assemblyAttempts.sum⟩

/-- One intent per request, whatever was drawn. -/
structure OneIntentEach {PS : Type} (env : AssemblyEnv)
    (IsCall : PrePartitionCall → ContractCall → Prop) (asm : Assembly)
    (requests : List (PackageRequest PS)) (built : BuiltTransaction) : Prop where
  count : built.packages.length = requests.length ∧
    built.frozenTranscripts.length = requests.length ∧
    built.assemblyAttempts.length = requests.length
  distinct : (built.packages.map ExpectedPackage.segment).Nodup
  /-- The transaction has the packages' intents and no other. -/
  intents : ∀ segment, segment ∈ built.transaction.intents.keys ↔
    ∃ pkg ∈ built.packages, pkg.segment = .int segment
  nonzero : 0 ∉ built.transaction.intents.keys
  accepted : ∀ stage, assertTransactionPackages built.transaction built.packages stage none = .ok ()
  each : ∀ (index : ℕ) request, requests[index]? = some request →
    ∃ pkg rejected segment intent frozen,
      AssembledAt env IsCall asm built.state index request pkg rejected segment intent ∧
      built.frozenTranscripts[index]? = some frozen ∧
      List.Forall₂ (fun action transcript => ContractAction.guaranteed? action = some transcript)
        intent.actions frozen

/-- An action keeps its guaranteed transcript. -/
lemma frozenTranscript_eq_ok_iff {action : ContractAction} {transcript : Transcript} :
    frozenTranscript action = .ok transcript ↔ action.guaranteed? = some transcript := by
  rw [frozenTranscript]
  cases action.guaranteed? <;> simp

/-- **One intent per package whatever segments are drawn.**  A build that returns holds one
intent per request; and the assembly of a request, once reached, throws exactly when none of
its draws is free, in which case the build throws. -/
theorem buildPackagesTransaction_one_intent_each {PS : Type} {env : AssemblyEnv}
    {IsCall : PrePartitionCall → ContractCall → Prop} (hadd : AddsCalls env IsCall)
    (hnew : ∀ network, (env.fromPartsRandomized network).intents.keys = [])
    (source : PublicationStateSource) (config : PublisherConfig)
    (requests : List (PackageRequest PS)) :
    (∀ built, buildPackagesTransaction env source config requests = .ok built → ∃ asm,
      startAssembly env source config requests = .ok asm ∧
      asm.resolved.network = config.network ∧ OneIntentEach env IsCall asm requests built) ∧
    ∀ asm index request st prepared, startAssembly env source config requests = .ok asm →
      requests[index]? = some request →
      assembleRequests env asm (requests.zipIdx.take index) = .ok st →
      prepareRequest env asm request index = .ok prepared →
      ((∃ err, addGuaranteedIntent env st.transaction (prepared.calls env) asm.ledgerParameters
          asm.ttl asm.resolved.maxAssemblyAttempts st.drawn = .error err) ↔
        ∀ k < asm.resolved.maxAssemblyAttempts,
          env.draws (st.attempts.sum + k) = 0 ∨
            ∃ pkg ∈ st.packages, pkg.segment = .int (env.draws (st.attempts.sum + k))) ∧
      ∀ err, addGuaranteedIntent env st.transaction (prepared.calls env) asm.ledgerParameters
          asm.ttl asm.resolved.maxAssemblyAttempts st.drawn = .error err →
        buildPackagesTransaction env source config requests = .error err := by
  constructor
  · intro built hbuilt
    obtain ⟨asm, hasm, hbuilt⟩ := bind_eq_ok_iff.mp hbuilt
    obtain ⟨st, hst, hbuilt⟩ := bind_eq_ok_iff.mp hbuilt
    obtain ⟨⟨⟩, hguard, hbuilt⟩ := bind_eq_ok_iff.mp hbuilt
    obtain ⟨frozen, hfrozen, hbuilt⟩ := bind_eq_ok_iff.mp hbuilt
    rw [pure_eq_ok_iff] at hbuilt
    subst hbuilt
    have hstart : Started config requests asm := started_of_startAssembly hasm
    have hinv : Assembled env IsCall asm requests requests.length st := by
      refine assembled_of_assembleRequests hadd hnew hstart le_rfl ?_
      rwa [List.take_of_length_le (by simp)]
    have hheld := assertTransactionPackages_eq_ok_iff.mp hguard
    refine ⟨asm, hasm, hstart.network, ?_⟩
    refine ⟨⟨hinv.packages, (length_of_mapM_eq_ok hfrozen).trans hinv.packages, hinv.attempts⟩,
      hheld.2.1, hinv.segments, ?_, fun stage => assertTransactionPackages_eq_ok_iff.mpr hheld, ?_⟩
    · intro hzero
      obtain ⟨pkg, hpkg, hsegment⟩ := (hinv.segments 0).mp hzero
      obtain ⟨index, hindex⟩ := List.getElem?_of_mem hpkg
      obtain ⟨segment, _, hholds⟩ := hheld.2.2 index pkg hindex
      obtain ⟨hplaced, hone, -⟩ := hholds.placed
      rw [hsegment, JsNumber.int.injEq, Nat.cast_inj] at hplaced
      exact absurd hone (by simp [← hplaced])
    · intro index request hrequest
      have hlt : index < requests.length := (List.getElem?_eq_some_iff.mp hrequest).1
      obtain ⟨pkg, rejected, segment, intent, hat⟩ := hinv.each index request hlt hrequest
      obtain ⟨transcripts, htranscripts, hplace⟩ := getElem?_of_mapM_eq_ok hfrozen hat.package
      have hactions : ((st.transaction.intentAt pkg.segment).map Intent.actions).getD [] =
          intent.actions := by
        rw [hat.expects.segment]
        exact congrArg (fun found => (Option.map Intent.actions found).getD []) hat.found
      rw [hactions, mapM_eq_ok_iff] at htranscripts
      simp only [frozenTranscript_eq_ok_iff] at htranscripts
      refine ⟨pkg, rejected, segment, intent, transcripts, ?_, hplace, htranscripts⟩
      exact ⟨hat.package, hat.attempts, hat.expects, hat.first, hat.found, hat.calls⟩
  · intro asm index request st prepared hasm hrequest hreached hprepare
    have hstart : Started config requests asm := started_of_startAssembly hasm
    have hlt : index < requests.length := (List.getElem?_eq_some_iff.mp hrequest).1
    have hinv : Assembled env IsCall asm requests index st :=
      assembled_of_assembleRequests hadd hnew hstart hlt.le hreached
    obtain ⟨name, hname, hpreflight⟩ := hstart.names index request hrequest
    have hprepared : Prepared request name prepared :=
      prepared_of_prepareRequest hname hpreflight hprepare
    have htaken : ∀ segment, ¬Free st.packages segment ↔
        segment = 0 ∨ ∃ pkg ∈ st.packages, pkg.segment = .int segment := by
      intro segment
      simp only [Free, not_and_or, not_not, not_forall, exists_prop]
    constructor
    · simp only [← htaken]
      rcases hinv.addGuaranteedIntent_cases hadd hprepared asm.ledgerParameters asm.ttl
        asm.resolved.maxAssemblyAttempts with ⟨hnone, hthrows⟩ |
          ⟨rejected, hlt, segment, next, intent, hfirst, hloop, -⟩
      · exact iff_of_true hthrows hnone
      · refine iff_of_false ?_ fun hnone => ?_
        · rw [hloop]
          simp
        · exact hnone rejected hlt (hfirst.draw.symm ▸ hfirst.free)
    · intro err hthrows
      have hround : assembleRequest env asm st (request, index) = .error err := by
        simp only [assembleRequest, hprepare, ok_bind, hthrows]
        rfl
      have hitem : requests.zipIdx[index]? = some (request, index) := by
        rw [List.getElem?_zipIdx, hrequest]
        simp
      have hloop : assembleRequests env asm requests.zipIdx = .error err :=
        foldlM_error_of_step hitem hreached hround
      simp only [buildPackagesTransaction, hasm, ok_bind, hloop]
      rfl

/-! ### A ledger that draws given segments -/

/-- A call whose whole transcript is guaranteed. -/
def guaranteedCall (call : PrePartitionCall) : ContractCall :=
  ⟨call.address, .text call.entryPoint, some ⟨call.program, [], []⟩, none⟩

/-- An intent with calls appended, a new one if there is none. -/
def extendIntent (intent : Option Intent) (calls : List PrePartitionCall) : Intent where
  actions :=
    (intent.map Intent.actions).getD [] ++ calls.map fun call => .call (guaranteedCall call)
  guaranteedUnshieldedOffer := none
  fallibleUnshieldedOffer := none
  dustActions := none
  intentHash := fun _ => []

/-- Put calls into the intent at a segment. -/
def appendCalls (tx : Transaction) (calls : List PrePartitionCall) (segment : ℕ) : Transaction :=
  { tx with
    intents := tx.intents.set segment (extendIntent (tx.intents.get? segment) calls) }

/-- An environment with the given draws, where every contract has every operation. -/
def drawingEnv (draws : ℕ → ℕ) : AssemblyEnv where
  ledger :=
    { deserialize := fun _ _ => .error (.error [])
      deserializeEvent := fun _ => .error (.error [])
      deserializeState := fun _ => .ok ⟨fun _ => some ⟨some [1]⟩⟩ }
  runtimeState := fun _ => .ok []
  sha256Hex := fun _ => []
  fromPartsRandomized := fun _ => ⟨.empty, .empty, none, [], []⟩
  addCalls := fun tx calls _ _ segment => .ok (appendCalls tx calls segment)
  draws := draws
  randomness := fun _ _ => []

/-- The `addCalls` of the environment that draws behaves as assumed. -/
lemma addsCalls_drawingEnv (draws : ℕ → ℕ) :
    AddsCalls (drawingEnv draws) (fun call c => c = guaranteedCall call) := by
  have hadded :
      ∀ (tx : Transaction) calls segment, IntentAdded (fun call c => c = guaranteedCall call)
      tx calls (((tx.intents.get? segment).map Intent.actions).getD []) segment
      (appendCalls tx calls segment) := by
    intro tx calls segment
    refine ⟨⟨extendIntent (tx.intents.get? segment) calls,
      calls.map fun call => .call (guaranteedCall call), ?_, rfl, ?_⟩, fun s hs => ?_⟩
    · rw [appendCalls, InsertionMap.get?_set, if_pos rfl]
    · rw [List.forall₂_map_right_iff, List.forall₂_same]
      exact fun call _ => ⟨_, rfl, rfl⟩
    · rw [appendCalls, InsertionMap.get?_set, if_neg hs]
  constructor
  · intro tx calls _ _ segment hfree
    have hnew := hadded tx calls segment
    rw [hfree] at hnew
    exact ⟨_, rfl, hnew⟩
  · intro tx calls _ _ segment intent hintent
    have hmore := hadded tx calls segment
    rw [hintent] at hmore
    exact ⟨_, rfl, hmore⟩

/-- A binding whose circuit emits the part under a name, as the contract. -/
def emittingBinding (contract entryPoint : JsString) (name : Bytes) : EmissionBinding Unit where
  entryPoint := entryPoint
  createPrivateState := fun _ => ()
  emitPart := fun _ payload => .ok
    { callProofDataTrace := [
        { contractAddress := contract
          circuitId := entryPoint
          commCommData := none
          zswapLocalState := ⟨none, none⟩
          initialQueryContext := ⟨[], contract, [], [], []⟩
          finalQueryContext := ⟨[], contract, [], [], []⟩
          publicTranscript := (emissionTranscript (name ++ payload)).program
          privateTranscriptOutputs := []
          input := []
          output := [] }]
      events := [⟨contract, js "misc", .cell [.atom (.bytes 288)] [name ++ payload]⟩] }

/-- Two requests for one contract and name: the draws 0 and 7 give the first package segment 7,
the draws 7 (taken) and 9 give the second one segment 9. -/
theorem buildPackagesTransaction_one_intent_each_redrawn :
    let contract := List.replicate 64 (hexUnit 10)
    let name : Bytes := List.replicate 32 7
    let env := drawingEnv fun n => [0, 7, 7, 9].getD n 1
    let source : PublicationStateSource :=
      { latestBlock := .ok ⟨js "b", .int 1, .int 1000⟩
        contractStateAt := fun _ _ => .ok ⟨[], []⟩ }
    let config : PublisherConfig := ⟨js "net", js "key", none, none, none, none, none⟩
    let request : PackageRequest Unit :=
      ⟨contract, .bytes name, emittingBinding contract (js "emitPart") name,
        [List.replicate 256 1, List.replicate 256 2]⟩
    ∃ built asm, buildPackagesTransaction env source config [request, request] = .ok built ∧
      built.assemblyAttempts = [2, 2] ∧
      built.packages.map ExpectedPackage.segment = [.int 7, .int 9] ∧
      OneIntentEach env (fun call c => c = guaranteedCall call) asm [request, request] built := by
  intro contract name env source config request
  have hrun : (buildPackagesTransaction env source config [request, request]).toOption.map
      (fun built => (built.assemblyAttempts, built.packages.map ExpectedPackage.segment)) =
      some ([2, 2], [.int 7, .int 9]) := by decide +kernel
  rw [Option.map_eq_some_iff] at hrun
  obtain ⟨built, hbuilt, hobserved⟩ := hrun
  rw [Prod.mk.injEq] at hobserved
  have hok : buildPackagesTransaction env source config [request, request] = .ok built :=
    toOption_eq_some_iff.mp hbuilt
  obtain ⟨asm, -, -, heach⟩ := (buildPackagesTransaction_one_intent_each
    (addsCalls_drawingEnv fun n => [0, 7, 7, 9].getD n 1) (fun _ => rfl) source config
    [request, request]).1 built hok
  exact ⟨built, asm, hok, hobserved.1, hobserved.2, heach⟩

end MultiPartEvent
