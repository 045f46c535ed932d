import MultiPartEvent.DeployTools.Commands
import MultiPartEvent.Transcripts
import MultiPartEvent.Transitions

/-!
# Contracts behind the emitter whitelist

`EmitterWhitelist` stores the commitment of one emitter's secret, and every circuit of a contract
that imports it first proves that its caller knows the secret.  An `Adopter` is such a contract: its
state holds the authority, no update writes it, and its circuits do something of their own after the
check.

A call that is accepted on chain was executed somewhere else, on some earlier state of the contract
or on one that never was.  All that the chain sees is a transcript, a proof that the circuit makes
it for some secret, and that it replays.  Still the contract behaves as if each accepted call were
executed at once on the current state (`accepted_iff`): the authority stays, every caller knew its
secret, and the state and the events are those of the accepted calls, one after the other
(`follows_reaches`).  That is so while the contract only takes calls: its maintenance authority
outranks the whitelist, and an update by it can replace any circuit.
-/

namespace MultiPartEvent

/-- `Bytes<n>`. -/
abbrev FixedBytes (n : ℕ) := { bytes : Bytes // bytes.length = n }

/-- `pad(32, text)`, for a text of at most 32 bytes. -/
def pad32 (text : JsString) : Bytes := zeroExtend 32 (textEncode text)

/-- `persistentHash<Vector<2, Bytes<32>>>`: the hash of the concatenated bytes. -/
def persistentHash (sha256 : Bytes → Bytes) (values : List Bytes) : Bytes := sha256 values.flatten

/-- The pure circuit `emitterAuthorityOf(secret)`. -/
def circuitAuthorityOf (sha256 : Bytes → Bytes) (secret : FixedBytes 32) : Bytes :=
  persistentHash sha256 [pad32 emitterAuthorityTag, secret.val]

/-- The client takes secrets of 32 bytes, and computes the commitment of the circuit. -/
lemma emitterAuthorityOf_eq_ok_iff {sha256 : Bytes → Bytes} {secret authority : Bytes} :
    emitterAuthorityOf sha256 secret = .ok authority ↔
      ∃ h : secret.length = 32, authority = circuitAuthorityOf sha256 ⟨secret, h⟩ := by
  have hcircuit : ∀ h : secret.length = 32, circuitAuthorityOf sha256 ⟨secret, h⟩ =
      sha256 (zeroExtend secretLength (textEncode emitterAuthorityTag) ++ secret) := by
    intro h
    simp [circuitAuthorityOf, persistentHash, pad32, secretLength]
  unfold emitterAuthorityOf throwIf
  by_cases hwidth : secret.length = 32
  · have hchecked : ¬secret.length ≠ secretLength := not_not.mpr hwidth
    rw [if_neg hchecked]
    constructor
    · intro h
      cases h
      exact ⟨hwidth, (hcircuit hwidth).symm⟩
    · intro h
      obtain ⟨_, rfl⟩ := h
      rw [hcircuit]
      rfl
  · have hchecked : secret.length ≠ secretLength := hwidth
    rw [if_pos hchecked]
    constructor
    · intro h
      cases h
    · intro h
      exact absurd h.1 hwidth

/-! ### The module -/

/-- What the module's circuits read of the ledger. -/
inductive WhitelistQuery where
  | emitterAuthority
  deriving DecidableEq

/-- A circuit of a contract with the module: it reads the authority, updates the contract's own
fields, emits `Misc` events, and its assertions have messages. -/
abbrev Circuit (U : Type) := Program WhitelistQuery Bytes U RestoredEvent JsString

/-- The transcript of a circuit. -/
abbrev CircuitTranscript (U : Type) := List (Recorded WhitelistQuery Bytes U RestoredEvent)

/-- `initializeEmitterAuthority(authority)`: the authority a constructor stores. -/
def initializeEmitterAuthority (authority : FixedBytes 32) : Except JsString Bytes :=
  if authority.val = List.replicate 32 0 then .error (js "EmitterWhitelist: zero authority")
  else .ok authority.val

/-- `assertEmitterAuthority()`, for the secret the witness answers. -/
def assertEmitterAuthority {U : Type} (sha256 : Bytes → Bytes) (secret : FixedBytes 32) :
    Circuit U :=
  .ask .emitterAuthority fun authority =>
    if authority = circuitAuthorityOf sha256 secret then .done
    else .reject (js "EmitterWhitelist: caller is not the emitter authority")

/-! ### Contracts with the module -/

/-- A contract that imports the module, with the calls of its circuits. -/
structure Adopter (σ U C : Type) where
  emitterAuthority : σ → Bytes
  update : U → σ → Except JsString σ
  /-- The module seals the authority: no update writes it. -/
  keeps_authority : ∀ u s s', update u s = .ok s' → emitterAuthority s' = emitterAuthority s
  /-- What the circuit of a call does after the check. -/
  body : C → Circuit U

namespace Adopter

variable {σ U C : Type}

/-- The ledger fields of the contract as its circuits see them. -/
def store (adopter : Adopter σ U C) : Store σ WhitelistQuery Bytes U JsString where
  answer s _ := adopter.emitterAuthority s
  update := adopter.update

/-- The circuit of a call: the check, then the body. -/
def circuit (adopter : Adopter σ U C) (sha256 : Bytes → Bytes) (secret : FixedBytes 32)
    (call : C) : Circuit U :=
  (assertEmitterAuthority sha256 secret).seq (adopter.body call)

end Adopter

/-- A call that comes to the chain: the transcript, and the secret its proof was made with, which
stays hidden. -/
structure ProvenCall (U C : Type) where
  call : C
  secret : FixedBytes 32
  transcript : CircuitTranscript U

/-- The contract on the chain: its state, the calls accepted so far and the events they emitted. -/
structure OnChain (σ U C : Type) where
  state : σ
  accepted : List (ProvenCall U C)
  events : List RestoredEvent

namespace Adopter

variable {σ U C : Type}

/-- Accept a call: its transcript replays on the current state. -/
def accept (adopter : Adopter σ U C) (chain : OnChain σ U C) (proven : ProvenCall U C) :
    Option (OnChain σ U C) :=
  (replay adopter.store proven.transcript chain.state).map fun effect =>
    ⟨effect.state, chain.accepted ++ [proven], chain.events ++ effect.events⟩

/-- The proof of a call shows that its circuit makes the transcript, with some answers. -/
def Proves (adopter : Adopter σ U C) (sha256 : Bytes → Bytes) (_ : OnChain σ U C)
    (proven : ProvenCall U C) : Prop :=
  (adopter.circuit sha256 proven.secret proven.call).Records proven.transcript

/-- The states of the contract after the accepted calls of a run, in which no maintenance update
replaces its circuits. -/
abbrev Runs (adopter : Adopter σ U C) (sha256 : Bytes → Bytes) :
    OnChain σ U C → OnChain σ U C → Prop :=
  Reaches adopter.accept (adopter.Proves sha256)

/-- Execute the bodies of calls one after the other. -/
def runBodies (adopter : Adopter σ U C) : List C → σ → Except JsString (Effect σ RestoredEvent)
  | [], s => .ok ⟨s, []⟩
  | call :: calls, s => do
    let (_, effect) ← (adopter.body call).run adopter.store s
    let later ← adopter.runBodies calls effect.state
    return later.after effect.events

variable {adopter : Adopter σ U C} {sha256 : Bytes → Bytes} {chain chain' : OnChain σ U C}
  {proven : ProvenCall U C} {call : C} {secret : FixedBytes 32} {s s' : σ}
  {entries : CircuitTranscript U} {effect : Effect σ RestoredEvent}

/-- A circuit is executed where the secret is the authority's, and then its body is. -/
lemma run_circuit_iff : (adopter.circuit sha256 secret call).run adopter.store s =
      .ok (entries, effect) ↔
    adopter.emitterAuthority s = circuitAuthorityOf sha256 secret ∧
      ∃ rest, entries = .asked .emitterAuthority (circuitAuthorityOf sha256 secret) :: rest ∧
        (adopter.body call).run adopter.store s = .ok (rest, effect) := by
  have hanswer : adopter.store.answer s .emitterAuthority = adopter.emitterAuthority s := rfl
  unfold circuit assertEmitterAuthority
  rw [Program.seq, Program.run, hanswer, bind_eq_ok_iff]
  by_cases hauthority : adopter.emitterAuthority s = circuitAuthorityOf sha256 secret
  · rw [if_pos hauthority, hauthority, Program.seq]
    constructor
    · intro h
      obtain ⟨⟨rest, effect'⟩, hbody, heq⟩ := h
      cases heq
      exact ⟨rfl, rest, rfl, hbody⟩
    · intro h
      obtain ⟨-, rest, rfl, hbody⟩ := h
      exact ⟨(rest, effect), hbody, rfl⟩
  · rw [if_neg hauthority, Program.seq]
    constructor
    · intro h
      obtain ⟨_, hrun, -⟩ := h
      cases hrun
    · intro h
      exact absurd h.1 hauthority

/-- A call is accepted exactly when it could be executed on the current state, with the same
transcript; its effect is that of the body. -/
lemma accepted_iff : adopter.Proves sha256 chain proven ∧
      adopter.accept chain proven = some chain' ↔
    adopter.emitterAuthority chain.state = circuitAuthorityOf sha256 proven.secret ∧
      ∃ rest effect,
        proven.transcript =
          .asked .emitterAuthority (circuitAuthorityOf sha256 proven.secret) :: rest ∧
        (adopter.body proven.call).run adopter.store chain.state = .ok (rest, effect) ∧
        chain' = ⟨effect.state, chain.accepted ++ [proven], chain.events ++ effect.events⟩ := by
  constructor
  · intro h
    obtain ⟨hproves, haccept⟩ := h
    obtain ⟨effect, hreplay, rfl⟩ := Option.map_eq_some_iff.mp haccept
    obtain ⟨hauthority, rest, htranscript, hbody⟩ :=
      run_circuit_iff.mp (Program.run_eq_ok_iff.mpr ⟨hproves, hreplay⟩)
    exact ⟨hauthority, rest, effect, htranscript, hbody, rfl⟩
  · intro h
    obtain ⟨hauthority, rest, effect, htranscript, hbody, rfl⟩ := h
    obtain ⟨hrecords, hreplay⟩ := Program.run_eq_ok_iff.mp
      (run_circuit_iff.mpr ⟨hauthority, rest, htranscript, hbody⟩)
    refine ⟨hrecords, ?_⟩
    unfold accept
    rw [hreplay]
    rfl

/-- A program keeps the authority. -/
lemma authority_of_run {program : Circuit U}
    (h : program.run adopter.store s = .ok (entries, effect)) :
    adopter.emitterAuthority effect.state = adopter.emitterAuthority s := by
  induction program generalizing s entries effect with
  | done =>
    cases h
    rfl
  | reject reason => cases h
  | ask query next ih =>
    obtain ⟨_, hnext, heq⟩ := bind_eq_ok_iff.mp h
    cases heq
    exact ih _ hnext
  | act update next ih =>
    obtain ⟨s', hupdate, hrest⟩ := bind_eq_ok_iff.mp h
    obtain ⟨_, hnext, heq⟩ := bind_eq_ok_iff.mp hrest
    cases heq
    exact (ih hnext).trans (adopter.keeps_authority _ _ _ hupdate)
  | emit event next ih =>
    obtain ⟨⟨_, effect'⟩, hnext, heq⟩ := bind_eq_ok_iff.mp h
    cases heq
    change adopter.emitterAuthority effect'.state = _
    exact ih hnext

/-- One more body is executed after the others. -/
lemma runBodies_concat {calls : List C} {first later : Effect σ RestoredEvent}
    (h : adopter.runBodies calls s = .ok first)
    (hbody : (adopter.body call).run adopter.store first.state = .ok (entries, later)) :
    adopter.runBodies (calls ++ [call]) s = .ok (later.after first.events) := by
  induction calls generalizing s first with
  | nil =>
    cases h
    rw [List.nil_append, runBodies, hbody]
    simp [runBodies, Effect.after]
  | cons earlier calls ih =>
    obtain ⟨⟨rest, effect⟩, hfirst, hrest⟩ := bind_eq_ok_iff.mp h
    obtain ⟨middle, hmiddle, heq⟩ := bind_eq_ok_iff.mp hrest
    cases heq
    rw [List.cons_append, runBodies, hfirst]
    refine bind_eq_ok_iff.mpr ⟨_, rfl, bind_eq_ok_iff.mpr ⟨_, ih hmiddle hbody, ?_⟩⟩
    simp [Effect.after]

/-- What holds of the contract on the chain after a start: the authority is still the one of the
start, every caller of an accepted call knew a secret with this commitment, and the state and the
events are those of the accepted calls, executed one after the other. -/
structure Follows (adopter : Adopter σ U C) (sha256 : Bytes → Bytes) (start : σ)
    (chain : OnChain σ U C) : Prop where
  authority : adopter.emitterAuthority chain.state = adopter.emitterAuthority start
  authorized : ∀ proven ∈ chain.accepted,
    circuitAuthorityOf sha256 proven.secret = adopter.emitterAuthority start
  effect : adopter.runBodies (chain.accepted.map ProvenCall.call) start =
    .ok ⟨chain.state, chain.events⟩

/-- **Accepted calls take effect one after the other.**  However stale the states are on which the
transcripts were recorded, the contract goes through its accepted calls as if each were executed at
once by a caller with the authority's secret. -/
theorem follows_reaches {start : σ} (h : adopter.Runs sha256 ⟨start, [], []⟩ chain) :
    adopter.Follows sha256 start chain := by
  refine Reaches.invariant (I := adopter.Follows sha256 start) ⟨rfl, ?_, rfl⟩ ?_ h
  · intro proven hproven
    cases hproven
  · intro chain proven chain' hbefore hproves haccept
    obtain ⟨hauthority, rest, effect, -, hbody, rfl⟩ := accepted_iff.mp ⟨hproves, haccept⟩
    constructor
    · exact (authority_of_run hbody).trans hbefore.authority
    · intro accepted haccepted
      rcases List.mem_append.mp haccepted with hearlier | hlast
      · exact hbefore.authorized accepted hearlier
      · rw [List.mem_singleton.mp hlast, ← hauthority]
        exact hbefore.authority
    · rw [List.map_append, List.map_singleton]
      exact runBodies_concat hbefore.effect hbody

end Adopter

end MultiPartEvent
