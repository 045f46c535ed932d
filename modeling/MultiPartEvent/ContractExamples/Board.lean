import MultiPartEvent.ContractExamples.Whitelist

/-!
# The example contracts

The emitter and the notice board are contracts behind the whitelist.  Both have the circuit
`emitPart`, which emits one event and writes nothing; the board also has `pin`, which writes a
digest and counts.

Neither circuit of the board reads what another one writes.  So a call that was executed on any
state of the board is accepted on every other state, in any order with other calls, and does there
what it would do if it were executed afresh (`stale_calls_accepted`): the parts of a package, all
executed on one snapshot, put exactly their events one behind the other, and a pin counts what is
there when it is applied.
-/

namespace MultiPartEvent

/-- The default value of `Bytes<32>`. -/
def zeroDigest : Bytes := List.replicate 32 0

/-- `emitPart(payload)` after the check: one event. -/
def emitPartBody {U : Type} (name : JsString) (payload : FixedBytes 256) : Circuit U :=
  .emit ⟨pad32 name, payload.val⟩ .done

/-! ### The emitter -/

/-- The event name of the emitter. -/
def messageEvent : JsString := js "example:message[v1]"

/-- The ledger of the emitter. -/
structure EmitterState where
  emitterAuthority : Bytes

/-- `constructor(authority)`. -/
def emitterConstructor (authority : FixedBytes 32) : Except JsString EmitterState := do
  return ⟨← initializeEmitterAuthority authority⟩

/-- The emitter: `emitPart` is its only circuit, and it updates nothing. -/
def emitter : Adopter EmitterState Empty (FixedBytes 256) where
  emitterAuthority := EmitterState.emitterAuthority
  update u _ := nomatch u
  keeps_authority u := nomatch u
  body := emitPartBody messageEvent

/-- The event a call of the emitter emits. -/
def emitterEvent (payload : FixedBytes 256) : RestoredEvent := ⟨pad32 messageEvent, payload.val⟩

section Emitter

variable {sha256 : Bytes → Bytes} {s start : EmitterState} {calls : List (FixedBytes 256)}
  {effect : Effect EmitterState RestoredEvent} {chain : OnChain EmitterState Empty (FixedBytes 256)}

/-- Executed one after the other, calls leave the state as it is and emit their events in order. -/
lemma effect_of_emitter_runBodies (h : emitter.runBodies calls s = .ok effect) :
    effect = ⟨s, calls.map emitterEvent⟩ := by
  induction calls generalizing effect with
  | nil =>
    cases h
    rfl
  | cons payload calls ih =>
    have hbody : (emitter.body payload).run emitter.store s =
        .ok ([.emitted (emitterEvent payload)], ⟨s, [emitterEvent payload]⟩) := rfl
    rw [Adopter.runBodies, hbody, ok_bind] at h
    obtain ⟨later, hlater, heq⟩ := bind_eq_ok_iff.mp h
    cases heq
    rw [ih hlater]
    rfl

/-- **What the emitter has emitted, from its accepted calls alone.**  In every run of calls on a
constructed emitter the authority is the constructor's, every accepted call was proven with a secret
of that authority, and the events are the parts in the order in which their calls were accepted. -/
theorem emitter_reaches {authority : FixedBytes 32}
    (hstart : emitterConstructor authority = .ok start)
    (h : emitter.Runs sha256 ⟨start, [], []⟩ chain) :
    chain.state = ⟨authority.val⟩ ∧
      chain.events = chain.accepted.map (fun proven => emitterEvent proven.call) ∧
      ∀ proven ∈ chain.accepted, circuitAuthorityOf sha256 proven.secret = authority.val := by
  obtain ⟨stored, hstored, heq⟩ := bind_eq_ok_iff.mp hstart
  cases heq
  unfold initializeEmitterAuthority at hstored
  split_ifs at hstored
  cases hstored
  have hfollows := Adopter.follows_reaches h
  have heffect := effect_of_emitter_runBodies hfollows.effect
  rw [Effect.mk.injEq, List.map_map] at heffect
  exact ⟨heffect.1, heffect.2, hfollows.authorized⟩

end Emitter

/-! ### The notice board -/

/-- The event name of the board. -/
def noticeEvent : JsString := js "notice-board:notice[v1]"

/-- The ledger of the board. -/
structure BoardState where
  emitterAuthority : Bytes
  pinnedCount : ℕ
  pinnedDigest : Bytes

/-- What `pin` updates. -/
inductive BoardUpdate where
  | pinnedDigest (digest : Bytes)
  /-- `pinnedCount.increment(amount)`. -/
  | increment (amount : ℕ)
  deriving DecidableEq

/-- Update the board; a counter has 64 bits. -/
def BoardUpdate.apply : BoardUpdate → BoardState → Except JsString BoardState
  | .pinnedDigest digest, s => .ok { s with pinnedDigest := digest }
  | .increment amount, s =>
    if s.pinnedCount + amount < 2 ^ 64 then .ok { s with pinnedCount := s.pinnedCount + amount }
    else .error (js "counter overflow")

/-- The calls of the board's circuits. -/
inductive BoardCall where
  | emitPart (payload : FixedBytes 256)
  | pin (digest : FixedBytes 32)

/-- `pin(digest)` after the check. -/
def pinBody (digest : FixedBytes 32) : Circuit BoardUpdate :=
  .act (.pinnedDigest digest.val) (.act (.increment 1) .done)

/-- `constructor(authority)`. -/
def boardConstructor (authority : FixedBytes 32) : Except JsString BoardState := do
  return ⟨← initializeEmitterAuthority authority, 0, zeroDigest⟩

/-- An update of the board keeps the authority. -/
lemma BoardUpdate.authority_of_apply {u : BoardUpdate} {s s' : BoardState}
    (h : u.apply s = .ok s') :
    s'.emitterAuthority = s.emitterAuthority := by
  cases u with
  | pinnedDigest digest =>
    cases h
    rfl
  | increment amount =>
    rw [BoardUpdate.apply] at h
    split_ifs at h
    cases h
    rfl

/-- The notice board. -/
def noticeBoard : Adopter BoardState BoardUpdate BoardCall where
  emitterAuthority := BoardState.emitterAuthority
  update := BoardUpdate.apply
  keeps_authority _ _ _ := BoardUpdate.authority_of_apply
  body
    | .emitPart payload => emitPartBody noticeEvent payload
    | .pin digest => pinBody digest

/-- The digest a call pins. -/
def BoardCall.pinned : BoardCall → Option Bytes
  | .pin digest => some digest.val
  | .emitPart _ => none

/-- The event a call emits. -/
def BoardCall.emitted : BoardCall → Option RestoredEvent
  | .emitPart payload => some ⟨pad32 noticeEvent, payload.val⟩
  | .pin _ => none

/-- The board after calls: it counts the pins and shows the last one. -/
def BoardState.afterCalls (s : BoardState) (calls : List BoardCall) : BoardState where
  emitterAuthority := s.emitterAuthority
  pinnedCount := s.pinnedCount + (calls.filterMap BoardCall.pinned).length
  pinnedDigest := (calls.filterMap BoardCall.pinned).getLast?.getD s.pinnedDigest

section Board

variable {sha256 : Bytes → Bytes} {s start : BoardState} {calls : List BoardCall}
  {effect : Effect BoardState RestoredEvent} {entries : CircuitTranscript BoardUpdate}
  {before chain : OnChain BoardState BoardUpdate BoardCall}

/-- The last of some pins, or the digest from before them. -/
lemma getLast?_getD_cons (digest : Bytes) (pins : List Bytes) (shown : Bytes) :
    (digest :: pins).getLast?.getD shown = pins.getLast?.getD digest := by
  cases pins with
  | nil => rfl
  | cons pin pins => rw [List.getLast?_cons_cons, List.getLast?_cons, Option.getD_some,
      Option.getD_some]

/-- What the body of a call records and leaves, unless the counter overflows. -/
lemma run_body_iff {call : BoardCall} :
    (noticeBoard.body call).run noticeBoard.store s = .ok (entries, effect) ↔
      (call.pinned ≠ none → s.pinnedCount + 1 < 2 ^ 64) ∧
        entries = (match call with
          | .emitPart payload => [.emitted ⟨pad32 noticeEvent, payload.val⟩]
          | .pin digest => [.updated (.pinnedDigest digest.val), .updated (.increment 1)]) ∧
        effect = ⟨s.afterCalls [call], call.emitted.toList⟩ := by
  cases call with
  | emitPart payload =>
    constructor
    · intro h
      cases h
      exact ⟨fun hpinned => absurd rfl hpinned, rfl, rfl⟩
    · rintro ⟨-, rfl, rfl⟩
      rfl
  | pin digest =>
    have hrun : (noticeBoard.body (.pin digest)).run noticeBoard.store s =
        (if s.pinnedCount + 1 < 2 ^ 64 then
          .ok ([.updated (.pinnedDigest digest.val), .updated (.increment 1)],
            ⟨s.afterCalls [.pin digest], []⟩)
        else .error (js "counter overflow")) := by
      change ((Program.act (.increment 1) .done).run noticeBoard.store
        { s with pinnedDigest := digest.val } >>= _) = _
      by_cases hroom : s.pinnedCount + 1 < 2 ^ 64
      · have hincrement : noticeBoard.store.update (.increment 1)
            { s with pinnedDigest := digest.val } = .ok (s.afterCalls [.pin digest]) := if_pos hroom
        rw [Program.run, hincrement, if_pos hroom]
        rfl
      · have hincrement : noticeBoard.store.update (.increment 1)
            { s with pinnedDigest := digest.val } = .error (js "counter overflow") := if_neg hroom
        rw [Program.run, hincrement, if_neg hroom]
        rfl
    rw [hrun]
    by_cases hroom : s.pinnedCount + 1 < 2 ^ 64
    · rw [if_pos hroom]
      constructor
      · intro h
        cases h
        exact ⟨fun _ => hroom, rfl, rfl⟩
      · rintro ⟨-, rfl, rfl⟩
        rfl
    · rw [if_neg hroom]
      constructor
      · intro h
        cases h
      · rintro ⟨hpinned, -, -⟩
        exact absurd (hpinned (by simp [BoardCall.pinned])) hroom

/-- Calls after a call. -/
lemma afterCalls_cons (s : BoardState) (call : BoardCall) (calls : List BoardCall) :
    s.afterCalls (call :: calls) = (s.afterCalls [call]).afterCalls calls := by
  cases call with
  | emitPart payload => rfl
  | pin digest =>
    have hpins : (BoardCall.pin digest :: calls).filterMap BoardCall.pinned =
        digest.val :: calls.filterMap BoardCall.pinned := rfl
    have hcount : s.pinnedCount + (digest.val :: calls.filterMap BoardCall.pinned).length =
        s.pinnedCount + 1 + (calls.filterMap BoardCall.pinned).length := by
      rw [List.length_cons]
      omega
    unfold BoardState.afterCalls
    rw [hpins, hcount, getLast?_getD_cons]
    rfl

/-- Executed one after the other, calls leave the board that counts their pins and shows the last
one, and their events in order. -/
lemma effect_of_runBodies (h : noticeBoard.runBodies calls s = .ok effect) :
    effect = ⟨s.afterCalls calls, calls.filterMap BoardCall.emitted⟩ := by
  induction calls generalizing s effect with
  | nil =>
    cases h
    rfl
  | cons call calls ih =>
    obtain ⟨⟨entries, first⟩, hfirst, hrest⟩ := bind_eq_ok_iff.mp h
    obtain ⟨later, hlater, heq⟩ := bind_eq_ok_iff.mp hrest
    cases heq
    obtain ⟨-, -, rfl⟩ := run_body_iff.mp hfirst
    rw [ih hlater, afterCalls_cons s call calls]
    cases call <;> rfl

/-- The digests that accepted calls have pinned, in order. -/
def OnChain.pins {σ U : Type} (chain : OnChain σ U BoardCall) : List Bytes :=
  chain.accepted.filterMap fun proven => proven.call.pinned

/-- A constructed board. -/
lemma boardConstructor_eq_ok_iff {authority : FixedBytes 32} :
    boardConstructor authority = .ok start ↔
      authority.val ≠ List.replicate 32 0 ∧ start = ⟨authority.val, 0, zeroDigest⟩ := by
  unfold boardConstructor initializeEmitterAuthority
  by_cases hzero : authority.val = List.replicate 32 0
  · rw [if_pos hzero]
    constructor
    · intro h
      cases h
    · intro h
      exact absurd hzero h.1
  · rw [if_neg hzero]
    constructor
    · intro h
      cases h
      exact ⟨hzero, rfl⟩
    · intro h
      rw [h.2]
      rfl

/-- What a run adds to the board: it counts the pins and shows the last one, and the parts emit
their events. -/
lemma effect_of_runs (h : noticeBoard.Runs sha256 ⟨start, [], []⟩ chain) :
    chain.state = ⟨start.emitterAuthority, start.pinnedCount + chain.pins.length,
        chain.pins.getLast?.getD start.pinnedDigest⟩ ∧
      chain.events = chain.accepted.filterMap fun proven => proven.call.emitted := by
  have heffect := effect_of_runBodies (Adopter.follows_reaches h).effect
  rw [Effect.mk.injEq] at heffect
  obtain ⟨hstate, hevents⟩ := heffect
  constructor
  · rw [hstate, BoardState.afterCalls, List.filterMap_map]
    rfl
  · rw [hevents, List.filterMap_map]
    rfl

/-- **What the board is, from its accepted calls alone.**  In every run of a constructed board the
authority is the constructor's, every accepted call was proven with a secret of that authority, the
counter is the number of pins, the digest is that of the last one, and the events are the parts in
the order in which their calls were accepted. -/
theorem noticeBoard_reaches {authority : FixedBytes 32}
    (hstart : boardConstructor authority = .ok start)
    (h : noticeBoard.Runs sha256 ⟨start, [], []⟩ chain) :
    chain.state = ⟨authority.val, chain.pins.length, chain.pins.getLast?.getD zeroDigest⟩ ∧
      chain.events = chain.accepted.filterMap (fun proven => proven.call.emitted) ∧
      ∀ proven ∈ chain.accepted, circuitAuthorityOf sha256 proven.secret = authority.val := by
  obtain ⟨-, rfl⟩ := boardConstructor_eq_ok_iff.mp hstart
  obtain ⟨hstate, hevents⟩ := effect_of_runs h
  rw [Nat.zero_add] at hstate
  exact ⟨hstate, hevents, (Adopter.follows_reaches h).authorized⟩

/-- A call that was executed on a state of the board is accepted on another one with the same
authority, and does there what it would do if it were executed afresh. -/
lemma stale_call_accepted {proven : ProvenCall BoardUpdate BoardCall}
    (hexecuted : (noticeBoard.circuit sha256 proven.secret proven.call).run noticeBoard.store s =
      .ok (proven.transcript, effect))
    (hsame : chain.state.emitterAuthority = s.emitterAuthority)
    (hroom : proven.call.pinned ≠ none → chain.state.pinnedCount + 1 < 2 ^ 64) :
    noticeBoard.Proves sha256 chain proven ∧
      noticeBoard.accept chain proven =
        some ⟨chain.state.afterCalls [proven.call], chain.accepted ++ [proven],
          chain.events ++ proven.call.emitted.toList⟩ := by
  obtain ⟨hauthority, rest, htranscript, hbody⟩ := Adopter.run_circuit_iff.mp hexecuted
  obtain ⟨-, hrest, -⟩ := run_body_iff.mp hbody
  have hfresh : (noticeBoard.body proven.call).run noticeBoard.store chain.state =
      .ok (rest, ⟨chain.state.afterCalls [proven.call], proven.call.emitted.toList⟩) :=
    run_body_iff.mpr ⟨hroom, hrest, rfl⟩
  exact Adopter.accepted_iff.mpr ⟨hsame.trans hauthority, rest, _, htranscript, hfresh, rfl⟩

/-- **Stale executions take effect.**  Calls that were executed on one state of the board, whichever
it was, are accepted on any other, one after the other, and each does there what it would do if it
were executed afresh: parts only add their events, in order, and pins count on from there.  The pins
among them must leave the counter below its bound. -/
theorem stale_calls_accepted (hbefore : noticeBoard.Runs sha256 ⟨start, [], []⟩ before)
    (hchain : noticeBoard.Runs sha256 ⟨start, [], []⟩ chain)
    (executed : List (ProvenCall BoardUpdate BoardCall))
    (hexecuted : ∀ proven ∈ executed, ∃ effect,
      (noticeBoard.circuit sha256 proven.secret proven.call).run noticeBoard.store before.state =
        .ok (proven.transcript, effect))
    (hroom : chain.state.pinnedCount +
      (executed.filterMap fun proven => proven.call.pinned).length < 2 ^ 64) :
    ∃ chain', executed.foldlM noticeBoard.accept chain = some chain' ∧
      noticeBoard.Runs sha256 chain chain' ∧
      chain'.state = chain.state.afterCalls (executed.map ProvenCall.call) ∧
      chain'.events = chain.events ++ executed.filterMap fun proven => proven.call.emitted := by
  -- both states have the authority of the start
  have hsame : chain.state.emitterAuthority = before.state.emitterAuthority :=
    (Adopter.follows_reaches hchain).authority.trans
      (Adopter.follows_reaches hbefore).authority.symm
  clear hchain
  induction executed generalizing chain with
  | nil => exact ⟨chain, rfl, .start, rfl, (List.append_nil _).symm⟩
  | cons proven executed ih =>
    -- a pin uses up one of the room, a part none
    have hpins : (([proven].map ProvenCall.call).filterMap BoardCall.pinned).length +
        (executed.filterMap fun proven => proven.call.pinned).length =
        ((proven :: executed).filterMap fun proven => proven.call.pinned).length := by
      cases hpinned : proven.call.pinned <;> simp [hpinned, Nat.add_comm]
    rw [← hpins] at hroom
    obtain ⟨effect, hrun⟩ := hexecuted proven List.mem_cons_self
    have hfits : proven.call.pinned ≠ none → chain.state.pinnedCount + 1 < 2 ^ 64 := by
      intro hpin
      obtain ⟨digest, hdigest⟩ := Option.ne_none_iff_exists'.mp hpin
      have hone : (([proven].map ProvenCall.call).filterMap BoardCall.pinned).length = 1 := by
        simp [hdigest]
      omega
    obtain ⟨hproves, haccept⟩ := stale_call_accepted hrun hsame hfits
    generalize hnext : (⟨chain.state.afterCalls [proven.call], chain.accepted ++ [proven],
      chain.events ++ proven.call.emitted.toList⟩ : OnChain _ _ _) = next at haccept
    have hstate : next.state = chain.state.afterCalls [proven.call] := by rw [← hnext]
    have hevents : next.events = chain.events ++ proven.call.emitted.toList := by rw [← hnext]
    have hcount : next.state.pinnedCount = chain.state.pinnedCount +
        (([proven].map ProvenCall.call).filterMap BoardCall.pinned).length := by
      rw [hstate]
      rfl
    have hleft : next.state.pinnedCount +
        (executed.filterMap fun proven => proven.call.pinned).length < 2 ^ 64 := by omega
    obtain ⟨chain', hfold, hruns, hlater, hmore⟩ := ih
      (fun other hother => hexecuted other (List.mem_cons_of_mem _ hother)) hleft
      (by rw [hstate]; exact hsame)
    refine ⟨chain', ?_, (Reaches.step .start hproves haccept).trans hruns, ?_, ?_⟩
    · rw [List.foldlM_cons, haccept]
      exact hfold
    · rw [hlater, hstate, List.map_cons, ← afterCalls_cons]
    · rw [hmore, hevents, List.append_assoc]
      cases hemitted : proven.call.emitted <;> simp [hemitted]

end Board

/-! ### A board with the zero secret -/

/-- A secret of zero bytes. -/
def zeroSecret : FixedBytes 32 := ⟨List.replicate 32 0, rfl⟩

/-- The SHA-256 hash of what the authority of the zero secret is computed from. -/
def zeroSecretHash (_ : Bytes) : Bytes :=
  hexPairs (js "38c7369b9ff6d04f2c05005fd3935b983e21c94c009b7e605945beda3f501ba3")

/-- The authority of the zero secret. -/
def zeroSecretAuthority : FixedBytes 32 := ⟨zeroSecretHash [], by decide +kernel⟩

/-- A board that is constructed for the zero secret. -/
def zeroSecretBoard : BoardState := ⟨zeroSecretAuthority.val, 0, zeroDigest⟩

/-- A digest to pin. -/
def sampleDigest : FixedBytes 32 := ⟨List.replicate 32 5, rfl⟩

/-- A part to emit. -/
def samplePart : FixedBytes 256 := ⟨List.replicate 256 6, List.length_replicate⟩

/-- A call with the transcript of its execution for the zero secret. -/
def zeroSecretCall (call : BoardCall) : ProvenCall BoardUpdate BoardCall where
  call := call
  secret := zeroSecret
  transcript := .asked .emitterAuthority zeroSecretAuthority.val ::
    match call with
    | .emitPart payload => [.emitted ⟨pad32 noticeEvent, payload.val⟩]
    | .pin digest => [.updated (.pinnedDigest digest.val), .updated (.increment 1)]

/-- The call is executed on the constructed board. -/
lemma run_zeroSecretCall (call : BoardCall) :
    (noticeBoard.circuit zeroSecretHash (zeroSecretCall call).secret (zeroSecretCall call).call).run
        noticeBoard.store zeroSecretBoard =
      .ok ((zeroSecretCall call).transcript,
        ⟨zeroSecretBoard.afterCalls [call], call.emitted.toList⟩) := by
  rw [Adopter.run_circuit_iff]
  refine ⟨rfl, _, rfl, run_body_iff.mpr ⟨fun _ => ?_, rfl, rfl⟩⟩
  change 0 + 1 < 2 ^ 64
  omega

/-- The constructed board after a pin. -/
def pinnedBoard : OnChain BoardState BoardUpdate BoardCall where
  state := zeroSecretBoard.afterCalls [.pin sampleDigest]
  accepted := [zeroSecretCall (.pin sampleDigest)]
  events := []

/-- The pin was executed on the constructed board. -/
lemma runs_pinnedBoard :
    noticeBoard.Runs zeroSecretHash ⟨zeroSecretBoard, [], []⟩ pinnedBoard := by
  have hroom : zeroSecretBoard.pinnedCount + 1 < 2 ^ 64 := by
    change 0 + 1 < 2 ^ 64
    omega
  have hstep : noticeBoard.Proves zeroSecretHash ⟨zeroSecretBoard, [], []⟩
        (zeroSecretCall (.pin sampleDigest)) ∧
      noticeBoard.accept ⟨zeroSecretBoard, [], []⟩ (zeroSecretCall (.pin sampleDigest)) =
        some pinnedBoard :=
    stale_call_accepted (run_zeroSecretCall (.pin sampleDigest)) rfl fun _ => hroom
  exact Reaches.step .start hstep.1 hstep.2

/-- The board counts the pin and shows its digest. -/
theorem noticeBoard_reaches_pin :
    ∃ chain, noticeBoard.Runs zeroSecretHash ⟨zeroSecretBoard, [], []⟩ chain ∧
      chain.state = ⟨zeroSecretAuthority.val, 1, sampleDigest.val⟩ ∧
      ∀ proven ∈ chain.accepted,
        circuitAuthorityOf zeroSecretHash proven.secret = zeroSecretAuthority.val := by
  have hstart : boardConstructor zeroSecretAuthority = .ok zeroSecretBoard :=
    boardConstructor_eq_ok_iff.mpr ⟨by decide +kernel, rfl⟩
  obtain ⟨hstate, -, hauthorized⟩ := noticeBoard_reaches hstart runs_pinnedBoard
  exact ⟨_, runs_pinnedBoard, hstate, hauthorized⟩

/-- A part and another pin, executed before the pin, are accepted after it. -/
theorem stale_calls_accepted_after_pin :
    ∃ chain, noticeBoard.Runs zeroSecretHash pinnedBoard chain ∧
      chain.state.pinnedCount = 2 ∧ chain.events = [⟨pad32 noticeEvent, samplePart.val⟩] := by
  obtain ⟨chain, -, hruns, hstate, hevents⟩ := stale_calls_accepted .start runs_pinnedBoard
    [zeroSecretCall (.emitPart samplePart), zeroSecretCall (.pin sampleDigest)]
    (by
      intro proven hproven
      rcases List.mem_cons.mp hproven with rfl | hproven
      · exact ⟨_, run_zeroSecretCall (.emitPart samplePart)⟩
      · rw [List.mem_singleton.mp hproven]
        exact ⟨_, run_zeroSecretCall (.pin sampleDigest)⟩)
    (show 1 + 1 < 2 ^ 64 by omega)
  refine ⟨chain, hruns, ?_, hevents⟩
  rw [hstate]
  rfl

end MultiPartEvent
