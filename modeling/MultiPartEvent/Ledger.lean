import MultiPartEvent.Errors
import MultiPartEvent.Js.InsertionMap

/-!
# What the ledger module shows of a transaction

The program reads transactions through the ledger's JavaScript module, which is not part of
the repository.  A transaction is the record of what the program reads from it: its intents by
segment, its fallible offers by segment, its hash, its identifiers and its bytes.  What the
program only tests for presence or compares as a whole is kept as `Opaque` data.

`LedgerModule` collects the functions of the module that turn bytes into ledger objects; every
result about them holds for whatever they return.
-/

namespace MultiPartEvent

/-- Ledger data the program never looks into, by its printed form. -/
abbrev Opaque := JsString

/-- The alignment of one atom. -/
inductive AlignmentAtom where
  | compress
  | field
  | bytes (length : ℕ)
  deriving DecidableEq

/-- One segment of an alignment. -/
inductive AlignmentSegment where
  | atom (value : AlignmentAtom)
  | option (value : Opaque)
  deriving DecidableEq

/-- An encoded state value: a cell with its alignment and atoms, an array, or another tag. -/
inductive EncodedStateValue where
  | cell (alignment : List AlignmentSegment) (atoms : List Bytes)
  | array (content : List EncodedStateValue)
  | other (tag : JsString) (content : Opaque)

mutual

/-- Equality of encoded state values is decidable. -/
def EncodedStateValue.decideEq : (v w : EncodedStateValue) → Decidable (v = w)
  | .cell alignment atoms, .cell alignment' atoms' =>
    decidable_of_iff (alignment = alignment' ∧ atoms = atoms') (by simp)
  | .array content, .array content' =>
    match decideEqContents content content' with
    | .isTrue h => .isTrue (congrArg _ h)
    | .isFalse h => .isFalse (by simpa using h)
  | .other tag content, .other tag' content' =>
    decidable_of_iff (tag = tag' ∧ content = content') (by simp)
  | .cell _ _, .array _ | .cell _ _, .other _ _ | .array _, .cell _ _ | .array _, .other _ _
  | .other _ _, .cell _ _ | .other _ _, .array _ => .isFalse (by simp)

/-- Equality of lists of encoded state values is decidable. -/
def decideEqContents : (vs ws : List EncodedStateValue) → Decidable (vs = ws)
  | [], [] => .isTrue rfl
  | [], _ :: _ | _ :: _, [] => .isFalse (by simp)
  | v :: vs, w :: ws =>
    match v.decideEq w, decideEqContents vs ws with
    | .isTrue h, .isTrue h' => .isTrue (by rw [h, h'])
    | .isFalse h, _ => .isFalse (by simp [h])
    | _, .isFalse h => .isFalse (by simp [h])

end

instance : DecidableEq EncodedStateValue := EncodedStateValue.decideEq

/-- The `tag` of an encoded state value. -/
def EncodedStateValue.tag : EncodedStateValue → JsString
  | .cell _ _ => js "cell"
  | .array _ => js "array"
  | .other tag _ => tag

/-- One operation of a transcript program: a bare name such as `"log"`, a push, or another
operation with operands. -/
inductive Op where
  | named (name : JsString)
  | push (storage : Bool) (value : EncodedStateValue)
  | other (content : Opaque)
  deriving DecidableEq

/-- A transcript: its program, and its gas and effects. -/
structure Transcript where
  program : List Op
  gas : Opaque
  effects : Opaque
  deriving DecidableEq

/-- An entry point as the ledger reports it. -/
inductive EntryPoint where
  | text (name : JsString)
  | bytes (name : Bytes)
  deriving DecidableEq

/-- A call of a contract. -/
structure ContractCall where
  address : JsString
  entryPoint : EntryPoint
  guaranteedTranscript : Option Transcript
  fallibleTranscript : Option Transcript
  deriving DecidableEq

/-- An action of an intent: a contract call, or a deployment or maintenance update. -/
inductive ContractAction where
  | call (call : ContractCall)
  | other (content : Opaque)
  deriving DecidableEq

/-- The contract call of an action, when it is one. -/
def ContractAction.call? : ContractAction → Option ContractCall
  | .call c => some c
  | .other _ => none

/-- An intent of a transaction. -/
structure Intent where
  actions : List ContractAction
  guaranteedUnshieldedOffer : Option Opaque
  fallibleUnshieldedOffer : Option Opaque
  dustActions : Option Opaque
  /-- `intentHash(segment)`. -/
  intentHash : ℕ → JsString

/-- A transaction at any signature, proof and binding stage.  The module leaves `intents` and
`fallibleOffer` undefined where there are none, which the program reads as the empty map. -/
structure Transaction where
  intents : InsertionMap ℕ Intent
  fallibleOffer : InsertionMap ℕ Opaque
  /-- `transactionHash()`, which throws unless the transaction is proven, signed and bound. -/
  ownHash : Option JsString
  identifiers : List JsString
  /-- `serialize()`. -/
  serialize : Bytes

/-- `tx.intents?.get(segment)` for any number. -/
def Transaction.intentAt (tx : Transaction) : JsNumber → Option Intent
  | .int (.ofNat segment) => tx.intents.get? segment
  | _ => none

/-- The details of a ledger event. -/
inductive EventDetails where
  | contractLog (address : JsString) (eventType : JsString) (data : EncodedStateValue)
  | other (tag : JsString)
  deriving DecidableEq

/-- A ledger event: its details, and the transaction and intent it comes from. -/
structure LedgerEvent where
  content : EventDetails
  transactionHash : JsString
  physicalSegment : ℕ
  deriving DecidableEq

/-- The signature, proof and binding markers of a serialized transaction. -/
structure Markers where
  signature : JsString
  proof : JsString
  binding : JsString
  deriving DecidableEq

/-- The stored operation of an entry point. -/
structure ContractOperation where
  verifierKey : Option Bytes

/-- A contract state, as far as the program reads it. -/
structure ContractState where
  operation : JsString → Option ContractOperation

/-- The functions of the ledger module that read bytes. -/
structure LedgerModule where
  /-- `Transaction.deserialize(signature, proof, binding, raw)`. -/
  deserialize : Markers → Bytes → Except JsError Transaction
  /-- `Event.deserialize(raw)`. -/
  deserializeEvent : Bytes → Except JsError LedgerEvent
  /-- `ContractState.deserialize(bytes)`. -/
  deserializeState : Bytes → Except JsError ContractState

end MultiPartEvent
