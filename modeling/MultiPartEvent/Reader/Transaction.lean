import MultiPartEvent.Ledger
import MultiPartEvent.Reader.Packages

/-!
# Packages from ledger data

Ledger events, and raw transactions with the placement check that verification Level 2 applies.

The loops of the source that push onto an array are concatenations here: `contractActivity`
is the concatenation of the activities of the intents, an intent's parts are those of its
guaranteed transcripts followed by those of its fallible ones.
-/

namespace MultiPartEvent

/-- Type code of a `Misc` event in a logged item `[version, type, data]`. -/
def miscEventTypeCode : ℕ := 10

/-- An entry point as text. -/
def entryPointText : EntryPoint → JsString
  | .text name => name
  | .bytes name => textDecode name

/-! ### Transcripts -/

/-- The atom of a cell with a single `bytes` alignment, of the given width if one is given. -/
def cellAtom (value : EncodedStateValue) (width : Option ℕ) : Except JsError Bytes :=
  match value with
  | .cell [.atom (.bytes length)] atoms =>
    if width.any (· ≠ length) then .error (.rangeError (js "unexpected cell alignment"))
    else
      match atoms with
      | [atom] =>
        if atom.length > length then .error (.rangeError (js "cell atom exceeds its width"))
        else .ok atom
      | _ => .error (.rangeError (js "cell holds " ++ decimal atoms.length ++ js " atoms"))
  | .cell _ _ => .error (.rangeError (js "unexpected cell alignment"))
  | _ => .error (.rangeError (js "expected a cell, found '" ++ value.tag ++ js "'"))

/-- The number of a little-endian byte string.  The source computes it in floating point, which
is exact below 2^53 and never rounds a larger number to one the program compares it with. -/
def littleEndianNumber : Bytes → ℕ
  | [] => 0
  | byte :: rest => littleEndianNumber rest * 256 + byte.val

/-- Decode a logged `Misc` value into its full 288 bytes. -/
def decodeMiscValue (data : EncodedStateValue) : Except JsError Bytes := do
  let atom ← cellAtom data (some eventLength)
  return zeroExtend eventLength atom

/-- One event a transcript program logs. -/
structure LoggedEvent where
  typeCode : ℕ
  data : EncodedStateValue
  deriving DecidableEq

/-- The event a `log` operation logs, from the operation before it. -/
def loggedItem : Option Op → Except JsError LoggedEvent
  | some (.push storage value) =>
    if storage then .error (.rangeError (js "log operand is a storage value"))
    else
      match value with
      | .array [_, type, data] => do
        let atom ← cellAtom type none
        return ⟨littleEndianNumber atom, data⟩
      | _ => .error (.rangeError (js "logged item is not [version, type, data]"))
  | _ => .error (.rangeError (js "log operand is not a pushed value"))

/-- The events logged by the rest of a program, after the given operation. -/
def loggedEventsAfter (previous : Option Op) : List Op → Except JsError (List LoggedEvent)
  | [] => .ok []
  | op :: rest =>
    if op = .named (js "log") then do
      let event ← loggedItem previous
      let events ← loggedEventsAfter (some op) rest
      return event :: events
    else loggedEventsAfter (some op) rest

/-- Every event a transcript program logs, in order. -/
def loggedEvents (program : List Op) : Except JsError (List LoggedEvent) :=
  loggedEventsAfter none program

/-! ### The activity of a contract -/

/-- Which transcript of a call logs a value. -/
inductive TranscriptKind where
  | guaranteed
  | fallible
  deriving DecidableEq

/-- The kind as the reports name it. -/
def TranscriptKind.text : TranscriptKind → JsString
  | .guaranteed => js "guaranteed"
  | .fallible => js "fallible"

/-- A `Misc` value one call logs. -/
structure LoggedPart where
  segment : ℕ
  actionIndex : ℕ
  entryPoint : JsString
  transcript : TranscriptKind
  /-- Width-restored value: 32-byte name then 256-byte payload. -/
  value : Bytes
  deriving DecidableEq

/-- One call to the contract. -/
structure ContractCallSummary where
  segment : ℕ
  actionIndex : ℕ
  entryPoint : JsString
  guaranteed : Bool
  fallible : Bool
  deriving DecidableEq

/-- Every call to one contract in a transaction, and every `Misc` value they log. -/
structure ContractActivity where
  calls : List ContractCallSummary
  /-- Per intent in ledger emission order. -/
  parts : List LoggedPart
  /-- Transcripts that could not be read. -/
  issues : List JsString

/-- Intents in ascending segment order. -/
def orderedIntents (tx : Transaction) : List (ℕ × Intent) :=
  sortBy (fun left right => compareNumbers left.1 right.1) tx.intents.entries

/-- The `Misc` values of a list of logged events, up to the first one that does not decode, and
why it does not. -/
def miscValues : List LoggedEvent → List Bytes × Option JsError
  | [] => ([], none)
  | event :: rest =>
    if event.typeCode ≠ miscEventTypeCode then miscValues rest
    else
      match decodeMiscValue event.data with
      | .error err => ([], some err)
      | .ok value => (value :: (miscValues rest).1, (miscValues rest).2)

/-- The `Misc` values read from a transcript, if there is one, and why the reading stopped. -/
def transcriptValues : Option Transcript → List Bytes × Option JsError
  | none => ([], none)
  | some transcript =>
    match loggedEvents transcript.program with
    | .error err => ([], some err)
    | .ok events => miscValues events

/-- A call to the contract at its place in a transaction. -/
structure PlacedCall where
  segment : ℕ
  actionIndex : ℕ
  call : ContractCall

/-- The entry point of a placed call, as text. -/
def PlacedCall.entryPoint (placed : PlacedCall) : JsString := entryPointText placed.call.entryPoint

/-- One transcript of a placed call. -/
def PlacedCall.transcript (placed : PlacedCall) : TranscriptKind → Option Transcript
  | .guaranteed => placed.call.guaranteedTranscript
  | .fallible => placed.call.fallibleTranscript

/-- The summary of a call. -/
def PlacedCall.summary (placed : PlacedCall) : ContractCallSummary where
  segment := placed.segment
  actionIndex := placed.actionIndex
  entryPoint := placed.entryPoint
  guaranteed := placed.call.guaranteedTranscript.isSome
  fallible := placed.call.fallibleTranscript.isSome

/-- The parts read from one transcript of a call. -/
def PlacedCall.parts (placed : PlacedCall) (kind : TranscriptKind) : List LoggedPart :=
  (transcriptValues (placed.transcript kind)).1.map fun value =>
    ⟨placed.segment, placed.actionIndex, placed.entryPoint, kind, value⟩

/-- What is reported when one transcript of a call cannot be read. -/
def PlacedCall.issues (placed : PlacedCall) (kind : TranscriptKind) : List JsString :=
  (transcriptValues (placed.transcript kind)).2.toList.map fun err =>
    js "segment " ++ decimal placed.segment ++ js " call " ++ decimal placed.actionIndex ++
      js " (" ++ placed.entryPoint ++ js ") " ++ kind.text ++ js " transcript: " ++ err.message

/-- The calls of one intent to the contract. -/
def callsTo (contract : JsString) (segment : ℕ) (intent : Intent) : List PlacedCall :=
  intent.actions.zipIdx.filterMap fun item =>
    item.1.call?.bind fun call =>
      if call.address ≠ contract then none else some ⟨segment, item.2, call⟩

/-- The parts logged in one intent: guaranteed transcripts first. -/
def intentParts (contract : JsString) (segment : ℕ) (intent : Intent) : List LoggedPart :=
  (callsTo contract segment intent).flatMap (fun call => call.parts .guaranteed) ++
    (callsTo contract segment intent).flatMap (fun call => call.parts .fallible)

/-- The unreadable transcripts of one intent, call by call. -/
def intentIssues (contract : JsString) (segment : ℕ) (intent : Intent) : List JsString :=
  (callsTo contract segment intent).flatMap fun call =>
    call.issues .guaranteed ++ call.issues .fallible

/-- Every call to `contract` in a transaction and every `Misc` value those calls log. -/
def contractActivity (tx : Transaction) (contract : JsString) : ContractActivity where
  calls := (orderedIntents tx).flatMap fun item =>
    (callsTo contract item.1 item.2).map PlacedCall.summary
  parts := (orderedIntents tx).flatMap fun item => intentParts contract item.1 item.2
  issues := (orderedIntents tx).flatMap fun item => intentIssues contract item.1 item.2

/-! ### Reader input -/

/-- Scope of reader input built from a raw transaction. -/
structure TransactionScope where
  network : JsString
  contract : JsString
  transactionHash : JsString

/-- Reader input with the problems found. -/
structure Extraction where
  events : List PartEvent
  issues : List JsString

/-- The parts as reader input: positions are counted for each segment. -/
def numberParts (scope : TransactionScope) (next : InsertionMap ℕ ℕ) :
    List LoggedPart → List PartEvent
  | [] => []
  | part :: rest =>
    let position := (next.get? part.segment).getD 0
    { network := scope.network
      contract := scope.contract
      transactionHash := scope.transactionHash
      segment := .int part.segment
      position := .int position
      value := part.value } ::
      numberParts scope (next.set part.segment (position + 1)) rest

/-- Reader input from a raw transaction. -/
def partEventsFromTransaction (tx : Transaction) (scope : TransactionScope) : Extraction where
  events := numberParts scope .empty (contractActivity tx scope.contract).parts
  issues := (contractActivity tx scope.contract).issues

/-- Options of `partEventsFromLedgerEvents`. -/
structure LedgerEventOptions where
  network : JsString
  /-- Only convert events of these contracts. -/
  contracts : Option (List JsString)
  /-- Position of an event in ledger emission order (default: its index in the list). -/
  positionOf : Option (LedgerEvent → ℕ → JsNumber)

/-- One ledger event at its index: its part event and the problem found, if any. -/
def partEventOf (options : LedgerEventOptions) (item : LedgerEvent × ℕ) :
    Option PartEvent × Option JsString :=
  let (event, index) := item
  match event.content with
  | .other _ => (none, none)
  | .contractLog address eventType data =>
    if options.contracts.any (fun contracts => address ∉ contracts) then (none, none)
    else if eventType ≠ js "misc" then (none, none)
    else
      let position : JsNumber :=
        match options.positionOf with
        | some positionOf => positionOf event index
        | none => .int index
      match decodeMiscValue data with
      | .error err =>
        (none, some (js "event at position " ++ position.text ++ js ": " ++ err.message))
      | .ok value =>
        (some ⟨options.network, address, event.transactionHash, .int event.physicalSegment,
          position, value⟩, none)

/-- Turn ledger `contractLog` events of type `misc` into reader input. -/
def partEventsFromLedgerEvents (events : List LedgerEvent) (options : LedgerEventOptions) :
    Extraction where
  events := events.zipIdx.filterMap fun item => (partEventOf options item).1
  issues := events.zipIdx.filterMap fun item => (partEventOf options item).2

/-! ### Placement -/

/-- What verification checks placement against. -/
structure PlacementTarget where
  contract : JsString
  /-- The emitting circuit. -/
  entryPoint : JsString
  /-- The event name N. -/
  name : NameInput

/-- What is reported for a call that is not guaranteed-only. -/
def callIssue (entryPoint : JsString) (call : ContractCallSummary) : Option JsString :=
  if call.fallible || !call.guaranteed then
    some (js "call " ++ decimal call.actionIndex ++ js " of " ++ entryPoint ++
      js " is not guaranteed-only (" ++
      (if call.fallible then js "fallible transcript" else js "no guaranteed transcript") ++ js ")")
  else none

/-- What is reported for parts that differ from the values the calls log. -/
def partIssues (entryPoint : JsString) (expected parts : List Bytes) : List JsString :=
  if expected.length ≠ parts.length then
    [js "the intent's " ++ entryPoint ++ js " calls log " ++ decimal expected.length ++
      js " parts; the package has " ++ decimal parts.length]
  else
    expected.zipIdx.filterMap fun item =>
      if parts[item.2]?.all (fun part => !bytesEqual item.1 part) then
        some (js "part " ++ decimal (item.2 + 1) ++ js " differs from what call " ++
          decimal (item.2 + 1) ++ js " logs")
      else none

/-- Check the placement of a package, given by its segment and parts, against the raw
transaction; the problems found. -/
def checkPlacement (tx : Transaction) (target : PlacementTarget) (segment : ℕ)
    (parts : List Bytes) : Except JsError (List JsString) := do
  let name ← eventName target.name
  if tx.intents.get? segment |>.isNone then
    return [js "no intent at segment " ++ decimal segment]
  else
    let activity := contractActivity tx target.contract
    let unread := activity.issues.filter
      (fun issue => (js "segment " ++ decimal segment ++ js " ").isPrefixOf issue)
    let calls := activity.calls.filter (fun call => call.segment == segment)
    let emitting := calls.filter (fun call => call.entryPoint == target.entryPoint)
    let named := activity.parts.filter
      (fun part => part.segment == segment && bytesEqual (part.value.take nameLength) name)
    let foreign := (named.filter (fun part => part.entryPoint ≠ target.entryPoint)).map fun part =>
      js "call " ++ decimal part.actionIndex ++ js " (" ++ part.entryPoint ++
        js ") also logs the name"
    let expected := (named.filter (fun part =>
      part.entryPoint == target.entryPoint && part.transcript == .guaranteed)).map
        fun part => part.value.drop nameLength
    return unread ++ emitting.filterMap (callIssue target.entryPoint) ++ foreign ++
      partIssues target.entryPoint expected parts

/-! ### Transactions -/

/-- The statuses accepted as inclusion. -/
def includedStatuses : List JsString := [js "SUCCESS", js "PARTIAL_SUCCESS"]

/-- The forms tried by `deserializeTransaction`, in order. -/
def deserializeMarkers : List Markers :=
  [⟨js "signature", js "proof", js "binding"⟩,
    ⟨js "signature", js "no-proof", js "no-binding"⟩,
    ⟨js "signature", js "proof", js "pre-binding"⟩,
    ⟨js "signature", js "pre-proof", js "pre-binding"⟩,
    ⟨js "signature", js "pre-proof", js "binding"⟩]

/-- Deserialize raw transaction bytes in the first form that matches. -/
def deserializeTransaction (ledger : LedgerModule) (raw : Bytes) : Except JsError Transaction :=
  match deserializeMarkers.findSome? (fun markers => (ledger.deserialize markers raw).toOption) with
  | some tx => .ok tx
  | none => .error (.error (js "bytes are not a ledger-v9 transaction"))

/-- The ledger transaction hash, or `none` for transactions that are not proven, signed and
bound. -/
def transactionHashOf (tx : Transaction) : Option JsString := tx.ownHash

/-- Options of `verifyTransactionPackages`. -/
structure VerifyTransactionOptions extends PlacementTarget where
  network : JsString
  /-- Inclusion status reported by the chain source. -/
  status : JsString
  /-- Transaction hash reported by the chain source. -/
  transactionHash : Option JsString
  limits : Option ReaderLimits

/-- A package read from the raw transaction, with its placement problems. -/
structure CheckedPackage where
  package : Package
  placement : List JsString

/-- Outcome of `verifyTransactionPackages`. -/
structure TransactionVerification where
  transactionHash : JsString
  status : JsString
  /-- Transaction-level problems. -/
  issues : List JsString
  read : ReadOutput
  packages : List CheckedPackage
  verified : List Package

/-- The hash that scopes the packages of a transaction: its own, else the reported one. -/
def scopeHash (tx : Transaction) (options : VerifyTransactionOptions) : JsString :=
  ((transactionHashOf tx).or options.transactionHash).getD []

/-- The transaction-level problems: no hash, another hash, no inclusion. -/
def transactionIssues (tx : Transaction) (options : VerifyTransactionOptions) : List JsString :=
  (if (scopeHash tx options).length = 0 then
      [js "no transaction hash: the bytes are not proven and bound, and none was reported"]
    else []) ++
    (if (transactionHashOf tx).any (fun own => options.transactionHash.any (fun h => h ≠ own)) then
      [js "reported transaction hash differs from the bytes' hash"]
    else []) ++
    (if options.status ∉ includedStatuses then
      [js "status " ++ options.status ++ js " is not an inclusion (SUCCESS or PARTIAL_SUCCESS)"]
    else [])

/-- Read every package of a (contract, N) from a decoded transaction and check each one's
placement, plus the inclusion status and hash. -/
def verifyTransactionPackages (tx : Transaction) (options : VerifyTransactionOptions) :
    Except JsError TransactionVerification := do
  let transactionHash := scopeHash tx options
  let issues := transactionIssues tx options
  let extracted := partEventsFromTransaction tx
    ⟨options.network, options.contract,
      if transactionHash.length = 0 then js "unknown" else transactionHash⟩
  let read ← readPackages extracted.events
    ⟨[⟨options.contract, options.name⟩], none, options.limits⟩
  let packages ← read.packages.mapM fun pkg => do
    return CheckedPackage.mk pkg
      (← checkPlacement tx options.toPlacementTarget pkg.segment pkg.parts)
  let verified :=
    if issues.length = 0 then
      (packages.filter (fun entry => entry.package.status == .accepted &&
        entry.placement.length == 0)).map CheckedPackage.package
    else []
  return ⟨transactionHash, options.status, issues, read, packages, verified⟩

end MultiPartEvent
