import MultiPartEvent.Js.InsertionMap
import MultiPartEvent.Js.Json
import MultiPartEvent.Reader.Event

/-!
# The reader of the multi-part rule

`readPackages` turns part events into packages.  It takes the `Misc` events of the opted-in
(contract, N) pairs, groups them by network, contract, N, transaction hash and physical
segment, orders each group by position, tolerates identical redeliveries, and concatenates
the 256-byte payloads.

The loop over the events is `readEvent`, the loop over the deliveries of one group is
`evaluateDelivery`; both thread their state explicitly.  `checkEvent` returns the segment and
the position it accepts as natural numbers.
-/

namespace MultiPartEvent

/-- A (contract, N) pair whose protocol declared that N follows the multi-part rule. -/
structure OptIn where
  /-- Contract address: 64 lowercase hex characters. -/
  contract : JsString
  /-- The event name N. -/
  name : NameInput

/-- One `Misc` event as a source delivers it. -/
structure PartEvent where
  network : JsString
  contract : JsString
  transactionHash : JsString
  /-- Physical segment: the intent of the call that emitted the event. -/
  segment : JsNumber
  /-- Position in ledger emission order. -/
  position : JsNumber
  /-- The logged value as stored. -/
  value : Bytes
  deriving DecidableEq

/-- Input bounds for one reader call. -/
structure ReaderLimits where
  maxEvents : JsNumber
  maxPackages : JsNumber

/-- `DEFAULT_READER_LIMITS`. -/
def defaultReaderLimits : ReaderLimits := ⟨.int 4096, .int 1024⟩

/-- Options of `readPackages`. -/
structure ReadOptions where
  optIns : List OptIn
  /-- Only read events of this network. -/
  network : Option JsString
  limits : Option ReaderLimits

/-- Whether a package was accepted. -/
inductive PackageStatus where
  | accepted
  | rejected
  deriving DecidableEq

/-- One package: every event named N one contract emitted from one intent. -/
structure Package where
  network : JsString
  contract : JsString
  /-- N as 32 bytes. -/
  name : Bytes
  /-- N in readable form. -/
  nameText : JsString
  transactionHash : JsString
  /-- Physical segment of the intent. -/
  segment : ℕ
  status : PackageStatus
  /-- Positions of the parts, ascending. -/
  positions : List ℕ
  /-- Width-restored payloads, in position order. -/
  parts : List Bytes
  /-- Concatenation of the parts; accepted packages only. -/
  payload : Option Bytes
  /-- Deliveries seen, redeliveries included. -/
  deliveries : ℕ
  /-- Why the package was rejected. -/
  issues : List JsString
  deriving DecidableEq

/-- Output of `readPackages`. -/
structure ReadOutput where
  packages : List Package
  /-- Events of other contracts, names or networks. -/
  ignored : ℕ
  deriving DecidableEq

/-- `/^[0-9a-f]{64}$/`: a contract address. -/
def isAddress (text : JsString) : Bool :=
  text.length == 64 && text.all (fun u => hexDigits.contains u)

/-- One limit: a positive safe integer. -/
def checkLimit (key : JsString) (value : JsNumber) : Except JsError ℕ :=
  match value.inRange 1 maxSafeInteger with
  | some n => .ok n
  | none => .error (.rangeError (key ++ js " must be a positive safe integer"))

/-- `validateReaderLimits`, returning the accepted limits. -/
def validateReaderLimits (limits : ReaderLimits) : Except JsError (ℕ × ℕ) := do
  let maxEvents ← checkLimit (js "maxEvents") limits.maxEvents
  let maxPackages ← checkLimit (js "maxPackages") limits.maxPackages
  return (maxEvents, maxPackages)

/-- What identifies a package. -/
structure Scope where
  network : JsString
  contract : JsString
  name : Bytes
  transactionHash : JsString
  segment : ℕ
  deriving DecidableEq

/-- One delivered event of a group: its position and restored value, or why it is malformed. -/
structure Delivery where
  position : ℕ
  value : Except JsString Bytes

/-- The deliveries of one package. -/
structure Group where
  scope : Scope
  deliveries : List Delivery

/-- The key of a group in the map of groups. -/
def groupKey (scope : Scope) : JsString :=
  (Json.array [.string scope.network, .string scope.contract, .string (bytesToHex scope.name),
    .string scope.transactionHash, .number (.int scope.segment)]).stringify

/-- Check an event's source fields; the accepted segment and position. -/
def checkEvent (event : PartEvent) (index : ℕ) : Except JsError (ℕ × ℕ) :=
  let at_ := js "event " ++ decimal index
  if event.network.length = 0 ∨ event.transactionHash.length = 0 then
    .error (.rangeError (at_ ++ js ": empty network or transaction hash"))
  else
    match event.segment.inRange 1 65535 with
    | none => .error (.rangeError (at_ ++ js ": segment " ++ event.segment.text ++
        js " is not in 1..65535"))
    | some segment =>
      match event.position.inRange 0 maxSafeInteger with
      | none => .error (.rangeError (at_ ++ js ": position must be a non-negative safe integer"))
      | some position => .ok (segment, position)

/-! ### One group -/

/-- The state of the loop over the deliveries of a group. -/
structure Evaluation where
  /-- The issues found, each once. -/
  issues : InsertionMap JsString Unit
  /-- The first value seen at each position. -/
  byPosition : InsertionMap ℕ Bytes

/-- One delivery of a group. -/
def evaluateDelivery (state : Evaluation) (delivery : Delivery) : Evaluation :=
  let at_ := js "position " ++ decimal delivery.position
  match delivery.value with
  | .error malformed =>
    { state with issues := state.issues.set (at_ ++ js ": " ++ malformed) () }
  | .ok value =>
    match state.byPosition.get? delivery.position with
    | none => { state with byPosition := state.byPosition.set delivery.position value }
    | some seen =>
      if bytesEqual seen value then state
      else { state with issues := state.issues.set (at_ ++ js " was delivered with two contents") ()
        }

/-- The order of positions and segments. -/
def compareNumbers (left right : ℕ) : Ordering :=
  if left < right then .lt else if right < left then .gt else .eq

/-- The package of one group. -/
def evaluate (group : Group) : Package :=
  let state := group.deliveries.foldl evaluateDelivery ⟨.empty, .empty⟩
  let positions := sortBy compareNumbers state.byPosition.keys
  let parts := positions.map fun position =>
    ((state.byPosition.get? position).getD (List.replicate eventLength 0)).drop nameLength
  let rejected := state.issues.size > 0
  { network := group.scope.network
    contract := group.scope.contract
    name := group.scope.name
    nameText := eventNameText group.scope.name
    transactionHash := group.scope.transactionHash
    segment := group.scope.segment
    status := if rejected then .rejected else .accepted
    positions := positions
    parts := parts
    payload := if rejected then none else some parts.flatten
    deliveries := group.deliveries.length
    issues := if rejected then sortBy compareCodeUnits state.issues.keys else [] }

/-! ### All events -/

/-- One opt-in: its name is added to those of its contract. -/
def addOptIn (names : InsertionMap JsString (List Bytes)) (optIn : OptIn) :
    Except JsError (InsertionMap JsString (List Bytes)) := do
  throwIf (isAddress optIn.contract = false)
    (.rangeError (js "opt-in contract '" ++ optIn.contract ++ js "' is not 64 lowercase hex"))
  let name ← eventName optIn.name
  return names.upsert optIn.contract (fun list => list.getD [] ++ [name])

/-- The opted-in names of each contract. -/
def optInNames (optIns : List OptIn) : Except JsError (InsertionMap JsString (List Bytes)) :=
  optIns.foldlM addOptIn .empty

/-- The opted-in name of an event, or `none` for an event left untouched.  The first 32 bytes
decide the name, even for an over-long value. -/
def optedInName (names : InsertionMap JsString (List Bytes)) (network : Option JsString)
    (event : PartEvent) : Option Bytes :=
  match names.get? event.contract with
  | none => none
  | some candidates =>
    if network.any (fun n => event.network ≠ n) then none
    else
      let head := zeroExtend nameLength (event.value.take nameLength)
      candidates.find? (fun candidate => bytesEqual candidate head)

/-- The delivery of an event. -/
def deliveryOf (event : PartEvent) (position : ℕ) : Delivery where
  position := position
  value := match restoreEventValue event.value with
    | .ok value => .ok value
    | .error error => .error error.message

/-- The state of the loop over the events. -/
structure ReaderState where
  groups : InsertionMap JsString Group
  ignored : ℕ

/-- The group of a scope: the one in the map, or a new one below the bound. -/
def openGroup (groups : InsertionMap JsString Group) (maxPackages : ℕ) (scope : Scope) :
    Except JsError Group :=
  match groups.get? (groupKey scope) with
  | some group => .ok group
  | none =>
    if groups.size ≥ maxPackages then
      .error (.rangeError (js "package count exceeds maxPackages " ++ decimal maxPackages))
    else .ok ⟨scope, []⟩

/-- One event. -/
def readEvent (names : InsertionMap JsString (List Bytes)) (network : Option JsString)
    (maxPackages : ℕ) (state : ReaderState) (item : PartEvent × ℕ) :
    Except JsError ReaderState := do
  let (event, index) := item
  let (segment, position) ← checkEvent event index
  match optedInName names network event with
  | none => return { state with ignored := state.ignored + 1 }
  | some name =>
    let scope : Scope := ⟨event.network, event.contract, name, event.transactionHash, segment⟩
    let group ← openGroup state.groups maxPackages scope
    let deliveries := group.deliveries ++ [deliveryOf event position]
    return { state with groups := state.groups.set (groupKey scope) { group with deliveries } }

/-- The order of packages: network, contract, name, transaction hash, then segment. -/
def compareScopes (left right : Scope) : Ordering :=
  (compareCodeUnits left.network right.network).then <|
    (compareCodeUnits left.contract right.contract).then <|
      (compareCodeUnits (bytesToHex left.name) (bytesToHex right.name)).then <|
        (compareCodeUnits left.transactionHash right.transactionHash).then <|
          compareNumbers left.segment right.segment

/-- Read packages from events. -/
def readPackages (events : List PartEvent) (options : ReadOptions) :
    Except JsError ReadOutput := do
  let (maxEvents, maxPackages) ← validateReaderLimits (options.limits.getD defaultReaderLimits)
  throwIf (options.optIns.length = 0)
    (.rangeError (js "configure at least one (contract, N)"))
  let names ← optInNames options.optIns
  throwIf (events.length > maxEvents)
    (.rangeError (js "event count " ++ decimal events.length ++ js " exceeds maxEvents " ++
      decimal maxEvents))
  let state ← events.zipIdx.foldlM (readEvent names options.network maxPackages) ⟨.empty, 0⟩
  let groups := sortBy (fun left right => compareScopes left.scope right.scope)
    state.groups.values
  return ⟨groups.map evaluate, state.ignored⟩

end MultiPartEvent
