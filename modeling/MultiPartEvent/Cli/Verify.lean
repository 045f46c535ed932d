import MultiPartEvent.Reader.Transaction

/-!
# Wallet-free verification of packages

`verifyPackages` checks every package of one (contract, event name) against a source of public
data, in three levels: the package from the contract's events, its placement from the raw
transaction, and the verifier key the contract stores for the emitting circuit.  A report lists
the checks of each package; the exit status is read off the lowest level any package reached.

A source is a record of functions, so an answer depends on its arguments only.  The source code
asks for each transaction and each block's contract state once; asking again would give the same
transaction, while states are remembered by block hash alone, which `stateAt` follows.
-/

namespace MultiPartEvent

/-! ### Verifier keys -/

/-- What verification takes from outside the repository. -/
structure VerifyEnv where
  ledger : LedgerModule
  /-- The SHA-256 hash as hex. -/
  sha256Hex : Bytes → JsString

/-- The verifier key a serialized contract state stores for an entry point. -/
def deployedVerifierKey (ledger : LedgerModule) (stateBytes : Bytes) (entryPoint : JsString) :
    Except JsError (Option Bytes) := do
  let state ← ledger.deserializeState stateBytes
  match (state.operation entryPoint).bind ContractOperation.verifierKey with
  | none | some [] => return none
  | some key => return some key

/-- Outcome of `compareDeployedVerifierKey`. -/
structure VerifierKeyComparison where
  ok : Bool
  /-- SHA-256 of the deployed key, when there is one. -/
  deployedSha256 : Option JsString
  expectedSha256 : JsString

/-- Compare the deployed verifier key of an entry point with the expected key. -/
def compareDeployedVerifierKey (env : VerifyEnv) (stateBytes : Bytes) (entryPoint : JsString)
    (expected : Bytes) : Except JsError VerifierKeyComparison := do
  match ← deployedVerifierKey env.ledger stateBytes entryPoint with
  | none => return ⟨false, none, env.sha256Hex expected⟩
  | some deployed =>
    return ⟨bytesEqual deployed expected, some (env.sha256Hex deployed), env.sha256Hex expected⟩

/-! ### Sources, requests and reports -/

/-- What to verify: an opted-in (contract, N) and its emitting circuit. -/
structure VerifyTarget extends PlacementTarget where
  /-- Network the source belongs to. -/
  network : JsString

/-- A block reference. -/
structure BlockRef where
  hash : JsString
  height : ℤ
  deriving DecidableEq

/-- A transaction as a source reports it. -/
structure SourceTransaction where
  hash : JsString
  raw : Bytes
  /-- Inclusion status. -/
  status : JsString
  block : Option BlockRef

/-- A contract's events as reader input. -/
structure SourceEvents where
  events : List PartEvent
  /-- Events that could not be read, by transaction hash. -/
  issues : InsertionMap JsString (List JsString)
  /-- The block of each transaction, when the source knows it. -/
  blocks : InsertionMap JsString BlockRef
  /-- Events fetched. -/
  count : JsNumber

/-- Where verification reads public data from. -/
structure VerifySource where
  description : JsString
  /-- The contract's `Misc` events, of one transaction when given. -/
  events : (contract : JsString) → (transactionHash : Option JsString) → Except JsError SourceEvents
  /-- A transaction by hash, if the source has it. -/
  transaction : JsString → Except JsError (Option SourceTransaction)
  /-- The contract's serialized state as of a block, latest when omitted. -/
  contractState : (contract : JsString) → Option BlockRef → Except JsError (Option Bytes)
  /-- The node cross-check: the index of the block's extrinsic holding the bytes. -/
  nodeHolds : Option ((blockHash : JsString) → (raw : Bytes) → Except JsError (Option JsNumber))

/-- Saved public data for offline verification. -/
structure SavedData where
  network : JsString
  /-- Raw transaction bytes as the chain serves them. -/
  raw : Bytes
  /-- The inclusion status the chain reported. -/
  status : JsString
  /-- The transaction hash the chain reported (default: the bytes' own hash). -/
  transactionHash : Option JsString
  contractState : Option Bytes
  block : Option BlockRef

/-- The events of saved bytes: those of their transaction, and of no other. -/
def savedEvents (saved : SavedData) (tx : Transaction) (hash contract : JsString)
    (transactionHash : Option JsString) : SourceEvents :=
  if transactionHash.any (fun requested => requested ≠ hash) then ⟨[], .empty, .empty, .int 0⟩
  else
    let extracted := partEventsFromTransaction tx ⟨saved.network, contract, hash⟩
    { events := extracted.events
      issues := if extracted.issues.length = 0 then .empty
        else InsertionMap.empty.set hash extracted.issues
      blocks := (saved.block.map fun block => InsertionMap.empty.set hash block).getD .empty
      count := .int extracted.events.length }

/-- Saved raw transaction bytes, and the contract state when it is saved, as a source. -/
def savedSource (ledger : LedgerModule) (saved : SavedData) : Except JsError VerifySource :=
  match deserializeTransaction ledger saved.raw with
  | .error _ => .error (.rangeError (js "the saved bytes are not a ledger-v9 transaction"))
  | .ok tx =>
    match saved.transactionHash.or (transactionHashOf tx) with
    | none => .error (.rangeError
        (js "the saved bytes carry no transaction hash; pass the one the chain reported"))
    | some hash => .ok
        { description := js "saved raw transaction"
          events := fun contract transactionHash =>
            .ok (savedEvents saved tx hash contract transactionHash)
          transaction := fun requested => .ok <|
            if requested = hash then some ⟨hash, saved.raw, saved.status, saved.block⟩ else none
          contractState := fun _ _ => .ok saved.contractState
          nodeHolds := none }

/-- What `verifyPackages` checks. -/
structure VerifyRequest where
  target : VerifyTarget
  /-- Highest level to check. -/
  level : JsNumber
  /-- One transaction; without it every package is listed. -/
  transactionHash : Option JsString
  /-- Only the package of this intent. -/
  segment : Option JsNumber
  /-- The committed verifier key of the emitting circuit. -/
  expectedVerifierKey : Option Bytes
  /-- Also check that the node's block holds the raw bytes. -/
  crossCheckNode : Option Bool
  limits : Option ReaderLimits

/-- One check's outcome. -/
structure Check where
  level : ℕ
  ok : Bool
  message : JsString
  deriving DecidableEq

/-- One package's verification. -/
structure PackageReport where
  transactionHash : JsString
  /-- Physical segment: the package's intent. -/
  segment : ℕ
  block : Option BlockRef
  /-- Inclusion status, from Level 2 on. -/
  status : Option JsString
  parts : ℕ
  payloadBytes : ℕ
  /-- SHA-256 of the merged payload of an accepted package. -/
  payloadSha256 : Option JsString
  /-- The merged payload of an accepted package, hex. -/
  payloadHex : Option JsString
  /-- Highest level passed. -/
  level : ℕ
  checks : List Check
  deriving DecidableEq

/-- Whether one transaction is verified, or every package is listed. -/
inductive VerifyMode where
  | transaction
  | listing
  deriving DecidableEq

/-- The verification report. -/
structure VerifyReport where
  source : JsString
  mode : VerifyMode
  network : JsString
  contract : JsString
  /-- N in readable form. -/
  name : JsString
  /-- N as 32 bytes, hex. -/
  nameHex : JsString
  entryPoint : JsString
  requestedLevel : ℕ
  /-- Lowest level any package reached, 0 when there is none. -/
  level : ℕ
  notFound : Bool
  transactionHash : Option JsString
  segment : Option JsNumber
  /-- `Misc` events of the contract read. -/
  events : JsNumber
  /-- How many had another name. -/
  otherEvents : ℕ
  expectedVerifierKeySha256 : Option JsString
  packages : List PackageReport
  notes : List JsString
  deriving DecidableEq

/-- Exit status: 0 every package verified to the requested level, 1 a level failed, 3 not
found. -/
def verifyExitStatus (report : VerifyReport) : ℕ :=
  if report.notFound then 3 else if report.level ≥ report.requestedLevel then 0 else 1

/-! ### The request -/

/-- A segment needs a transaction and is in 1..65535. -/
def checkSegment (request : VerifyRequest) : Except JsError Unit :=
  match request.segment with
  | none => .ok ()
  | some segment => do
    throwIf (request.transactionHash = none) (.rangeError (js "a segment needs a transaction"))
    throwIf (segment.inRange 1 65535 = none) (.rangeError (js "segment must be 1..65535"))

/-- Check a request: the event name as 32 bytes and the level. -/
def checkRequest (request : VerifyRequest) : Except JsError (Bytes × ℕ) :=
  match request.level.inRange 1 3 with
  | none => .error (.rangeError (js "level must be 1, 2 or 3"))
  | some level => do
    throwIf (isAddress request.target.contract = false)
      (.rangeError (js "contract must be 64 lowercase hex characters"))
    throwIf (request.target.entryPoint.length = 0)
      (.rangeError (js "the entry point must not be empty"))
    let name ← eventName request.target.name
    checkSegment request
    throwIf (level ≥ 3 ∧ request.expectedVerifierKey = none)
      (.rangeError (js "Level 3 needs the expected verifier key"))
    return (name, level)

/-- The report before anything has been read: nothing found. -/
def baseReport (env : VerifyEnv) (source : VerifySource) (request : VerifyRequest) (name : Bytes)
    (level : ℕ) : VerifyReport where
  source := source.description
  mode := if request.transactionHash = none then .listing else .transaction
  network := request.target.network
  contract := request.target.contract
  name := eventNameText name
  nameHex := bytesToHex name
  entryPoint := request.target.entryPoint
  requestedLevel := level
  level := 0
  notFound := true
  transactionHash := request.transactionHash
  segment := request.segment
  events := .int 0
  otherEvents := 0
  expectedVerifierKeySha256 :=
    if level < 3 then none else request.expectedVerifierKey.map env.sha256Hex
  packages := []
  notes := []

/-- Whether the requested transaction is not known to the source. -/
def isUnknown (source : VerifySource) (request : VerifyRequest) : Except JsError Bool :=
  match request.transactionHash with
  | none => .ok false
  | some hash => do return (← source.transaction hash).isNone

/-- What the reader is asked for. -/
def readOptions (request : VerifyRequest) (name : Bytes) : ReadOptions :=
  ⟨[⟨request.target.contract, .bytes name⟩], some request.target.network,
    some (request.limits.getD defaultReaderLimits)⟩

/-- Whether a package is of the requested intent, when one is requested. -/
def inScope (request : VerifyRequest) (pkg : Package) : Bool :=
  request.segment.all (fun segment => JsNumber.int pkg.segment = segment)

/-! ### The packages to verify -/

/-- A package to verify, from the events or from the raw transaction only. -/
structure Entry where
  transactionHash : JsString
  segment : ℕ
  fromEvents : Option Package
  rawOnly : Option Package

/-- The key of an entry. -/
def entryKey (transactionHash : JsString) (segment : ℕ) : JsString :=
  transactionHash ++ js "#" ++ decimal segment

/-- The entry of a package from the events. -/
def eventEntry (pkg : Package) : Entry := ⟨pkg.transactionHash, pkg.segment, some pkg, none⟩

/-- The entry of a package from the raw transaction. -/
def rawEntry (hash : JsString) (pkg : Package) : Entry := ⟨hash, pkg.segment, none, some pkg⟩

/-- The entries of the packages from the events. -/
def eventEntries (packages : List Package) : InsertionMap JsString Entry :=
  packages.foldl (fun entries pkg =>
    entries.set (entryKey pkg.transactionHash pkg.segment) (eventEntry pkg)) .empty

/-- Add the package of a raw transaction unless the events show it. -/
def addRawEntry (hash : JsString) (entries : InsertionMap JsString Entry) (pkg : Package) :
    InsertionMap JsString Entry :=
  if entryKey hash pkg.segment ∈ entries.keys then entries
  else entries.set (entryKey hash pkg.segment) (rawEntry hash pkg)

/-- What is known of a transaction. -/
structure TransactionFacts where
  transaction : Option SourceTransaction
  decoded : Option Transaction
  /-- Transaction-wide Level 2 checks. -/
  checks : List Check

/-- The check of the inclusion status. -/
def statusCheck (transaction : SourceTransaction) : Check :=
  if transaction.status ∈ includedStatuses then
    ⟨2, true, js "included, status " ++ transaction.status⟩
  else
    ⟨2, false, js "status " ++
      (if transaction.status.length = 0 then js "(none)" else transaction.status) ++
      js " is not an inclusion (SUCCESS or PARTIAL_SUCCESS)"⟩

/-- The check of the bytes' own hash. -/
def hashCheck (decoded : Transaction) (hash : JsString) : Check :=
  match transactionHashOf decoded with
  | none => ⟨2, true, js "the raw bytes carry no hash of their own (not proven and bound); " ++
      js "the reported hash is used"⟩
  | some ownHash =>
    if ownHash ≠ hash then
      ⟨2, false, js "the raw bytes hash to " ++ ownHash ++ js ", not to the reported " ++ hash⟩
    else ⟨2, true, js "the raw bytes hash to the transaction"⟩

/-- The cross-check with the node, when it is requested. -/
def nodeChecks (source : VerifySource) (request : VerifyRequest) (transaction : SourceTransaction) :
    Except JsError (List Check) :=
  if request.crossCheckNode ≠ some true then .ok []
  else
    match source.nodeHolds, transaction.block with
    | none, _ => .ok [⟨2, false, js "no node to cross-check against"⟩]
    | some _, none => .ok [⟨2, false, js "the node cross-check needs the transaction's block"⟩]
    | some nodeHolds, some block => do
      match ← nodeHolds block.hash transaction.raw with
      | none => return [⟨2, false, js "the node's block " ++ integerText block.height ++ js " (" ++
          block.hash ++ js ") does not hold these bytes"⟩]
      | some index => return [⟨2, true, js "the node's block " ++ integerText block.height ++
          js " holds the raw bytes (extrinsic " ++ index.text ++ js ")"⟩]

/-- The transaction-wide facts of a hash. -/
def transactionFacts (env : VerifyEnv) (source : VerifySource) (request : VerifyRequest)
    (hash : JsString) : Except JsError TransactionFacts := do
  match ← source.transaction hash with
  | none =>
    return ⟨none, none, [⟨2, false, js "the source does not have the transaction"⟩]⟩
  | some transaction =>
    match deserializeTransaction env.ledger transaction.raw with
    | .error _ =>
      return ⟨some transaction, none,
        [⟨2, false, js "the raw bytes are not a ledger-v9 transaction"⟩]⟩
    | .ok decoded =>
      let node ← nodeChecks source request transaction
      return ⟨some transaction, some decoded,
        statusCheck transaction :: hashCheck decoded hash :: node⟩

/-- The packages a raw transaction shows. -/
def rawPackages (request : VerifyRequest) (name : Bytes) (hash : JsString) (decoded : Transaction) :
    Except JsError (List Package) := do
  let read ← readPackages (partEventsFromTransaction decoded
    ⟨request.target.network, request.target.contract, hash⟩).events (readOptions request name)
  return read.packages.filter (inScope request)

/-- The facts and the entries collected so far. -/
structure Collected where
  facts : InsertionMap JsString TransactionFacts
  entries : InsertionMap JsString Entry

/-- Collect the facts of a transaction and the packages only its raw bytes show. -/
def addTransaction (env : VerifyEnv) (source : VerifySource) (request : VerifyRequest)
    (name : Bytes) (st : Collected) (hash : JsString) : Except JsError Collected := do
  let fact ← transactionFacts env source request hash
  let facts := st.facts.set hash fact
  match fact.decoded with
  | none => return ⟨facts, st.entries⟩
  | some decoded => do
    let packages ← rawPackages request name hash decoded
    return ⟨facts, packages.foldl (addRawEntry hash) st.entries⟩

/-- The transactions whose facts are collected. -/
def factHashes (request : VerifyRequest) (entries : InsertionMap JsString Entry) : List JsString :=
  match request.transactionHash with
  | none => (entries.values.map Entry.transactionHash).eraseDups
  | some hash => [hash]

/-- The packages to verify, and from Level 2 on the facts of their transactions. -/
def collectEntries (env : VerifyEnv) (source : VerifySource) (request : VerifyRequest)
    (name : Bytes) (level : ℕ) (packages : List Package) : Except JsError Collected :=
  let entries := eventEntries (packages.filter (inScope request))
  if level ≥ 2 then
    (factHashes request entries).foldlM (addTransaction env source request name) ⟨.empty, entries⟩
  else .ok ⟨.empty, entries⟩

/-! ### The checks of one package -/

/-- Whether there are checks of a level and all of them passed. -/
def passesLevel (checks : List Check) (candidate : ℕ) : Bool :=
  let atLevel := checks.filter (fun check => check.level = candidate)
  !atLevel.isEmpty && atLevel.all Check.ok

/-- The highest level passed, up to the requested one. -/
def levelOf (checks : List Check) (requested : ℕ) : ℕ :=
  (([1, 2, 3].takeWhile fun candidate =>
    candidate ≤ requested && passesLevel checks candidate).getLast?).getD 0

/-- The Level 1 check of an entry. -/
def packageCheck (env : VerifyEnv) (entry : Entry) (conversion : List JsString) : Check :=
  match entry.fromEvents with
  | none => ⟨1, false, js "the events lack this package: the raw transaction's intent logs " ++
      decimal ((entry.rawOnly.map fun pkg => pkg.parts.length).getD 0) ++ js " parts named N"⟩
  | some pkg =>
    if pkg.status ≠ .accepted then
      ⟨1, false, js "rejected: " ++ joinWith (js "; ") pkg.issues⟩
    else if conversion.length > 0 then
      ⟨1, false, js "events of this transaction could not all be read (the package may be " ++
        js "incomplete): " ++ joinWith (js "; ") conversion⟩
    else
      ⟨1, true, decimal pkg.parts.length ++ js " part(s), " ++
        decimal ((pkg.payload.map List.length).getD 0) ++ js " bytes, payload SHA-256 " ++
        env.sha256Hex (pkg.payload.getD [])⟩

/-- The checks of the placement of a package. -/
def placementChecks (target : VerifyTarget) (pkg : Package) (decoded : Transaction) :
    Except JsError (List Check) := do
  let placement ← checkPlacement decoded target.toPlacementTarget pkg.segment pkg.parts
  if placement.length = 0 then
    return [⟨2, true, js "every " ++ target.entryPoint ++ js " call in the intent at segment " ++
      decimal pkg.segment ++ js " is guaranteed-only and logs these " ++
      decimal pkg.parts.length ++ js " part(s), in order"⟩]
  else return placement.map fun issue => ⟨2, false, issue⟩

/-- The Level 2 checks of a package, from the facts of its transaction. -/
def levelTwoChecks (target : VerifyTarget) (pkg : Package) (fact : Option TransactionFacts) :
    Except JsError (List Check) :=
  match fact with
  | none => .ok []
  | some fact =>
    match fact.decoded with
    | none => .ok fact.checks
    | some decoded => do return fact.checks ++ (← placementChecks target pkg decoded)

/-- The contract state at a block: remembered by the block's hash. -/
def stateAt (source : VerifySource) (contract : JsString)
    (states : InsertionMap JsString (Option Bytes)) (block : Option BlockRef) :
    Except JsError (InsertionMap JsString (Option Bytes) × Option Bytes) :=
  let key := (block.map BlockRef.hash).getD []
  match states.get? key with
  | some state => .ok (states, state)
  | none => do
    let state ← source.contractState contract block
    return (states.set key state, state)

/-- The Level 3 check, from the contract state at the transaction's block. -/
def verifierKeyCheck (env : VerifyEnv) (entryPoint : JsString) (expected : Bytes)
    (block : Option BlockRef) (state : Option Bytes) : Check :=
  let at_ := (block.map fun b => js " at block " ++ integerText b.height).getD []
  match state with
  | none => ⟨3, false, js "the source has no state of the contract" ++ at_⟩
  | some state =>
    match compareDeployedVerifierKey env state entryPoint expected with
    | .error _ => ⟨3, false, js "the contract state does not decode"⟩
    | .ok comparison =>
      match comparison.deployedSha256 with
      | none => ⟨3, false, js "the contract has no " ++ entryPoint ++ js " verifier key" ++ at_⟩
      | some deployed =>
        if comparison.ok = false then
          ⟨3, false, js "the deployed " ++ entryPoint ++ js " verifier key" ++ at_ ++
            js " (SHA-256 " ++ deployed ++ js ") differs from the expected one (SHA-256 " ++
            comparison.expectedSha256 ++ js ")"⟩
        else
          ⟨3, true, js "the deployed " ++ entryPoint ++ js " verifier key" ++ at_ ++
            js " equals the expected one (SHA-256 " ++ deployed ++ js ")"⟩

/-- The states remembered and the reports made so far. -/
structure ReportState where
  states : InsertionMap JsString (Option Bytes)
  reports : List PackageReport

/-- The Level 3 checks of a package, given its other checks. -/
def levelThreeChecks (env : VerifyEnv) (source : VerifySource) (request : VerifyRequest) (level : ℕ)
    (states : InsertionMap JsString (Option Bytes)) (block : Option BlockRef)
    (checks : List Check) :
    Except JsError (InsertionMap JsString (Option Bytes) × List Check) :=
  match request.expectedVerifierKey with
  | none => .ok (states, [])
  | some expected =>
    if level ≥ 3 ∧ levelOf checks 2 = 2 then do
      let (states, state) ← stateAt source request.target.contract states block
      return (states, [verifierKeyCheck env request.target.entryPoint expected block state])
    else .ok (states, [])

/-- The block of an entry: its transaction's, else the one the events give. -/
def entryBlock (fetched : SourceEvents) (fact : Option TransactionFacts) (entry : Entry) :
    Option BlockRef :=
  ((fact.bind TransactionFacts.transaction).bind SourceTransaction.block).or
    (fetched.blocks.get? entry.transactionHash)

/-- The payload a report shows: that of an accepted package from the events. -/
def shownPayload (entry : Entry) : Option Bytes :=
  entry.fromEvents.bind fun pkg => if pkg.status = .accepted then pkg.payload else none

/-- The report of an entry with its checks. -/
def packageReport (env : VerifyEnv) (fetched : SourceEvents) (fact : Option TransactionFacts)
    (level : ℕ) (entry : Entry) (checks : List Check) : PackageReport where
  transactionHash := entry.transactionHash
  segment := entry.segment
  block := entryBlock fetched fact entry
  status := (fact.bind TransactionFacts.transaction).map SourceTransaction.status
  parts := ((entry.fromEvents.or entry.rawOnly).map fun pkg => pkg.parts.length).getD 0
  payloadBytes := ((shownPayload entry).map List.length).getD 0
  payloadSha256 := (shownPayload entry).map env.sha256Hex
  payloadHex := (shownPayload entry).map bytesToHex
  level := levelOf checks level
  checks := checks

/-- The Level 1 and 2 checks of an entry. -/
def lowerChecks (env : VerifyEnv) (request : VerifyRequest) (level : ℕ) (fetched : SourceEvents)
    (fact : Option TransactionFacts) (entry : Entry) : Except JsError (List Check) :=
  let first := packageCheck env entry ((fetched.issues.get? entry.transactionHash).getD [])
  match entry.fromEvents with
  | none => .ok [first]
  | some pkg =>
    if level ≥ 2 ∧ first.ok = true then do
      return first :: (← levelTwoChecks request.target pkg fact)
    else .ok [first]

/-- Check one entry and add its report. -/
def reportEntry (env : VerifyEnv) (source : VerifySource) (request : VerifyRequest) (level : ℕ)
    (fetched : SourceEvents) (facts : InsertionMap JsString TransactionFacts) (st : ReportState)
    (entry : Entry) : Except JsError ReportState := do
  let fact := facts.get? entry.transactionHash
  let checks ← lowerChecks env request level fetched fact entry
  let (states, third) ← levelThreeChecks env source request level st.states
    (entryBlock fetched fact entry) checks
  return ⟨states,
    st.reports ++ [packageReport env fetched fact level entry (checks ++ third)]⟩

/-! ### The report -/

/-- The height a report is sorted by: reports without a block come last. -/
def sortHeight (report : PackageReport) : ℤ :=
  (report.block.map BlockRef.height).getD maxSafeInteger

/-- The order of the reports: height, transaction hash, segment. -/
def compareReports (left right : PackageReport) : Ordering :=
  (compare (sortHeight left) (sortHeight right)).then
    ((compareCodeUnits left.transactionHash right.transactionHash).then
      (compare left.segment right.segment))

/-- The lowest level any package reached, at most the requested one. -/
def lowestLevel (level : ℕ) (packages : List PackageReport) : ℕ :=
  packages.foldl (fun lowest pkg => if pkg.level < lowest then pkg.level else lowest) level

/-- The note of a request that found no package. -/
def noPackageNote (request : VerifyRequest) (name : Bytes) (fetched : SourceEvents) : JsString :=
  js "no package of (" ++ request.target.contract ++ js ", " ++ eventNameText name ++ js ") " ++
    match request.transactionHash with
    | none => js "among the contract's " ++ fetched.count.text ++ js " Misc events"
    | some hash => js "in transaction " ++ hash ++
        (request.segment.map fun segment => js " at segment " ++ segment.text).getD []

/-- Verify every package of the target, in one transaction or all of them, to the requested
level. -/
def verifyPackages (env : VerifyEnv) (source : VerifySource) (request : VerifyRequest) :
    Except JsError VerifyReport := do
  let (name, level) ← checkRequest request
  let base := baseReport env source request name level
  if ← isUnknown source request then
    return { base with
      notes := [js "transaction " ++ request.transactionHash.getD [] ++
        js " is not known to the source (not indexed yet, or a wrong hash)"] }
  else
    let fetched ← source.events request.target.contract request.transactionHash
    let read ← readPackages fetched.events (readOptions request name)
    let collected ← collectEntries env source request name level read.packages
    if collected.entries.size = 0 then
      return { base with
        events := fetched.count
        otherEvents := read.ignored
        notes := [noPackageNote request name fetched] }
    else
      let st ← collected.entries.values.foldlM
        (reportEntry env source request level fetched collected.facts) ⟨.empty, []⟩
      let packages := sortBy compareReports st.reports
      return { base with
        level := lowestLevel level packages
        notFound := false
        events := fetched.count
        otherEvents := read.ignored
        packages := packages }

end MultiPartEvent
