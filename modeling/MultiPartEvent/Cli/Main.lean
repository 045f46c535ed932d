import MultiPartEvent.Cli.ByteFiles
import MultiPartEvent.Cli.Flags
import MultiPartEvent.Cli.IndexerSource
import MultiPartEvent.Cli.Offline
import MultiPartEvent.DeployTools.Files

/-!
# The command line of `cmse`

`cmse verify` reads from its flags, the environment and files what to verify, verifies it against
the indexer or, with `--raw-file`, against saved bytes, prints the report and ends with a status.

Offline the status is a fact about the files alone: it is 0 exactly when they verify
(`cmseMain_eq_zero_iff`), whatever the indexer and the node would answer
(`cmseMain_ignores_network`).

The queries of the indexer client, the node and `new URL` are parameters.  The report that `--json`
prints is left as the value it shows.
-/

namespace MultiPartEvent

/-! ### Lines of a report -/

/-- `LEVEL_MEANING`. -/
def levelMeaning : ℕ → Option JsString
  | 0 => some (js "nothing verified")
  | 1 => some (js "the package: every event named N of one intent, in emission order, merged")
  | 2 => some (js "and its placement: guaranteed-only calls of the emitting circuit in one " ++
      js "intent of an included transaction")
  | 3 => some (js "and the code: the deployed emitting circuit's verifier key is the committed one")
  | _ => none

/-- The line of a check. -/
def checkLine (check : Check) : JsString :=
  js "  L" ++ decimal check.level ++ js " " ++ (if check.ok then js "OK  " else js "FAIL") ++
    js " " ++ check.message

/-- The lines of a package. -/
def packageLines (pkg : PackageReport) : List JsString :=
  (js "package     transaction " ++ pkg.transactionHash ++ js ", segment " ++ decimal pkg.segment ++
    (pkg.block.map fun block => js ", block " ++ integerText block.height).getD []) ::
  pkg.checks.map checkLine ++ [js "  verified to level " ++ decimal pkg.level]

/-- Human-readable lines for a report. -/
def reportLines (report : VerifyReport) : List JsString :=
  [js "source      " ++ report.source,
    js "contract    " ++ report.contract ++ js " (network " ++ report.network ++ js ")",
    js "event name  " ++ report.name ++ js "; emitting circuit " ++ report.entryPoint] ++
  (report.transactionHash.map fun hash => js "transaction " ++ hash).toList ++
  (report.expectedVerifierKeySha256.map fun hash =>
    js "expected " ++ report.entryPoint ++ js " verifier key SHA-256 " ++ hash).toList ++
  report.packages.flatMap packageLines ++
  (report.notes.map fun note => if report.notFound then js "not found: " ++ note else note) ++
  [js "result      " ++ decimal report.packages.length ++ js " package(s); verified to level " ++
    decimal report.level ++ js " of " ++ decimal report.requestedLevel ++ js " — " ++
    (levelMeaning report.level).getD []]

/-! ### The world -/

/-- What `cmse` reads of the files; a call that fails throws a Node error. -/
structure ByteFiles where
  existsSync : JsString → Bool
  readFileSync : JsString → Except JsError Bytes

/-- What `cmse` is run with. -/
structure CmseWorld where
  /-- `repositoryRoot()`. -/
  root : JsString
  files : ByteFiles
  parseUrl : UrlParser
  env : VerifyEnv
  /-- The client for the indexer at a URL. -/
  indexer : JsString → IndexerClient
  /-- `rawTransactionInBlock(url, blockHash, rawHex)`. -/
  node : (url blockHash rawHex : JsString) → Except JsError (Option JsNumber)
  /-- The error is a `PublicDataError` of the kind `not-found`. -/
  isNotFound : JsError → Bool

/-- What `cmse` throws. -/
inductive CmseError where
  | usage (error : UsageError)
  | language (error : JsError)

/-- Reading flags. -/
def cmseFlag {α : Type} (result : Except UsageError α) : Except CmseError α :=
  result.mapError .usage

/-- `throw new UsageError(message)`. -/
def refuse {α : Type} (message : JsString) : Except CmseError α := .error (.usage ⟨message⟩)

/-- Read a file of hex text or raw bytes. -/
def readBytesFile (files : ByteFiles) (path what : JsString) : Except CmseError Bytes :=
  if files.existsSync path = false then refuse (what ++ js " " ++ path ++ js " does not exist")
  else ((files.readFileSync path) >>= bytesOfFile).mapError .language

/-! ### What to verify -/

/-- What `cmse` reads of an example. -/
structure CmseExample where
  name : Option JsString
  keysDir : Option JsString

/-- The functions every object inherits, other than its constructor. -/
def inheritedFunctions : List JsString :=
  [js "toString", js "toLocaleString", js "valueOf", js "hasOwnProperty", js "isPrototypeOf",
    js "propertyIsEnumerable", js "__defineGetter__", js "__defineSetter__",
    js "__lookupGetter__", js "__lookupSetter__"]

/-- `EXAMPLES[name]`.  An object also answers for what it inherits: its constructor, its prototype
and some functions, which have names and no directories of keys. -/
def cmseExample (name : JsString) : Option CmseExample :=
  if name = js "emitter" then
    some ⟨some (js "example:message[v1]"), some (js "contract-examples/emitter/keys")⟩
  else if name = js "notice-board" then
    some ⟨some (js "notice-board:notice[v1]"), some (js "contract-examples/notice-board/keys")⟩
  else if name = js "constructor" then some ⟨some (js "Object"), none⟩
  else if name = js "__proto__" then some ⟨none, none⟩
  else if inheritedFunctions.contains name then some ⟨some name, none⟩
  else none

/-- The example of `--example`. -/
def exampleOf (options : Options) : Except CmseError (Option CmseExample) :=
  match options.string (js "example") with
  | none => .ok none
  | some name =>
    match cmseExample name with
    | none => refuse (js "--example is emitter or notice-board")
    | some found => .ok (some found)

/-- `/^0x([0-9a-fA-F]{64})$/u`: the digits. -/
def nameDigits? (value : JsString) : Option JsString :=
  if value.take 2 = js "0x" ∧ value.length = 66 ∧
      (value.drop 2).all (fun u => (hexDigit? u).isSome) = true then some (value.drop 2)
  else none

/-- The event name. -/
def nameOf (options : Options) (preset : Option JsString) : Except CmseError NameInput :=
  match (options.string (js "name")).or preset with
  | none => refuse (js "the event name is required: pass --name <event name> (or --example)")
  | some value =>
    let name := match nameDigits? value with
      | none => NameInput.text value
      | some digits => .bytes (hexPairs (digits.map asciiLower))
    match eventName name with
    | .error error => refuse (js "--name: " ++ error.message)
    | .ok _ => .ok name

/-- The path of the expected key: `--verifier-key`, or that of the example. -/
def keyPathOf (world : CmseWorld) (options : Options) (preset : Option CmseExample)
    (entryPoint : JsString) : Except CmseError (Option JsString) :=
  match options.string (js "verifier-key"), preset with
  | some path, _ => .ok (some path)
  | none, none => .ok none
  | none, some found =>
    match found.keysDir with
    | some keysDir => .ok (some (normalizePath ([slash].intercalate
        ([world.root, keysDir, entryPoint ++ js ".verifier"].filter (· ≠ [])))))
    | none => .error (.language (.error
        (js "The \"path\" argument must be of type string. Received undefined")))

/-- `level >= 3`. -/
def isLevelThree (level : JsNumber) : Bool := (level.inRange 3 3).isSome

/-- The expected key, at Level 3. -/
def expectedKey (world : CmseWorld) (level : JsNumber) (keyPath : Option JsString) :
    Except CmseError (Option Bytes) :=
  if isLevelThree level = false then .ok none
  else
    match keyPath with
    | none => refuse (js "Level 3 needs the committed verifier key: pass --verifier-key <file> " ++
        js "(or --example), or --level 2")
    | some path => (readBytesFile world.files path (js "verifier key")).map some

/-- What the command line asks to verify. -/
def verifyRequest (world : CmseWorld) (options : Options) : Except CmseError VerifyRequest := do
  let found ← exampleOf options
  let address ← cmseFlag (options.required (js "contract") (js "the contract address"))
  let contract ← cmseFlag (hex32 address (js "contract"))
  let name ← nameOf options (found.bind CmseExample.name)
  let entryPoint := (options.string (js "entry-point")).getD (js "emitPart")
  let level ← cmseFlag (options.integer (js "level") (.int 3) (.int 3) 1)
  let keyPath ← keyPathOf world options found entryPoint
  let expectedVerifierKey ← expectedKey world level keyPath
  let transactionHash ← (options.string (js "tx")).mapM fun value =>
    cmseFlag (hex32 value (js "tx"))
  let segment ← (options.string (js "segment")).mapM fun _ =>
    cmseFlag (options.integer (js "segment") (.int 1) (.int 65535) 1)
  let maxEvents ← cmseFlag (options.integer (js "max-events") (.int 4096) (.int 1000000) 1)
  return {
    target := ⟨⟨contract, entryPoint, name⟩, networkOf options⟩
    level := level
    transactionHash := transactionHash
    segment := segment
    expectedVerifierKey := expectedVerifierKey
    crossCheckNode := some (options.flag (js "node")).isSome
    limits := some ⟨maxEvents, maxEvents⟩ }

/-! ### Where to verify it -/

/-- The saved data of an offline verification. -/
def offlineData (world : CmseWorld) (options : Options) (request : VerifyRequest)
    (rawFile : JsString) : Except CmseError SavedData := do
  if (options.flag (js "node")).isSome = true then
    refuse (js "--node needs the indexer's block: it does not work with --raw-file")
  else if (options.flag (js "indexer")).isSome = true then
    refuse (js "--raw-file verifies offline: drop --indexer")
  else if isLevelThree request.level = true ∧ options.string (js "state-file") = none then
    refuse (js "offline Level 3 needs --state-file (or --level 2)")
  else
    let raw ← readBytesFile world.files rawFile (js "raw transaction file")
    let status ← cmseFlag (options.required (js "status")
      (js "the inclusion status the chain reported"))
    let contractState ← (options.string (js "state-file")).mapM fun path =>
      readBytesFile world.files path (js "contract state file")
    return ⟨request.target.network, raw, status, request.transactionHash, contractState, none⟩

/-- The flags of an offline verification are refused without `--raw-file`. -/
def refuseOfflineFlag (options : Options) (name : JsString) : Except CmseError Unit :=
  if (options.flag name).isSome = true then
    refuse (js "--" ++ name ++ js " is for offline verification with --raw-file")
  else .ok ()

/-- The indexer, and the node when there is one. -/
def onlineSource (world : CmseWorld) (options : Options) (request : VerifyRequest) :
    Except CmseError VerifySource := do
  refuseOfflineFlag options (js "status")
  refuseOfflineFlag options (js "state-file")
  if request.segment.isSome = true ∧ request.transactionHash = none then
    refuse (js "--segment needs --tx")
  else
    let url ← cmseFlag (indexerUrlOf world.parseUrl options request.target.network)
    let nodeUrl ← (options.flag (js "node")).mapM fun node =>
      cmseFlag (httpUrl world.parseUrl node (js "node"))
    return indexerSource world.env.ledger { world.indexer url with url := url }
      ⟨request.target.network, nodeUrl.map world.node, request.limits.map ReaderLimits.maxEvents⟩

/-- The source of a verification. -/
def sourceOf (world : CmseWorld) (options : Options) (request : VerifyRequest) :
    Except CmseError VerifySource :=
  match options.string (js "raw-file") with
  | some rawFile => do
    let saved ← offlineData world options request rawFile
    (savedSource world.env.ledger saved).mapError .language
  | none => onlineSource world options request

/-! ### The run -/

/-- What a run prints. -/
inductive CmseLine where
  | out (line : JsString)
  | err (line : JsString)
  /-- A report as JSON on stdout. -/
  | printed (report : VerifyReport)

/-- The lines of a report, and the report itself with `--json`, when the lines go to stderr. -/
def cmseLines (json : Bool) (report : VerifyReport) : List CmseLine :=
  (reportLines report).map (if json then CmseLine.err else .out) ++
    (if json then [.printed report] else [])

/-- `cmse verify`: what it prints, and its exit status. -/
def runVerify (world : CmseWorld) (options : Options) : Except CmseError (List CmseLine × ℕ) := do
  let request ← verifyRequest world options
  let source ← sourceOf world options request
  let report ← (verifyPackages world.env source request).mapError .language
  return (cmseLines (options.has (js "json")) report, verifyExitStatus report)

/-- `FLAGS`. -/
def cmseFlags : FlagSpec where
  valued := {js "contract", js "name", js "entry-point", js "example", js "level",
    js "verifier-key", js "tx", js "segment", js "node", js "network", js "indexer",
    js "max-events", js "raw-file", js "status", js "state-file"}
  switches := {js "json", js "help"}
  repeatable := none

/-- `ENV_FOR_FLAG`. -/
def cmseEnvForFlag (name : JsString) : Option JsString :=
  if name = js "network" then some (js "CMSE_NETWORK")
  else if name = js "indexer" then some (js "CMSE_INDEXER_URL")
  else none

/-- `USAGE`. -/
def cmseUsage : JsString :=
  js "cmse verify — read and verify packages of the multi-part rule from public data
(no wallet, proof server or compiler)

  cmse verify --contract <address> --name <event name> --tx <transaction hash> [--segment <n>]
      the packages of (contract, name) in one transaction (one per intent)
  cmse verify --contract <address> --name <event name>
      every package of (contract, name): pages through the contract's Misc events
  cmse verify --contract <address> --name <event name> --raw-file <file> --status <status>
              [--tx <transaction hash>] [--state-file <file>] [--segment <n>]
      offline: saved raw transaction bytes (hex or binary) and, for Level 3, the saved
      serialized contract state; no network

  --contract <address>        the contract (64 hex characters)
  --name <event name>         the opted-in event name N, e.g. 'example:message[v1]'
                              (quote it: [ ] are shell patterns), or 0x and 64 hex characters
  --entry-point <circuit>     the emitting circuit (default emitPart)
  --example <name>            this repository's examples, emitter or notice-board: sets --name
                              and the committed --verifier-key (run from a clone)
  --level 1|2|3               highest level to check (default 3)
  --verifier-key <file>       the committed verifier key of the emitting circuit (Level 3)
  --node <rpc url>            Level 2 also checks that the node's block holds the raw bytes
  --network <id>              CMSE_NETWORK (default stagenet)
  --indexer <url>             CMSE_INDEXER_URL (default: the network's public indexer;
                              stagenet: https://indexer.stagenet.shielded.tools/api/v4/graphql)
  --max-events <n>            largest number of events read (default 4096)
  --json                      print the report as JSON on stdout (the lines go to stderr)
  --help

Levels:
  1 the package: the contract's Misc events named N, grouped per intent (transaction and
    physical segment), in ledger emission order, widths restored, merged
  2 the placement, from the raw transaction: included (SUCCESS or PARTIAL_SUCCESS), the
    bytes hash to the transaction, every call of the emitting circuit in the package's
    intent is guaranteed-only and logs exactly its parts in order; with --node, the
    node's block holds the bytes
  3 the code: the contract's verifier key of the emitting circuit, at the transaction's
    block, equals the committed one

Exit status: 0 every package verified to the requested level; 1 a level failed;
2 usage or input error; 3 not found (not indexed yet, or a wrong hash, address or name).
"

/-- The options of a command line. -/
def cmseOptions (parsed : ParsedArgs) (env : JsString → Option JsString) : Options :=
  ⟨parsed, env, cmseEnvForFlag⟩

/-- What a parsed command line asks for. -/
def runCmse (world : CmseWorld) (options : Options) : Except CmseError (List CmseLine × ℕ) :=
  if options.has (js "help") = true ∨ options.parsed.command = some (js "help") then
    .ok ([.out cmseUsage], 0)
  else
    match options.parsed.command with
    | none => .ok ([.err cmseUsage], 2)
    | some command =>
      if command ≠ js "verify" then
        refuse (js "unknown command '" ++ command ++ js "' (cmse has one command: verify)")
      else runVerify world options

/-- The `catch` block of `main`. -/
def cmseFailure (world : CmseWorld) : CmseError → List CmseLine × ℕ
  | .usage error =>
    ([.err (js "error: " ++ error.message), .err (js "run `cmse --help` for usage")], 2)
  | .language (.rangeError message) => ([.err (js "error: " ++ message)], 2)
  | .language error =>
    if world.isNotFound error = true then ([.err (js "not found: " ++ error.message)], 3)
    else ([.err (js "failed: " ++ error.message)], 1)

/-- Run `cmse`: what it prints, and its exit status. -/
def cmseMain (world : CmseWorld) (argv : List JsString) (env : JsString → Option JsString) :
    List CmseLine × ℕ :=
  match cmseFlag (parseArgs argv cmseFlags) >>= fun parsed =>
    runCmse world (cmseOptions parsed env) with
  | .ok result => result
  | .error error => cmseFailure world error

/-! ### What is read of the files -/

/-- A file is there, and its contents stand for these bytes. -/
structure ByteFiles.Reads (files : ByteFiles) (path : JsString) (bytes : Bytes) : Prop where
  isThere : files.existsSync path = true
  contents : ∃ contents, files.readFileSync path = .ok contents ∧ bytesOfFile contents = .ok bytes

/-- The flags of an offline verification, and the saved data its files hold. -/
structure SavedFor (world : CmseWorld) (options : Options) (request : VerifyRequest)
    (rawFile : JsString) (saved : SavedData) : Prop where
  noNode : options.flag (js "node") = none
  noIndexer : options.flag (js "indexer") = none
  raw : world.files.Reads rawFile saved.raw
  status : options.string (js "status") = some saved.status
  state : ∀ path, options.string (js "state-file") = some path →
    ∃ bytes, world.files.Reads path bytes ∧ saved.contractState = some bytes
  /-- Only below Level 3 can the state be left out. -/
  noState : options.string (js "state-file") = none →
    saved.contractState = none ∧ isLevelThree request.level = false
  network : saved.network = request.target.network
  reported : saved.transactionHash = request.transactionHash
  block : saved.block = none

section Files

variable {world : CmseWorld} {options : Options} {request : VerifyRequest} {rawFile : JsString}

/-- A file is read exactly when it is there and its contents can be read. -/
lemma readBytesFile_eq_ok_iff {files : ByteFiles} {path what : JsString} {bytes : Bytes} :
    readBytesFile files path what = .ok bytes ↔ files.Reads path bytes := by
  unfold readBytesFile
  cases hthere : files.existsSync path with
  | false =>
    rw [if_pos rfl]
    constructor
    · intro h
      cases h
    · intro h
      cases hthere.symm.trans h.isThere
  | true =>
    rw [if_neg (by decide), mapError_eq_ok_iff, bind_eq_ok_iff]
    constructor
    · intro h
      exact ⟨hthere, h⟩
    · intro h
      exact h.contents

/-- A required flag is there. -/
lemma required_flag_eq_ok_iff {name what value : JsString} :
    cmseFlag (options.required name what) = .ok value ↔ options.string name = some value := by
  unfold cmseFlag Options.required
  rw [mapError_eq_ok_iff]
  cases options.string name with
  | none => simp [usage]
  | some found => simp

/-- The state file is read where there is one. -/
lemma mapM_stateFile_eq_ok_iff {path? : Option JsString} {files : ByteFiles} {what : JsString}
    {state? : Option Bytes} :
    (path?.mapM fun path => readBytesFile files path what) = .ok state? ↔
      (∀ path, path? = some path → ∃ bytes, files.Reads path bytes ∧ state? = some bytes) ∧
        (path? = none → state? = none) := by
  cases path? with
  | none =>
    constructor
    · intro h
      cases h
      exact ⟨fun _ hpath => (by cases hpath), fun _ => rfl⟩
    · intro h
      rw [h.2 rfl]
      rfl
  | some path =>
    constructor
    · intro h
      obtain ⟨bytes, hbytes, heq⟩ := bind_eq_ok_iff.mp h
      cases heq
      refine ⟨fun other hother => ?_, fun hnone => (by cases hnone)⟩
      cases hother
      exact ⟨bytes, readBytesFile_eq_ok_iff.mp hbytes, rfl⟩
    · intro h
      obtain ⟨bytes, hreads, rfl⟩ := h.1 path rfl
      exact bind_eq_ok_iff.mpr ⟨bytes, readBytesFile_eq_ok_iff.mpr hreads, rfl⟩

/-- **The saved data of a command line**: what its files hold. -/
lemma offlineData_eq_ok_iff {saved : SavedData} :
    offlineData world options request rawFile = .ok saved ↔
      SavedFor world options request rawFile saved := by
  unfold offlineData
  cases hnode : options.flag (js "node") with
  | some node =>
    constructor
    · intro h
      cases h
    · intro h
      cases hnode.symm.trans h.noNode
  | none =>
  cases hindexer : options.flag (js "indexer") with
  | some url =>
    constructor
    · intro h
      cases h
    · intro h
      cases hindexer.symm.trans h.noIndexer
  | none =>
  rw [if_neg (by decide), if_neg (by decide)]
  by_cases hmissing : isLevelThree request.level = true ∧ options.string (js "state-file") = none
  · rw [if_pos hmissing]
    constructor
    · intro h
      cases h
    · intro h
      cases hmissing.1.symm.trans (h.noState hmissing.2).2
  rw [if_neg hmissing]
  constructor
  · intro h
    obtain ⟨raw, hraw, h⟩ := bind_eq_ok_iff.mp h
    obtain ⟨status, hstatus, h⟩ := bind_eq_ok_iff.mp h
    obtain ⟨state?, hstate, h⟩ := bind_eq_ok_iff.mp h
    rw [pure_eq_ok_iff] at h
    subst h
    obtain ⟨hfile, hnone⟩ := mapM_stateFile_eq_ok_iff.mp hstate
    refine ⟨hnode, hindexer, readBytesFile_eq_ok_iff.mp hraw,
      required_flag_eq_ok_iff.mp hstatus, hfile,
      fun hleft => ⟨hnone hleft, ?_⟩, rfl, rfl, rfl⟩
    exact Bool.eq_false_iff.mpr fun hthree => hmissing ⟨hthree, hleft⟩
  · intro h
    refine bind_eq_ok_iff.mpr ⟨_, readBytesFile_eq_ok_iff.mpr h.raw, bind_eq_ok_iff.mpr
      ⟨_, required_flag_eq_ok_iff.mpr h.status, bind_eq_ok_iff.mpr ⟨saved.contractState,
        mapM_stateFile_eq_ok_iff.mpr ⟨h.state, fun hleft => (h.noState hleft).1⟩, ?_⟩⟩⟩
    rw [pure_eq_ok_iff, ← h.network, ← h.reported, ← h.block]

/-- The expected key was read from a file. -/
lemma reads_of_expectedKey {level : JsNumber} {keyPath : Option JsString} {key : Bytes}
    (h : expectedKey world level keyPath = .ok (some key)) :
    ∃ path, world.files.Reads path key := by
  unfold expectedKey at h
  split_ifs at h
  · cases h
  · cases keyPath with
    | none => cases h
    | some path =>
      dsimp only at h
      cases hread : readBytesFile world.files path (js "verifier key") with
      | error err =>
        rw [hread] at h
        cases h
      | ok bytes =>
        rw [hread] at h
        cases h
        exact ⟨path, readBytesFile_eq_ok_iff.mp hread⟩

/-- The expected key of a request was read from a file. -/
lemma reads_of_verifyRequest (h : verifyRequest world options = .ok request) {key : Bytes}
    (hkey : request.expectedVerifierKey = some key) : ∃ path, world.files.Reads path key := by
  obtain ⟨_, -, h⟩ := bind_eq_ok_iff.mp h
  obtain ⟨_, -, h⟩ := bind_eq_ok_iff.mp h
  obtain ⟨_, -, h⟩ := bind_eq_ok_iff.mp h
  obtain ⟨_, -, h⟩ := bind_eq_ok_iff.mp h
  obtain ⟨level, -, h⟩ := bind_eq_ok_iff.mp h
  obtain ⟨keyPath, -, h⟩ := bind_eq_ok_iff.mp h
  obtain ⟨found, hfound, h⟩ := bind_eq_ok_iff.mp h
  obtain ⟨_, -, h⟩ := bind_eq_ok_iff.mp h
  obtain ⟨_, -, h⟩ := bind_eq_ok_iff.mp h
  obtain ⟨_, -, h⟩ := bind_eq_ok_iff.mp h
  rw [pure_eq_ok_iff] at h
  subst h
  change found = some key at hkey
  subst hkey
  exact reads_of_expectedKey hfound

end Files

/-! ### The exit status -/

/-- What has to hold of the files for the status 0: the command line asks for a verification that
they are there for, and the saved bytes verify. -/
structure FilesVerify (world : CmseWorld) (options : Options) (rawFile : JsString)
    (request : VerifyRequest) (saved : SavedData) : Prop where
  asked : verifyRequest world options = .ok request
  holds : SavedFor world options request rawFile saved
  /-- The expected key comes from a file, too. -/
  key : ∀ key, request.expectedVerifierKey = some key → ∃ path, world.files.Reads path key
  verified : ∃ name level tx hash, checkRequest request = .ok (name, level) ∧
    deserializeTransaction world.env.ledger saved.raw = .ok tx ∧
    saved.transactionHash.or (transactionHashOf tx) = some hash ∧
    SavedVerified world.env saved request name level tx hash

section ExitStatus

variable {world : CmseWorld} {argv : List JsString} {env : JsString → Option JsString}
  {parsed : ParsedArgs} {options : Options} {rawFile : JsString}

/-- A run that throws ends with another status. -/
lemma cmseFailure_ne_zero (world : CmseWorld) (error : CmseError) :
    (cmseFailure world error).2 ≠ 0 := by
  unfold cmseFailure
  split
  · exact Nat.succ_ne_zero _
  · exact Nat.succ_ne_zero _
  · split_ifs
    · exact Nat.succ_ne_zero _
    · exact Nat.succ_ne_zero _

/-- The status 0 of a verification. -/
lemma runVerify_eq_zero_iff : (∃ lines, runVerify world options = .ok (lines, 0)) ↔
    ∃ request source report, verifyRequest world options = .ok request ∧
      sourceOf world options request = .ok source ∧
      verifyPackages world.env source request = .ok report ∧ verifyExitStatus report = 0 := by
  constructor
  · intro h
    obtain ⟨lines, h⟩ := h
    obtain ⟨request, hrequest, h⟩ := bind_eq_ok_iff.mp h
    obtain ⟨source, hsource, h⟩ := bind_eq_ok_iff.mp h
    obtain ⟨report, hreport, h⟩ := bind_eq_ok_iff.mp h
    rw [pure_eq_ok_iff, Prod.mk.injEq] at h
    exact ⟨request, source, report, hrequest, hsource, mapError_eq_ok_iff.mp hreport, h.2⟩
  · intro h
    obtain ⟨request, source, report, hrequest, hsource, hreport, hstatus⟩ := h
    refine ⟨cmseLines (options.has (js "json")) report, bind_eq_ok_iff.mpr ⟨request, hrequest,
      bind_eq_ok_iff.mpr ⟨source, hsource, bind_eq_ok_iff.mpr
        ⟨report, mapError_eq_ok_iff.mpr hreport, ?_⟩⟩⟩⟩
    rw [pure_eq_ok_iff, hstatus]

/-- A run of the command `verify` is that verification. -/
lemma runCmse_verify (hcommand : options.parsed.command = some (js "verify"))
    (hhelp : options.has (js "help") = false) :
    runCmse world options = runVerify world options := by
  have hnotHelp : ¬(options.has (js "help") = true ∨
      options.parsed.command = some (js "help")) := by
    rw [hhelp, hcommand]
    decide
  unfold runCmse
  rw [if_neg hnotHelp, hcommand]
  dsimp only
  rw [if_neg (by decide)]

/-- A command line of `verify` ends with status 0 exactly when the verification returns it. -/
lemma cmseMain_verify_eq_zero_iff (hparsed : parseArgs argv cmseFlags = .ok parsed)
    (hcommand : parsed.command = some (js "verify"))
    (hhelp : (cmseOptions parsed env).has (js "help") = false) :
    (cmseMain world argv env).2 = 0 ↔
      ∃ lines, runVerify world (cmseOptions parsed env) = .ok (lines, 0) := by
  have hmain : cmseMain world argv env =
      (match runVerify world (cmseOptions parsed env) with
      | .ok result => result
      | .error error => cmseFailure world error) := by
    unfold cmseMain
    rw [hparsed, ← runCmse_verify hcommand hhelp]
    rfl
  rw [hmain]
  cases hverify : runVerify world (cmseOptions parsed env) with
  | error error =>
    constructor
    · intro h
      exact absurd h (cmseFailure_ne_zero world error)
    · intro h
      obtain ⟨_, h⟩ := h
      cases h
  | ok result =>
    obtain ⟨lines, status⟩ := result
    constructor
    · intro h
      change status = 0 at h
      subst h
      exact ⟨lines, rfl⟩
    · intro h
      obtain ⟨_, h⟩ := h
      cases h
      rfl

/-- **The exit status of an offline verification is a fact about the files.**  Of a command line
with `--raw-file`, `cmse verify` ends with status 0 exactly when the files it names are there and
hold, as bytes or as hex, data that verifies to the level it asks for. -/
theorem cmseMain_eq_zero_iff (hparsed : parseArgs argv cmseFlags = .ok parsed)
    (hcommand : parsed.command = some (js "verify"))
    (hhelp : (cmseOptions parsed env).has (js "help") = false)
    (hraw : (cmseOptions parsed env).string (js "raw-file") = some rawFile)
    (hkeys : ∀ raw tx, deserializeTransaction world.env.ledger raw = .ok tx →
      ∀ s ∈ tx.intents.keys, 1 ≤ s ∧ s ≤ 65535) :
    (cmseMain world argv env).2 = 0 ↔
      ∃ request saved, FilesVerify world (cmseOptions parsed env) rawFile request saved := by
  rw [cmseMain_verify_eq_zero_iff hparsed hcommand hhelp, runVerify_eq_zero_iff]
  constructor
  · intro h
    obtain ⟨request, source, report, hrequest, hsource, hreport, hstatus⟩ := h
    unfold sourceOf at hsource
    rw [hraw] at hsource
    obtain ⟨saved, hsaved, hsource⟩ := bind_eq_ok_iff.mp hsource
    have hfor := offlineData_eq_ok_iff.mp hsaved
    obtain ⟨tx, hash, hdecodes, hhash, rfl⟩ :=
      savedSource_eq_ok_iff.mp (mapError_eq_ok_iff.mp hsource)
    obtain ⟨⟨name, level⟩, hchecked, -⟩ := bind_eq_ok_iff.mp hreport
    exact ⟨request, saved, hrequest, hfor, fun key hkey => reads_of_verifyRequest hrequest hkey,
      name, level, tx, hash, hchecked, hdecodes, hhash,
      (exitStatus_saved_iff hdecodes hfor.network hchecked hreport).mp hstatus⟩
  · intro h
    obtain ⟨request, saved, hfiles⟩ := h
    obtain ⟨name, level, tx, hash, hchecked, hdecodes, hhash, hverified⟩ := hfiles.verified
    obtain ⟨report, hreport⟩ := exists_report_of_savedVerified hdecodes hfiles.holds.network
      hchecked (hkeys _ tx hdecodes) hverified
    refine ⟨request, savedAnswers saved tx hash, report, hfiles.asked, ?_, hreport,
      (exitStatus_saved_iff hdecodes hfiles.holds.network hchecked hreport).mpr hverified⟩
    unfold sourceOf
    rw [hraw]
    exact bind_eq_ok_iff.mpr ⟨saved, offlineData_eq_ok_iff.mpr hfiles.holds,
      mapError_eq_ok_iff.mpr (savedSource_eq_ok_iff.mpr ⟨tx, hash, hdecodes, hhash, rfl⟩)⟩

/-- **An offline verification asks nobody**: with `--raw-file`, everything that is printed and the
status are the same whatever an indexer or a node would answer. -/
theorem cmseMain_ignores_network (hparsed : parseArgs argv cmseFlags = .ok parsed)
    (hraw : (cmseOptions parsed env).string (js "raw-file") = some rawFile)
    (indexer : JsString → IndexerClient)
    (node : JsString → JsString → JsString → Except JsError (Option JsNumber)) :
    cmseMain { world with indexer := indexer, node := node } argv env =
      cmseMain world argv env := by
  have hsource : ∀ request, sourceOf { world with indexer := indexer, node := node }
      (cmseOptions parsed env) request = sourceOf world (cmseOptions parsed env) request := by
    intro request
    unfold sourceOf
    rw [hraw]
    rfl
  have hverify : runVerify { world with indexer := indexer, node := node }
      (cmseOptions parsed env) = runVerify world (cmseOptions parsed env) := by
    unfold runVerify
    simp only [hsource]
    rfl
  have hrun : runCmse { world with indexer := indexer, node := node } (cmseOptions parsed env) =
      runCmse world (cmseOptions parsed env) := by
    unfold runCmse
    rw [hverify]
  unfold cmseMain
  rw [hparsed]
  change (match runCmse _ _ with
    | .ok result => result
    | .error error => cmseFailure _ error) = _
  rw [hrun]
  rfl

end ExitStatus

/-! ### Saved files of one part -/

/-- A world whose files hold a saved transaction of one part, its state and the expected key. -/
def savedWorld : CmseWorld where
  root := js "/cmse"
  files := ⟨fun _ => true, fun _ => .ok [1, 2, 3]⟩
  parseUrl := fun _ => none
  env := emittedEnv (some (js "aa")) (js "proof")
  indexer := fun url => ⟨url, fun _ _ _ => .ok [], fun _ => .ok [], fun _ _ => .ok none⟩
  node := fun _ _ _ => .ok none
  isNotFound := fun _ => false

/-- A command line that verifies them to Level 3. -/
def savedArgv : List JsString :=
  [js "verify", js "--contract", List.replicate 64 (hexUnit 10), js "--name",
    js "0x" ++ bytesToHex (List.replicate 32 7), js "--verifier-key=key", js "--raw-file=tx",
    js "--status", js "SUCCESS", js "--state-file=state"]

/-- The status is 0, so the files verify. -/
theorem cmseMain_eq_zero_iff_one_part :
    ∃ parsed request saved, parseArgs savedArgv cmseFlags = .ok parsed ∧
      FilesVerify savedWorld (cmseOptions parsed fun _ => none) (js "tx") request saved := by
  have htest : (parseArgs savedArgv cmseFlags).toOption.any (fun parsed =>
      decide (parsed.command = some (js "verify") ∧
        (cmseOptions parsed fun _ => none).has (js "help") = false ∧
        (cmseOptions parsed fun _ => none).string (js "raw-file") = some (js "tx"))) = true := by
    decide +kernel
  obtain ⟨parsed, hparsed, htest⟩ := (Option.any_eq_true _ _).mp htest
  have hparsed := toOption_eq_some_iff.mp hparsed
  obtain ⟨hcommand, hhelp, hraw⟩ := of_decide_eq_true htest
  have hkeys : ∀ raw tx, deserializeTransaction savedWorld.env.ledger raw = .ok tx →
      ∀ s ∈ tx.intents.keys, 1 ≤ s ∧ s ≤ 65535 := by
    intro raw tx htx
    cases (deserialize_emitted raw).symm.trans htx
    decide
  have hstatus : (cmseMain savedWorld savedArgv fun _ => none).2 = 0 := by decide +kernel
  obtain ⟨request, saved, hfiles⟩ :=
    (cmseMain_eq_zero_iff hparsed hcommand hhelp hraw hkeys).mp hstatus
  exact ⟨parsed, request, saved, hparsed, hfiles⟩

end MultiPartEvent
