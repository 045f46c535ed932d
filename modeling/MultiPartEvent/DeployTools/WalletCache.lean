import MultiPartEvent.DeployTools.Secrets
import MultiPartEvent.Js.JsonValues
import MultiPartEvent.Reader.Bytes

/-!
# The wallet cache

`loadWalletCache` and `saveWalletCache` over any file system.  Both refuse a path that holds
anything else than a cache of the caller's wallet; a save writes a temporary file and renames it to
the path.
-/

namespace MultiPartEvent

/-! ### The envelope -/

/-- `WALLET_CACHE_KIND`. -/
def walletCacheKind : JsString := js "cmse-wallet-state-cache"

/-- `WALLET_CACHE_VERSION`. -/
def walletCacheVersion : ℤ := 1

/-- `WALLET_CACHE_SDK`. -/
def walletCacheSdk : JsString := js "wallet-sdk-facade 5.0.0-beta.2"

/-- `MAX_CACHE_BYTES`. -/
def maxCacheBytes : ℕ := 512 * 1024 * 1024

/-- The public identity a cache belongs to. -/
@[ext]
structure WalletCacheIdentity where
  networkId : JsString
  coinPublicKey : JsString
  encryptionPublicKey : JsString
  unshieldedAddress : JsString
  dustAddress : JsString
  deriving DecidableEq

/-- The identity by the names of `IDENTITY_FIELDS`. -/
def WalletCacheIdentity.fields (identity : WalletCacheIdentity) : List (JsString × JsString) :=
  [(js "networkId", identity.networkId), (js "coinPublicKey", identity.coinPublicKey),
    (js "encryptionPublicKey", identity.encryptionPublicKey),
    (js "unshieldedAddress", identity.unshieldedAddress), (js "dustAddress", identity.dustAddress)]

/-- The serialized states of the three wallets. -/
structure WalletSnapshots where
  shielded : JsString
  unshielded : JsString
  dust : JsString
  deriving DecidableEq

/-- The result of `loadWalletCache`. -/
inductive WalletCacheLoad where
  | absent
  | stale (reason : JsString)
  | restorable (savedAt : JsString) (snapshots : WalletSnapshots)
  deriving DecidableEq

/-- `object[key] === text`. -/
def isText (value : Option Json) (text : JsString) : Bool :=
  match value with
  | some (.string s) => s = text
  | _ => false

/-- `value === 1`.  A number read from a text is known by its exact value; the double it stands for
is 1 when 1 is the nearest one, ties going to 1, whose last bit is 0. -/
def isOne (value : Option Json) : Bool :=
  match value with
  | some (.number n) =>
    match n.finite? with
    | some q => 1 - 1 / 2 ^ 54 ≤ q ∧ q ≤ 1 + 1 / 2 ^ 53
    | none => false
  | _ => false

/-- The parsed text is a cache envelope: an object with the kind of one. -/
def envelopeOf (parsed : Option Json) : Option Members :=
  match parsed with
  | some (.object members) =>
    if isText (member? members (js "kind")) walletCacheKind then some members else none
  | _ => none

/-- The members of the envelope `saveWalletCache` writes. -/
def envelopeMembers (identity : WalletCacheIdentity) (savedAt : JsString)
    (snapshots : WalletSnapshots) : Members :=
  [(js "kind", .string walletCacheKind), (js "version", .number (.int walletCacheVersion)),
    (js "sdk", .string walletCacheSdk)] ++
    (identity.fields.map fun field => (field.1, Json.string field.2)) ++
    [(js "savedAt", .string savedAt), (js "shielded", .string snapshots.shielded),
      (js "unshielded", .string snapshots.unshielded), (js "dust", .string snapshots.dust)]

/-- The text of the cache file. -/
def envelopeText (identity : WalletCacheIdentity) (savedAt : JsString)
    (snapshots : WalletSnapshots) : JsString :=
  (Json.object (envelopeMembers identity savedAt snapshots)).stringify ++ js "\n"

/-! ### Loading -/

variable {σ φ : Type}

/-- `assertLocation(path, allowInsideRepository)`. -/
def assertLocation (fs : FileSystem σ φ) (cwd path : JsString) (allowInsideRepository : Bool) :
    Action FileError σ Unit :=
  Action.runUnless allowInsideRepository do
    match ← Action.look (repositoryOf fs cwd path) with
    | none => return ()
    | some repository => Action.fail (.walletCacheError path (insideRepository [] repository))

/-- The first `try` of `readEnvelope`: the file's `lstatSync`, if there is a file. -/
def statFile (fs : FileSystem σ φ) (path : JsString) : Action FileError σ (Option Stats) :=
  Action.catching (do return some (← fs.lstatSync path)) fun error =>
    if error.code = js "ENOENT" then return none
    else Action.fail (.walletCacheError path (js "cannot be read (" ++ error.code ++ js ")"))

/-- The second `try` of `readEnvelope`: the file's JSON value, if it can be read and is one. -/
def parseFile (fs : FileSystem σ φ) (path : JsString) : Action FileError σ (Option Json) :=
  Action.catching (do return readJson (fileText (← fs.readFileSync path))) fun _ => return none

/-- `readEnvelope(path)`. -/
def readEnvelope (fs : FileSystem σ φ) (path : JsString) : Action FileError σ (Option Members) := do
  match ← statFile fs path with
  | none => return none
  | some stats => do
    Action.failIf (stats.isSymbolicLink = true) (.walletCacheError path (js "is a symbolic link"))
    Action.failIf (stats.isFile = false) (.walletCacheError path (js "is not a regular file"))
    Action.failIf (stats.mode &&& 0o077 ≠ 0) (.walletCacheError path (looseMode stats.mode))
    Action.failIf (stats.size > maxCacheBytes) (.walletCacheError path (js "is too large"))
    let parsed ← parseFile fs path
    match envelopeOf parsed with
    | none => Action.fail (.walletCacheError path (js ("exists but is not a wallet cache; " ++
        "refusing to use or overwrite it (choose another path)")))
    | some members => return some members

/-- The five identity fields of the envelope are those of the identity. -/
def belongsTo (members : Members) (identity : WalletCacheIdentity) : Bool :=
  identity.fields.all fun field => isText (member? members field.1) field.2

/-- `assertIdentity(path, envelope, identity)`. -/
def assertIdentity (path : JsString) (members : Members) (identity : WalletCacheIdentity) :
    Action FileError σ Unit :=
  Action.failIf (belongsTo members identity = false) (.walletCacheError path
    (js ("belongs to a different wallet or network; " ++
      "refusing to use or overwrite it (choose another path)")))

/-- What `loadWalletCache` makes of an envelope of the caller. -/
def loadEnvelope (members : Members) : WalletCacheLoad :=
  if ¬(isOne (member? members (js "version")) ∧
    isText (member? members (js "sdk")) walletCacheSdk) then
    .stale (js "it was written by another version; syncing from the start")
  else
    match member? members (js "shielded"), member? members (js "unshielded"),
      member? members (js "dust"), member? members (js "savedAt") with
    | some (.string shielded), some (.string unshielded), some (.string dust),
      some (.string savedAt) =>
      .restorable savedAt ⟨shielded, unshielded, dust⟩
    | _, _, _, _ => .stale (js "it is incomplete; syncing from the start")

/-- `loadWalletCache(path, identity, options)`. -/
def loadWalletCache (fs : FileSystem σ φ) (cwd path : JsString) (identity : WalletCacheIdentity)
    (allowInsideRepository : Bool) : Action FileError σ WalletCacheLoad := do
  assertLocation fs cwd path allowInsideRepository
  match ← readEnvelope fs path with
  | none => return .absent
  | some members => do
    assertIdentity path members identity
    return loadEnvelope members

/-! ### Saving -/

/-- What `saveWalletCache` is called with, besides the path. -/
structure SaveRequest where
  identity : WalletCacheIdentity
  snapshots : WalletSnapshots
  /-- `options.now`, or the current time. -/
  now : JsDate
  allowInsideRepository : Bool
  /-- `process.pid`. -/
  pid : ℕ
  /-- `randomBytes(6)`. -/
  random : Bytes

/-- The name of the temporary file. -/
def temporaryName (path : JsString) (pid : ℕ) (random : Bytes) : JsString :=
  js "." ++ basename path ++ js ".tmp-" ++ decimal pid ++ js "-" ++ bytesToHex random

/-- The path of the temporary file. -/
def temporaryPath (cwd path : JsString) (pid : ℕ) (random : Bytes) : JsString :=
  absolutePath (parentNames cwd path ++ [temporaryName path pid random])

/-- The error `saveWalletCache` throws for an error of its writes. -/
def writeFailure (path : JsString) : FileError → FileError
  | .walletCacheError other detail => .walletCacheError other detail
  | error => .walletCacheError path (js "cannot be written (" ++ error.code ++ js ")")

/-- The `try` block of `saveWalletCache`: the temporary file is written and renamed to the path. -/
def writeAndRename (fs : FileSystem σ φ) (parent temporary path text : JsString) :
    Action FileError σ Unit := do
  makeParent fs parent
  let fd ← fs.openSync temporary
  writeText fs fd text
  fs.renameSync temporary path

/-- The `try` statement of `saveWalletCache`: on an error the temporary file is removed. -/
def replaceFile (fs : FileSystem σ φ) (parent temporary path text : JsString) :
    Action FileError σ Unit :=
  Action.catching (writeAndRename fs parent temporary path text) fun error => do
    fs.rmSync temporary
    Action.fail (writeFailure path error)

/-- `if (existing !== undefined) assertIdentity(path, existing, identity)`. -/
def assertReplaceable (path : JsString) (identity : WalletCacheIdentity) :
    Option Members → Action FileError σ Unit
  | none => return ()
  | some members => assertIdentity path members identity

/-- `saveWalletCache(path, identity, snapshots, options)`. -/
def saveWalletCache (fs : FileSystem σ φ) (cwd path : JsString) (request : SaveRequest) :
    Action FileError σ Unit := do
  assertLocation fs cwd path request.allowInsideRepository
  let existing ← readEnvelope fs path
  assertReplaceable path request.identity existing
  let savedAt ← (request.now.toISOString.mapError .language : Except FileError JsString)
  replaceFile fs (parentPath cwd path)
    (temporaryPath cwd path request.pid request.random) path
    (envelopeText request.identity savedAt request.snapshots)

end MultiPartEvent
