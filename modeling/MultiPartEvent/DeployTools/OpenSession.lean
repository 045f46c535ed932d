import MultiPartEvent.DeployTools.CommandState
import MultiPartEvent.DeployTools.SessionRules

/-!
# Opening wallet sessions, one after the other

`WalletSession.open` reads the mnemonic, derives the keys, loads the cache and starts the wallet:
each of its three parts is restored from its snapshot or, where there is none or the SDK cannot
restore it, syncs from the start.  `SessionChain` is what several sessions, of any wallets, do to
one cache file when they run one after the other, each with an interleaving of its calls.

A session restores what was saved last (`restored_was_saved`): the snapshots are those that the last
save of the chain wrote, and that save was made by a session of the same wallet, with the state of a
complete sync, before that session built a transaction.
-/

namespace MultiPartEvent

/-! ### Opening a session -/

/-- What happens while a session opens. -/
inductive OpenEvent where
  | log (line : JsString)
  /-- A wallet is restored from a snapshot. -/
  | restored (wallet : SubWallet) (snapshot : JsString)
  /-- A wallet syncs from the start. -/
  | fresh (wallet : SubWallet)
  /-- The wallet runs. -/
  | started
  /-- The keys are cleared. -/
  | cleared
  deriving DecidableEq

/-- The files, and what has happened. -/
structure OpenState where
  files : Files
  events : List OpenEvent

/-- `WalletSessionOptions`: what `open` reads of them. -/
structure OpenOptions where
  networkId : JsString
  mnemonicFile : JsString
  feeBlocksMargin : Option JsNumber
  stateCacheFile : Option JsString

/-- What opening a session calls: the machine's files, the key derivation and the wallet SDK. -/
structure Opening where
  options : OpenOptions
  cwd : JsString
  /-- `statSync`: device and inode of a path. -/
  inode : JsString → Option (ℕ × ℕ)
  /-- How the file-system calls on the mnemonic file and on the cache turn out. -/
  reading : Outcomes
  loading : Outcomes
  /-- The endpoints parse as URLs. -/
  endpoints : Except JsError Unit
  toLowerCase : JsString → JsString
  /-- `validateMnemonic(phrase, english)`. -/
  validateMnemonic : JsString → Bool
  /-- `deriveWalletKeys(mnemonic, networkId)`. -/
  deriveWalletKeys : JsString → JsString → Except JsError Opaque
  /-- `publicIdentity(keys, networkId)`. -/
  publicIdentity : Opaque → JsString → Except JsError PublicWalletIdentity
  /-- The SDK's `restore(snapshot)` works. -/
  restores : SubWallet → JsString → Bool
  /-- The SDK starts a wallet from its keys. -/
  starts : SubWallet → Except JsError Unit
  /-- `WalletFacade.init` and `start`, once the three wallets are there: the session. -/
  session : PublicWalletIdentity → Except JsError WalletSession
  session_identity : ∀ identity w, session identity = .ok w → w.identity = identity
  session_cacheFile : ∀ identity w, session identity = .ok w → w.cacheFile = options.stateCacheFile

/-- Code of `open`. -/
abbrev OpenAction := Action SessionError OpenState

/-- Something happens. -/
def openEvent (event : OpenEvent) : OpenAction Unit := fun s =>
  (.ok (), { s with events := s.events ++ [event] })

/-- A call on the files. -/
def onFiles {α : Type} (x : Action FileError Files α) : OpenAction α := fun s =>
  match x s.files with
  | (.ok a, files) => (.ok a, { s with files := files })
  | (.error error, files) => (.error (.file error), { s with files := files })

/-- `sameFile(path, other)`. -/
def sameFile (opening : Opening) (path other : JsString) : Bool :=
  resolveNames opening.cwd path = resolveNames opening.cwd other ||
    match opening.inode path, opening.inode other with
    | some a, some b => a = b
    | _, _ => false

/-- `text.split(/\s+/u)`, of a trimmed text. -/
def splitWhitespace (text : JsString) : List JsString :=
  (text.splitOnP (trimmedUnits.contains ·)).filter (· ≠ [])

/-- The largest fee headroom, in blocks. -/
def maxFeeBlocksMargin : ℕ := 100

/-- The default fee headroom, in blocks. -/
def defaultFeeBlocksMargin : JsNumber := .int 5

/-- `walletFacadeConfiguration(network, feeBlocksMargin)`: its checks. -/
def checkConfiguration (opening : Opening) : Except JsError Unit := do
  match (opening.options.feeBlocksMargin.getD defaultFeeBlocksMargin).inRange 0 maxFeeBlocksMargin
    with
  | none => .error (.rangeError (js "the fee margin must be an integer from 0 to " ++
      decimal maxFeeBlocksMargin ++ js " blocks"))
  | some _ => opening.endpoints

/-- `readMnemonicFile(path)`. -/
def readMnemonicFile (opening : Opening) : OpenAction JsString := do
  let path := opening.options.mnemonicFile
  let text ← onFiles (readProtectedFile (fileSystem opening.reading) path)
  let phrase := opening.toLowerCase (joinWith (js " ") (splitWhitespace (trimText text)))
  let count := (phrase.splitOn (charUnit ' ')).length
  Action.failIf (count ∉ [12, 15, 18, 21, 24]) (.file (.secretFileError path
    (js "holds " ++ decimal count ++ js " words; a BIP-39 mnemonic has 12-24")))
  Action.failIf (opening.validateMnemonic phrase = false) (.file (.secretFileError path
    (js "is not a valid English BIP-39 mnemonic (checksum or word)")))
  return phrase

/-- The snapshot of one wallet. -/
def WalletSnapshots.of (snapshots : WalletSnapshots) : SubWallet → JsString
  | .shielded => snapshots.shielded
  | .unshielded => snapshots.unshielded
  | .dust => snapshots.dust

/-- The name of a wallet in the lines of `open`. -/
def SubWallet.shownName : SubWallet → JsString
  | .shielded => js "shielded"
  | .unshielded => js "unshielded"
  | .dust => js "DUST"

/-- The snapshots that `open` loads, if any. -/
def loadSnapshots (opening : Opening) (identity : PublicWalletIdentity) :
    OpenAction (Option WalletSnapshots) := do
  match opening.options.stateCacheFile with
  | none => return none
  | some path => do
    let loaded ← onFiles (loadWalletCache (fileSystem opening.loading) opening.cwd path
      identity.toWalletCacheIdentity false)
    match loaded with
    | .restorable savedAt snapshots => do
      openEvent (.log (js "wallet cache       restoring the state saved at " ++ savedAt))
      return some snapshots
    | .stale reason => do
      openEvent (.log (js "wallet cache       not restored: " ++ reason))
      return none
    | .absent => do
      openEvent (.log
        (js "wallet cache       none yet; it is written after the first complete sync"))
      return none

/-- `fresh()`. -/
def startFresh (opening : Opening) (wallet : SubWallet) : OpenAction Unit := do
  openEvent (.fresh wallet)
  ((opening.starts wallet).mapError .language : Except SessionError Unit)

/-- `restoreOr(name, snapshot, restore, fresh)`. -/
def restoreOr (opening : Opening) (snapshots : Option WalletSnapshots) (wallet : SubWallet) :
    OpenAction Unit := do
  match snapshots with
  | none => startFresh opening wallet
  | some snapshots =>
    if opening.restores wallet (snapshots.of wallet) then
      openEvent (.restored wallet (snapshots.of wallet))
    else do
      openEvent (.log (js "wallet cache       the " ++ wallet.shownName ++
        js " state could not be restored; syncing it from the start"))
      startFresh opening wallet

/-- The `try` block of `open`. -/
def startWallet (opening : Opening) (keys : Opaque) : OpenAction WalletSession := do
  let identity ← ((opening.publicIdentity keys opening.options.networkId).mapError .language :
    Except SessionError PublicWalletIdentity)
  let snapshots ← loadSnapshots opening identity
  restoreOr opening snapshots .shielded
  restoreOr opening snapshots .unshielded
  restoreOr opening snapshots .dust
  let session ← ((opening.session identity).mapError .language : Except SessionError WalletSession)
  openEvent .started
  return session

/-- The cache file is not the mnemonic file. -/
def assertNotMnemonic (opening : Opening) : OpenAction Unit :=
  match opening.options.stateCacheFile with
  | none => return ()
  | some path =>
    Action.failIf (sameFile opening path opening.options.mnemonicFile = true)
      (.file (.walletCacheError path (js "is the mnemonic file; choose another path")))

/-- `WalletSession.open(options)`. -/
def openSession (opening : Opening) : OpenAction WalletSession := do
  assertNotMnemonic opening
  ((checkConfiguration opening).mapError .language : Except SessionError Unit)
  let phrase ← readMnemonicFile opening
  let keys ← ((opening.deriveWalletKeys phrase opening.options.networkId).mapError .language :
    Except SessionError Opaque)
  Action.catching (startWallet opening keys) fun error => do
    openEvent .cleared
    Action.fail error

/-! ### What an opened session has restored -/

section Opened

variable {opening : Opening} {s s' : OpenState} {identity : PublicWalletIdentity}

/-- A load of the cache gives the snapshots. -/
def Loads (opening : Opening) (files : Files) (identity : PublicWalletIdentity)
    (snapshots : WalletSnapshots) : Prop :=
  ∃ path savedAt, opening.options.stateCacheFile = some path ∧
    (loadWalletCache (fileSystem opening.loading) opening.cwd path identity.toWalletCacheIdentity
      false).Returns files (.restorable savedAt snapshots) files

/-- What an event of `open` restores comes from the snapshots. -/
def RestoresFrom (all : WalletSnapshots → Prop) (events : List OpenEvent) : Prop :=
  ∀ wallet snapshot, .restored wallet snapshot ∈ events →
    ∃ snapshots, all snapshots ∧ snapshot = snapshots.of wallet

/-- Other events restore nothing. -/
lemma RestoresFrom.concat {all : WalletSnapshots → Prop} {events : List OpenEvent}
    {event : OpenEvent} (h : RestoresFrom all events)
    (hevent : ∀ wallet snapshot, event = .restored wallet snapshot →
      ∃ snapshots, all snapshots ∧ snapshot = snapshots.of wallet) :
    RestoresFrom all (events ++ [event]) := by
  intro wallet snapshot hmem
  rw [List.mem_append, List.mem_singleton] at hmem
  rcases hmem with hmem | heq
  · exact h wallet snapshot hmem
  · exact hevent wallet snapshot heq.symm

/-- What holds while a wallet starts: the files stay, and only loaded snapshots are restored. -/
structure Starting (all : WalletSnapshots → Prop) (files : Files) (s : OpenState) : Prop where
  files : s.files = files
  restored : RestoresFrom all s.events

variable {all : WalletSnapshots → Prop} {files : Files}

/-- An event that restores nothing. -/
lemma keeps_openEvent {event : OpenEvent}
    (hevent : ∀ wallet snapshot, event = .restored wallet snapshot →
      ∃ snapshots, all snapshots ∧ snapshot = snapshots.of wallet) :
    Action.Keeps (Starting all files) (openEvent event) :=
  fun _ hs => ⟨hs.files, hs.restored.concat hevent⟩

/-- Logging a line restores nothing. -/
lemma keeps_openLog (line : JsString) : Action.Keeps (Starting all files) (openEvent (.log line)) :=
  keeps_openEvent fun _ _ heq => absurd heq (by intro h; cases h)

/-- A wallet that starts from its keys. -/
lemma keeps_startFresh (wallet : SubWallet) :
    Action.Keeps (Starting all files) (startFresh opening wallet) := by
  unfold startFresh
  refine (keeps_openEvent fun _ _ heq => absurd heq (by intro h; cases h)).bind fun _ => ?_
  exact Action.keeps_lift _

/-- A wallet that is restored, or starts from its keys. -/
lemma keeps_restoreOr {snapshots : Option WalletSnapshots}
    (hsnapshots : ∀ loaded, snapshots = some loaded → all loaded) (wallet : SubWallet) :
    Action.Keeps (Starting all files) (restoreOr opening snapshots wallet) := by
  unfold restoreOr
  split
  · exact keeps_startFresh wallet
  · rename_i loaded
    split_ifs
    · refine keeps_openEvent ?_
      intro wallet' snapshot heq
      cases heq
      exact ⟨loaded, hsnapshots loaded rfl, rfl⟩
    · exact (keeps_openLog _).bind fun _ => keeps_startFresh wallet

/-- Loading the cache changes no file. -/
lemma keeps_loadSnapshots :
    Action.Keeps (Starting all files) (loadSnapshots opening identity) := by
  unfold loadSnapshots
  split
  · exact Action.keeps_pure _
  · rename_i path _
    refine Action.Keeps.bind ?_ fun loaded => ?_
    · intro s hs
      have hsame := load_unchanged opening.loading opening.cwd path identity.toWalletCacheIdentity
        false s.files
      unfold onFiles
      split
      · rename_i a files' hload
        rw [hload] at hsame
        exact ⟨hsame.trans hs.files, hs.restored⟩
      · rename_i error files' hload
        rw [hload] at hsame
        exact ⟨hsame.trans hs.files, hs.restored⟩
    · split
      · exact (keeps_openLog _).bind fun _ => Action.keeps_pure _
      · exact (keeps_openLog _).bind fun _ => Action.keeps_pure _
      · exact (keeps_openLog _).bind fun _ => Action.keeps_pure _

/-- The snapshots that are loaded are those of the cache. -/
lemma loads_of_loadSnapshots {snapshots : WalletSnapshots}
    (h : (loadSnapshots opening identity).Returns s (some snapshots) s') :
    Loads opening s.files identity snapshots := by
  unfold loadSnapshots at h
  split at h
  · exact absurd (Action.returns_pure_iff.mp h).1 (Option.some_ne_none _).symm
  · rename_i path hpath
    obtain ⟨loaded, middle, hload, hrest⟩ := Action.returns_bind_iff.mp h
    split at hrest
    · rename_i savedAt found
      obtain ⟨_, _, -, hsome⟩ := Action.returns_bind_iff.mp hrest
      obtain ⟨hfound, -⟩ := Action.returns_pure_iff.mp hsome
      cases hfound
      refine ⟨path, savedAt, hpath, ?_⟩
      have hsame := load_unchanged opening.loading opening.cwd path identity.toWalletCacheIdentity
        false s.files
      unfold Action.Returns onFiles at hload
      split at hload
      · rename_i a files' hloaded
        rw [hloaded] at hsame
        cases hload
        cases hsame
        exact hloaded
      · cases hload
    · obtain ⟨_, _, -, hnone⟩ := Action.returns_bind_iff.mp hrest
      exact absurd (Action.returns_pure_iff.mp hnone).1 (Option.some_ne_none _).symm
    · obtain ⟨_, _, -, hnone⟩ := Action.returns_bind_iff.mp hrest
      exact absurd (Action.returns_pure_iff.mp hnone).1 (Option.some_ne_none _).symm

/-- Reading a protected file changes no file. -/
lemma keeps_readProtectedText {I : Files → Prop} (outcomes : Outcomes) (path : JsString) :
    Action.Keeps I (readProtectedFile (fileSystem outcomes) path) := by
  have hlstat : Action.Keeps I ((fileSystem outcomes).lstatSync path) := by
    refine keeps_attempt ?_ _
    intro files hfiles
    cases hentry : files path <;> simpa [hentry] using hfiles
  have hread : Action.Keeps I ((fileSystem outcomes).readFileSync path) := by
    refine keeps_attempt ?_ _
    intro files hfiles
    simp only
    split <;> exact hfiles
  unfold readProtectedFile
  refine (hlstat.catching fun error => Action.keeps_fail _).bind fun stats => ?_
  refine (Action.keeps_failIf _ _).bind fun _ => ?_
  refine (Action.keeps_failIf _ _).bind fun _ => ?_
  refine (Action.keeps_failIf _ _).bind fun _ => ?_
  refine (Action.keeps_failIf _ _).bind fun _ => ?_
  refine (Action.keeps_failIf _ _).bind fun _ => ?_
  exact hread.bind fun bytes => Action.keeps_pure _

/-- Reading the mnemonic changes nothing. -/
lemma keeps_readMnemonicFile : Action.Keeps (Starting all files) (readMnemonicFile opening) := by
  unfold readMnemonicFile
  refine Action.Keeps.bind ?_ fun text => ?_
  · intro s hs
    have hkept := keeps_readProtectedText (I := fun files' => files' = files) opening.reading
      opening.options.mnemonicFile s.files hs.files
    unfold onFiles
    split
    · rename_i a files' hread
      rw [hread] at hkept
      exact ⟨hkept, hs.restored⟩
    · rename_i error files' hread
      rw [hread] at hkept
      exact ⟨hkept, hs.restored⟩
  · refine (Action.keeps_failIf _ _).bind fun _ => ?_
    exact (Action.keeps_failIf _ _).bind fun _ => Action.keeps_pure _

/-- The checks before the mnemonic is read change nothing. -/
lemma keeps_assertNotMnemonic : Action.Keeps (Starting all files) (assertNotMnemonic opening) := by
  unfold assertNotMnemonic
  split
  · exact Action.keeps_pure _
  · exact Action.keeps_failIf _ _

/-- What a wallet that starts has restored. -/
lemma starting_of_startWallet {keys : Opaque} {w : WalletSession}
    (hstart : Starting (fun _ => False) files s)
    (h : (startWallet opening keys).Returns s w s') :
    Starting (Loads opening files w.identity) files s' ∧
      w.cacheFile = opening.options.stateCacheFile := by
  unfold startWallet at h
  obtain ⟨identity, _, hidentity, h⟩ := Action.returns_bind_iff.mp h
  obtain ⟨-, rfl⟩ := Action.returns_lift_iff.mp hidentity
  obtain ⟨snapshots, loaded, hload, h⟩ := Action.returns_bind_iff.mp h
  have hnone := keeps_loadSnapshots.of_returns hstart hload
  have hloads : ∀ found, snapshots = some found → Loads opening files identity found := by
    rintro found rfl
    rw [← hstart.files]
    exact loads_of_loadSnapshots hload
  have hbefore : Starting (Loads opening files identity) files loaded := by
    refine ⟨hnone.files, ?_⟩
    intro wallet snapshot hmem
    obtain ⟨_, hfalse, -⟩ := hnone.restored wallet snapshot hmem
    exact absurd hfalse id
  obtain ⟨_, first, hshielded, h⟩ := Action.returns_bind_iff.mp h
  obtain ⟨_, second, hunshielded, h⟩ := Action.returns_bind_iff.mp h
  obtain ⟨_, third, hdust, h⟩ := Action.returns_bind_iff.mp h
  obtain ⟨session, _, hsession, h⟩ := Action.returns_bind_iff.mp h
  obtain ⟨hok, rfl⟩ := Action.returns_lift_iff.mp hsession
  obtain ⟨_, fourth, hstarted, h⟩ := Action.returns_bind_iff.mp h
  obtain ⟨rfl, rfl⟩ := Action.returns_pure_iff.mp h
  have hmade := mapError_eq_ok_iff.mp hok
  have hkept := (keeps_restoreOr hloads _).of_returns ((keeps_restoreOr hloads _).of_returns
    ((keeps_restoreOr hloads _).of_returns hbefore hshielded) hunshielded) hdust
  rw [opening.session_identity _ _ hmade]
  refine ⟨?_, opening.session_cacheFile _ _ hmade⟩
  exact (keeps_openEvent fun _ _ heq => absurd heq (by intro h; cases h)).of_returns hkept hstarted

/-- A session that opens has changed no file and restored only what its cache holds. -/
lemma starting_of_openSession {w : WalletSession}
    (h : (openSession opening).Returns ⟨files, []⟩ w s') :
    Starting (Loads opening files w.identity) files s' ∧
      w.cacheFile = opening.options.stateCacheFile := by
  have hstart : Starting (fun _ => False) files ⟨files, []⟩ :=
    ⟨rfl, fun _ _ hmem => absurd hmem List.not_mem_nil⟩
  unfold openSession at h
  obtain ⟨_, first, hfirst, h⟩ := Action.returns_bind_iff.mp h
  obtain ⟨_, _, hconfiguration, h⟩ := Action.returns_bind_iff.mp h
  obtain ⟨-, rfl⟩ := Action.returns_lift_iff.mp hconfiguration
  obtain ⟨phrase, second, hphrase, h⟩ := Action.returns_bind_iff.mp h
  obtain ⟨keys, _, hkeys, h⟩ := Action.returns_bind_iff.mp h
  obtain ⟨-, rfl⟩ := Action.returns_lift_iff.mp hkeys
  have hread := keeps_readMnemonicFile.of_returns
    (keeps_assertNotMnemonic.of_returns hstart hfirst) hphrase
  rcases Action.returns_catching_iff.mp h with hbody | ⟨error, middle, -, hhandler⟩
  · exact starting_of_startWallet hread hbody
  · obtain ⟨_, _, -, hfail⟩ := Action.returns_bind_iff.mp hhandler
    exact absurd hfail Action.not_returns_fail

/-- A load restores what a save has left at the path, and only for the wallet that saved it. -/
lemma restores_left {outcomes : Outcomes} {cwd path savedAt : JsString} {entry : FileEntry}
    {request : SaveRequest} {owner : WalletCacheIdentity} {snapshots : WalletSnapshots}
    {allow : Bool} (hleft : LeftBy request entry) (hentry : files path = some entry)
    (hload : (loadWalletCache (fileSystem outcomes) cwd path owner allow).Returns files
      (.restorable savedAt snapshots) files) :
    request.identity = owner ∧ snapshots = request.snapshots := by
  obtain ⟨writing, time, -, rfl⟩ := hleft
  obtain ⟨-, hfound, -⟩ := returns_loadWalletCache_iff.mp hload
  rcases hfound with ⟨-, habsent⟩ | ⟨members, haccepted, hbelongs, hloaded⟩
  · cases habsent
  obtain ⟨entry, hsome, hcache⟩ := haccepted.cacheAt
  cases hentry.symm.trans hsome
  by_cases hwhole : (textEncode (envelopeText request.identity time request.snapshots)).length ≤
      writing.written + 1
  · have hsaved := cacheAt_savedFile hwhole
    obtain ⟨-, howner, hrestorable⟩ := envelope_facts request.identity time request.snapshots
    refine ⟨OwnedBy.unique ⟨_, hsaved, howner⟩ ⟨members, hcache, hbelongs⟩, ?_⟩
    rw [hcache.unique hsaved, hrestorable] at hloaded
    cases hloaded
    rfl
  · exact absurd hcache (not_cacheAt_savedFile (lt_of_not_ge hwhole))

end Opened

/-! ### One session after another -/

/-- A session of the chain: the wallet, what happened while it opened, and what happened then. -/
structure SessionRecord where
  session : WalletSession
  opened : List OpenEvent
  history : SessionHistory

/-- Sessions of any wallets, one after the other, on the same files.  None of them has another cache
file than the path; each ends at some point of some interleaving of its calls. -/
inductive SessionChain (path : JsString) (start : Files) : List SessionRecord → Files → Prop
  | start : SessionChain path start [] start
  | session {records : List SessionRecord} {files : Files} {opening : Opening} {w : WalletSession}
      {opened : OpenState} {ι : Type} [DecidableEq ι] {calls : ι → SessionCall} {rounds : ι → ℕ}
      {s : Together ι SessionError SessionState Unit}
      (before : SessionChain path start records files)
      (hopen : (openSession opening).Returns ⟨files, []⟩ w opened)
      (honly : ∀ other, opening.options.stateCacheFile = some other → other = path)
      (hreach : Reaches (interleavedStep (allShared SessionState)) (fun _ _ => True)
        (sessionCalls w opened.files calls rounds) s) :
      SessionChain path start (records ++ [⟨w, opened.events, s.shared.history⟩]) s.shared.files

/-- What the sessions of a chain have done, in order. -/
def chainHistory (records : List SessionRecord) : SessionHistory :=
  records.flatMap SessionRecord.history

/-- A session has saved this: its wallet, the state of a complete sync, nothing built before. -/
def SessionRecord.HasSaved (record : SessionRecord) (request : SaveRequest) : Prop :=
  ∃ before after, record.history = before ++ .saved request :: after ∧
    record.session.MaySave before request ∧ Follows record.session.Allows record.history

/-- Where a snapshot that is restored comes from, after the earlier sessions of a chain: from the
last save, made by one of them; or, before any save, from a cache of the wallet that was there at
first. -/
def ComesFrom (path : JsString) (start : Files) (earlier : List SessionRecord)
    (identity : WalletCacheIdentity) (wallet : SubWallet) (snapshot : JsString) : Prop :=
  match lastSave (chainHistory earlier) with
  | some request => request.identity = identity ∧ snapshot = request.snapshots.of wallet ∧
      ∃ record ∈ earlier, record.HasSaved request
  | none => ∃ entry members savedAt snapshots, start path = some entry ∧ CacheAt entry members ∧
      belongsTo members identity = true ∧ Holds members savedAt snapshots ∧
      snapshot = snapshots.of wallet

section Chain

variable {path : JsString} {start files : Files} {records : List SessionRecord}

/-- The last save of a history in two parts. -/
lemma lastSave_append (earlier later : SessionHistory) :
    lastSave (earlier ++ later) = (lastSave later).or (lastSave earlier) := by
  unfold lastSave
  rw [List.filterMap_append, List.getLast?_append]

/-- The last save of a history is in it. -/
lemma mem_of_lastSave {history : SessionHistory} {request : SaveRequest}
    (h : lastSave history = some request) : .saved request ∈ history := by
  have hmem := List.mem_of_getLast? h
  obtain ⟨event, hevent, hsave⟩ := List.mem_filterMap.mp hmem
  cases event with
  | saved other =>
    cases hsave
    exact hevent
  | _ => cases hsave

/-- What a path holds after some saves and some more. -/
lemma HoldsLast.trans {middle : Files} {first second : Option SaveRequest}
    (h : HoldsLast path start middle first) (h' : HoldsLast path middle files second) :
    HoldsLast path start files (second.or first) := by
  cases second with
  | some request => exact h'
  | none =>
    rw [Option.none_or]
    unfold HoldsLast at h h' ⊢
    simp only at h'
    cases first with
    | none => exact h'.trans h
    | some request =>
      simp only at h ⊢
      rwa [h']

/-- A save of a session whose history follows its rules. -/
lemma SessionRecord.hasSaved {record : SessionRecord} {request : SaveRequest}
    (hfollows : Follows record.session.Allows record.history)
    (hmem : .saved request ∈ record.history) : record.HasSaved request := by
  obtain ⟨before, after, hsplit⟩ := List.append_of_mem hmem
  exact ⟨before, after, hsplit, hfollows before _ after hsplit, hfollows⟩

/-- The sessions of a chain follow their rules, and the path holds what was saved last. -/
lemma SessionChain.holds (h : SessionChain path start records files) :
    (∀ record ∈ records, Follows record.session.Allows record.history) ∧
      HoldsLast path start files (lastSave (chainHistory records)) := by
  induction h with
  | start => exact ⟨fun _ hmem => absurd hmem List.not_mem_nil, rfl⟩
  | session before hopen honly hreach ih =>
    obtain ⟨hfollows, hheld⟩ := ih
    obtain ⟨hstarting, hcache⟩ := starting_of_openSession hopen
    have hinv := sessionInv_of_reaches hreach
    constructor
    · intro record hmem
      rcases List.mem_append.mp hmem with hmem | hmem
      · exact hfollows record hmem
      · cases List.mem_singleton.mp hmem
        exact hinv.follows
    · have hmine := hinv.file path fun other hother => honly other (hcache ▸ hother)
      rw [hstarting.files] at hmine
      have hall := hheld.trans hmine
      rw [← lastSave_append] at hall
      rw [chainHistory, List.flatMap_append]
      simpa [chainHistory] using hall

/-- What the next session restores comes from the earlier ones, or was there at first. -/
lemma SessionChain.comesFrom (h : SessionChain path start records files)
    {opening : Opening} {identity : PublicWalletIdentity} {snapshots : WalletSnapshots}
    (honly : ∀ other, opening.options.stateCacheFile = some other → other = path)
    (hloads : Loads opening files identity snapshots) (wallet : SubWallet) :
    ComesFrom path start records identity.toWalletCacheIdentity wallet (snapshots.of wallet) := by
  obtain ⟨hfollows, hheld⟩ := h.holds
  obtain ⟨other, savedAt, hother, hload⟩ := hloads
  cases honly other hother
  unfold ComesFrom
  cases hlast : lastSave (chainHistory records) with
  | some request =>
    rw [hlast] at hheld
    obtain ⟨entry, hentry, hleft⟩ := hheld
    obtain ⟨howner, rfl⟩ := restores_left hleft hentry hload
    refine ⟨howner, rfl, ?_⟩
    obtain ⟨record, hrecord, hmem⟩ := List.mem_flatMap.mp (mem_of_lastSave hlast)
    exact ⟨record, hrecord, SessionRecord.hasSaved (hfollows record hrecord) hmem⟩
  | none =>
    rw [hlast] at hheld
    have hsame : files path = start path := hheld
    obtain ⟨entry, members, hentry, hcache, hbelongs, -, hholds⟩ :=
      (cacheContract opening.cwd path files).restorable _ _ _ _ _ _ hload
    exact ⟨entry, members, savedAt, snapshots, hsame ▸ hentry, hcache, hbelongs, hholds, rfl⟩

/-- **A session restores what was saved last.**  In every chain of sessions, of any wallets, with
any failures of the file-system calls and any interleavings of their calls: a snapshot that a
session restores is the one of the last save before it, which a session of the same wallet made with
the state of a complete sync before it had built anything; before any save, it was at the path at
first, in a cache of that wallet. -/
theorem restored_was_saved (path : JsString) (start files : Files) (records : List SessionRecord)
    (h : SessionChain path start records files) (i : ℕ) (record : SessionRecord)
    (hrecord : records[i]? = some record) (wallet : SubWallet) (snapshot : JsString)
    (hrestored : .restored wallet snapshot ∈ record.opened) :
    ComesFrom path start (records.take i) record.session.identity.toWalletCacheIdentity wallet
      snapshot := by
  induction h with
  | start => cases hrecord
  | @session records files opening w opened ι _ calls rounds s before hopen honly hreach ih =>
    rcases Nat.lt_trichotomy i records.length with hlt | heq | hgt
    · rw [List.getElem?_append_left hlt] at hrecord
      rw [List.take_append_of_le_length hlt.le]
      exact ih hrecord
    · rw [heq, List.getElem?_concat_length] at hrecord
      cases hrecord
      rw [heq, List.take_left]
      obtain ⟨hstarting, -⟩ := starting_of_openSession hopen
      obtain ⟨snapshots, hloads, rfl⟩ := hstarting.restored wallet snapshot hrestored
      exact before.comesFrom honly hloads wallet
    · have hnone : (records ++ [⟨w, opened.events, s.shared.history⟩])[i]? = none := by
        rw [List.getElem?_eq_none_iff, List.length_append, List.length_singleton]
        exact hgt
      rw [hnone] at hrecord
      cases hrecord

end Chain

/-! ### Two sessions -/

/-- A mnemonic of twelve words. -/
def sampleMnemonic : JsString :=
  joinWith (js " ") (List.replicate 11 (js "abandon") ++ [js "about"])

/-- The files with the mnemonic and no cache. -/
def mnemonicFiles : Files := Function.update (fun _ => none) (js "mnemonic.txt")
  (some (.file 0o600 (textEncode sampleMnemonic)))

/-- What opens the sample session. -/
def sampleOpening : Opening where
  options := ⟨js "stagenet", js "mnemonic.txt", none, some (js "cache.json")⟩
  cwd := js "/home/me"
  inode := fun _ => none
  reading := quietOutcomes 4096
  loading := quietOutcomes 4096
  endpoints := .ok ()
  toLowerCase := id
  validateMnemonic := fun _ => true
  deriveWalletKeys := fun _ _ => .ok (js "keys")
  publicIdentity := fun _ _ => .ok sampleSession.identity
  restores := fun _ _ => true
  starts := fun _ => .ok ()
  session := fun identity => .ok { sampleSession with identity := identity }
  session_identity := by
    intro identity w h
    cases h
    rfl
  session_cacheFile := by
    intro identity w h
    cases h
    rfl

/-- The session that opens on some files. -/
def sampleOpened (files : Files) : Option (WalletSession × OpenState) :=
  match openSession sampleOpening ⟨files, []⟩ with
  | (.ok w, opened) => some (w, opened)
  | (.error _, _) => none

/-- The sample session is what `openSession` returns. -/
lemma returns_of_sampleOpened {files : Files} {w : WalletSession} {opened : OpenState}
    (h : sampleOpened files = some (w, opened)) :
    (openSession sampleOpening).Returns ⟨files, []⟩ w opened := by
  unfold sampleOpened at h
  split at h
  · rename_i hopened
    cases h
    exact hopened
  · cases h

/-- The steps of a session that syncs. -/
def sampleSynced (w : WalletSession) (files : Files) :
    Option (Together Unit SessionError SessionState Unit) :=
  [(), (), ()].foldlM
    (fun s i => if True then interleavedStep (allShared SessionState) s i else none)
    (sessionCalls w files (fun _ => .synced) fun _ => 0)

/-- A session finds no cache and saves one, and the next session restores it. -/
theorem restored_was_saved_two_sessions :
    ∃ records files, SessionChain (js "cache.json") mnemonicFiles records files ∧
      ∃ record, records[1]? = some record ∧
        .restored .shielded (js "{}") ∈ record.opened ∧
        ComesFrom (js "cache.json") mnemonicFiles (records.take 1)
          record.session.identity.toWalletCacheIdentity .shielded (js "{}") := by
  have hrun : ((sampleOpened mnemonicFiles).bind fun first =>
      (sampleSynced first.1 first.2.files).bind fun s =>
        (sampleOpened s.shared.files).map fun second =>
          decide (OpenEvent.restored .shielded (js "{}") ∈ second.2.events)) = some true := by
    decide +kernel
  obtain ⟨⟨w, opened⟩, hfirst, hrun⟩ := Option.bind_eq_some_iff.mp hrun
  obtain ⟨s, hsteps, hrun⟩ := Option.bind_eq_some_iff.mp hrun
  obtain ⟨⟨w', opened'⟩, hsecond, hrestored⟩ := Option.map_eq_some_iff.mp hrun
  rw [decide_eq_true_eq] at hrestored
  have honly : ∀ other, sampleOpening.options.stateCacheFile = some other →
      other = js "cache.json" := fun other h => (Option.some.inj h).symm
  have hstart : SessionChain (js "cache.json") mnemonicFiles [] mnemonicFiles := .start
  have hone := hstart.session (returns_of_sampleOpened hfirst) honly
    (Reaches.of_actions _ .start hsteps)
  have hidle : Reaches (interleavedStep (allShared SessionState)) (fun _ _ => True)
      (sessionCalls w' opened'.files Empty.elim Empty.elim)
      (sessionCalls w' opened'.files Empty.elim Empty.elim) := .start
  have htwo := hone.session (returns_of_sampleOpened hsecond) honly hidle
  exact ⟨_, _, htwo, _, rfl, hrestored, restored_was_saved _ _ _ _ htwo 1 _ rfl _ _ hrestored⟩

end MultiPartEvent
