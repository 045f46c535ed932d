import MultiPartEvent.DeployTools.WalletCache

/-!
# Loading the wallet cache on a file system that may fail

The files are what each path names, and every file-system call may fail or do a part of its work, as
the `Outcomes` of the call say.  Of the directories around the files only the answers of
`existsSync` are known.

`readEnvelope_spec` says what `readEnvelope` makes of the entry at the path, and
`returns_loadWalletCache_iff` what a path must hold for a load to return.  What throws is a
`WalletCacheError`, and nothing changes.
-/

namespace MultiPartEvent

/-! ### The files -/

/-- What a path names. -/
inductive FileEntry where
  | symbolicLink
  | directory
  /-- A device, a pipe or a socket. -/
  | special
  | file (mode : ℕ) (bytes : Bytes)
  deriving DecidableEq

/-- What each path names, if anything. -/
abbrev Files := JsString → Option FileEntry

/-- `lstatSync` of an entry.  Of what is no file, only the kind is looked at. -/
def FileEntry.stats : FileEntry → Stats
  | .symbolicLink => ⟨true, false, 0, 0⟩
  | .directory => ⟨false, false, 0, 0⟩
  | .special => ⟨false, false, 0, 0⟩
  | .file mode bytes => ⟨false, true, mode, bytes.length⟩

/-- Change what a path names. -/
def setEntry (path : JsString) (entry : Option FileEntry) :
    Action FileError Files Unit := fun files =>
  (.ok (), Function.update files path entry)

/-- The files as a file system, with the outcomes of the calls. -/
def fileSystem (outcomes : Outcomes) : FileSystem Files JsString where
  existsSync path _ := outcomes.existsSync path
  lstatSync path := attempt (outcomes.lstat.map Subtype.val) fun files =>
    match files path with
    | some entry => (.ok entry.stats, files)
    | none => (.error (.system (some (js "ENOENT"))), files)
  readFileSync path := attempt outcomes.readFile fun files =>
    match files path with
    | some (.file _ bytes) => (.ok bytes, files)
    | _ => (.error (.system none), files)
  mkdirSync _ := attempt outcomes.mkdir (return ())
  openSync path := attempt outcomes.openFile fun files =>
    match files path with
    | some _ => (.error (.system (some (js "EEXIST"))), files)
    | none => (.ok path, Function.update files path (some (.file 0o600 [])))
  writeSync path bytes := fun files =>
    let files' := Function.update files path (some (.file 0o600 (bytes.take outcomes.written)))
    match outcomes.write with
    | some code => (.error (.system code), files')
    | none => (.ok (min outcomes.written bytes.length), files')
  fsyncSync _ := attempt outcomes.fsync (return ())
  closeSync _ := attempt outcomes.close (return ())
  renameSync path path' := attempt outcomes.rename fun files =>
    match files path with
    | some entry => (.ok (), Function.update (Function.update files path none) path' (some entry))
    | none => (.error (.system (some (js "ENOENT"))), files)
  rmSync path := attempt outcomes.rm (setEntry path none)

variable {files files' : Files} {outcomes : Outcomes} {cwd path : JsString} {err : FileError}

/-! ### Checking the path -/

/-- The location is accepted: `existsSync` finds no repository around it, or none is looked for. -/
def LocationAccepted (outcomes : Outcomes) (cwd path : JsString) (allowInsideRepository : Bool) :
    Prop :=
  allowInsideRepository = true ∨
    enclosingRepository outcomes.existsSync (parentNames cwd path).reverse = none

instance (outcomes : Outcomes) (cwd path : JsString) (allowInsideRepository : Bool) :
    Decidable (LocationAccepted outcomes cwd path allowInsideRepository) :=
  inferInstanceAs (Decidable (_ ∨ _))

/-- The location check returns when the location is accepted. -/
lemma returns_assertLocation_iff {allow : Bool} {u : Unit} :
    (assertLocation (fileSystem outcomes) cwd path allow).Returns files u files' ↔
      LocationAccepted outcomes cwd path allow ∧ files' = files := by
  unfold assertLocation LocationAccepted repositoryOf
  rw [Action.returns_runUnless_iff, Action.returns_bind_iff]
  cases allow with
  | true => simp [eq_comm]
  | false =>
    simp only [Action.returns_look_iff, fileSystem]
    cases enclosingRepository outcomes.existsSync (parentNames cwd path).reverse with
    | none => simp [eq_comm]
    | some repository => simp

/-- The location check throws a `WalletCacheError` and changes nothing. -/
lemma throws_assertLocation {allow : Bool}
    (h : (assertLocation (fileSystem outcomes) cwd path allow).Throws files err files') :
    (∃ detail, err = .walletCacheError path detail) ∧ files' = files := by
  unfold assertLocation at h
  rw [Action.throws_runUnless_iff, Action.throws_bind_iff] at h
  obtain ⟨-, h⟩ := h
  rcases h with h | ⟨found, middle, hfound, h⟩
  · exact absurd h Action.not_throws_look
  · obtain ⟨-, rfl⟩ := Action.returns_look_iff.mp hfound
    cases found with
    | none => exact absurd h Action.not_throws_pure
    | some repository =>
      obtain ⟨rfl, rfl⟩ := Action.throws_fail_iff.mp h
      exact ⟨⟨_, rfl⟩, rfl⟩

/-- The entry is a cache file with these members: a regular file without permissions for others
whose text is an envelope. -/
structure CacheAt (entry : FileEntry) (members : Members) : Prop where
  private_file : ∃ mode bytes, entry = .file mode bytes ∧ mode &&& 0o077 = 0 ∧
    envelopeOf (readJson (fileText bytes)) = some members

/-- An entry is a cache file with one list of members. -/
lemma CacheAt.unique {entry : FileEntry} {members members' : Members} (h : CacheAt entry members)
    (h' : CacheAt entry members') : members = members' := by
  obtain ⟨mode, bytes, rfl, -, hmembers⟩ := h.private_file
  obtain ⟨_, _, heq, -, hmembers'⟩ := h'.private_file
  cases heq
  rw [hmembers] at hmembers'
  exact Option.some.inj hmembers'

/-- What `readEnvelope` accepts: nothing at the path, or a cache file that is not too large. -/
def Accepted (outcomes : Outcomes) (entry : Option FileEntry) (found : Option Members) : Prop :=
  outcomes.lstat = none ∧
    match entry, found with
    | none, none => True
    | some entry, some members =>
      CacheAt entry members ∧ entry.stats.size ≤ maxCacheBytes ∧ outcomes.readFile = none
    | _, _ => False

/-- What is accepted with members is a cache file. -/
lemma Accepted.cacheAt {found : Option FileEntry} {members : Members}
    (h : Accepted outcomes found (some members)) :
    ∃ entry, found = some entry ∧ CacheAt entry members := by
  obtain ⟨-, haccepted⟩ := h
  cases found with
  | none => exact absurd haccepted id
  | some entry => exact ⟨entry, rfl, haccepted.1⟩

/-- The file's `lstatSync` is that of its entry. -/
lemma statFile_eq (h : outcomes.lstat = none) :
    statFile (fileSystem outcomes) path files =
      (.ok ((files path).map FileEntry.stats), files) := by
  cases hentry : files path <;>
    simp [statFile, Action.catching, bind, pure, Action.andThen, Action.ret, fileSystem, attempt, h,
      hentry, FileError.code]

/-- A failing `lstatSync` is a `WalletCacheError`. -/
lemma statFile_throws {failure : { code : ErrorCode // code ≠ some (js "ENOENT") }}
    (h : outcomes.lstat = some failure) : ∃ detail,
      statFile (fileSystem outcomes) path files =
        (.error (.walletCacheError path detail), files) := by
  obtain ⟨code, hcode⟩ := failure
  have hne : (FileError.system code).code ≠ js "ENOENT" := by
    cases code with
    | none => decide
    | some text =>
      intro htext
      exact hcode (congrArg some htext)
  refine ⟨js "cannot be read (" ++ (FileError.system code).code ++ js ")", ?_⟩
  simp [statFile, Action.catching, bind, pure, Action.andThen, Action.fail, fileSystem, attempt, h,
    hne]

/-- The file's JSON value is that of its bytes, or not known. -/
lemma parseFile_eq {mode : ℕ} {bytes : Bytes} (hfile : files path = some (.file mode bytes)) :
    parseFile (fileSystem outcomes) path files =
      (.ok (if outcomes.readFile = none then readJson (fileText bytes) else none), files) := by
  cases hread : outcomes.readFile <;>
    simp [parseFile, Action.catching, bind, pure, Action.andThen, Action.ret, Action.fail,
      fileSystem, attempt, hread, hfile]

/-- Only a regular file is a cache file. -/
lemma not_accepted_of_no_file {entry : FileEntry}
    (hentry : ∀ mode bytes, entry ≠ .file mode bytes) :
    ¬∃ members, CacheAt entry members ∧ entry.stats.size ≤ maxCacheBytes ∧
      outcomes.readFile = none := by
  rintro ⟨members, hcache, -⟩
  obtain ⟨mode, bytes, hfile, -⟩ := hcache.private_file
  exact hentry mode bytes hfile

/-- What `readEnvelope` does with a regular file, once it has its `lstatSync`. -/
lemma readEnvelope_file {mode : ℕ} {bytes : Bytes} (hlstat : outcomes.lstat = none)
    (hentry : files path = some (.file mode bytes)) :
    (∃ members, CacheAt (.file mode bytes) members ∧ bytes.length ≤ maxCacheBytes ∧
      outcomes.readFile = none ∧
      readEnvelope (fileSystem outcomes) path files = (.ok (some members), files)) ∨
    (¬∃ members, CacheAt (.file mode bytes) members ∧ bytes.length ≤ maxCacheBytes ∧
        outcomes.readFile = none) ∧
      ∃ detail, readEnvelope (fileSystem outcomes) path files =
        (.error (.walletCacheError path detail), files) := by
  have hstat : statFile (fileSystem outcomes) path files =
      (.ok (some (FileEntry.file mode bytes).stats), files) := by
    rw [statFile_eq hlstat, hentry]
    rfl
  by_cases hmode : mode &&& 0o077 = 0
  swap
  · refine Or.inr ⟨?_, looseMode mode, ?_⟩
    · rintro ⟨members, hcache, -⟩
      obtain ⟨_, _, h, hprivate, -⟩ := hcache.private_file
      cases h
      exact hmode hprivate
    · simp [readEnvelope, bind, Action.andThen, Action.failIf, Action.fail, Action.ret, hstat,
        FileEntry.stats, hmode]
  by_cases hsize : bytes.length ≤ maxCacheBytes
  swap
  · refine Or.inr ⟨?_, js "is too large", ?_⟩
    · rintro ⟨members, -, hle, -⟩
      exact hsize hle
    · simp [readEnvelope, bind, Action.andThen, Action.failIf, Action.fail, Action.ret, hstat,
        FileEntry.stats, hmode, lt_of_not_ge hsize]
  have hparse : parseFile (fileSystem outcomes) path files =
      (.ok (if outcomes.readFile = none then readJson (fileText bytes) else none), files) :=
    parseFile_eq hentry
  cases henvelope : envelopeOf
    (if outcomes.readFile = none then readJson (fileText bytes) else none) with
  | none =>
    refine Or.inr ⟨?_, js ("exists but is not a wallet cache; " ++
      "refusing to use or overwrite it (choose another path)"), ?_⟩
    · rintro ⟨members, hcache, -, hread⟩
      obtain ⟨_, _, h, -, hmembers⟩ := hcache.private_file
      cases h
      rw [if_pos hread, hmembers] at henvelope
      cases henvelope
    · simp [readEnvelope, bind, Action.andThen, Action.failIf, Action.fail, Action.ret, hstat,
        FileEntry.stats, hmode, not_lt.mpr hsize, hparse, henvelope]
  | some members =>
    have hread : outcomes.readFile = none := by
      by_contra hread
      rw [if_neg hread] at henvelope
      cases henvelope
    rw [if_pos hread] at henvelope
    refine Or.inl ⟨members, ⟨mode, bytes, rfl, hmode, henvelope⟩, hsize, hread, ?_⟩
    simp [readEnvelope, bind, pure, Action.andThen, Action.failIf, Action.ret, hstat,
      FileEntry.stats, hmode, not_lt.mpr hsize, hparse, hread, henvelope]

/-- What `readEnvelope` does with the entry at the path, once it has its `lstatSync`. -/
lemma readEnvelope_entry {entry : FileEntry} (hlstat : outcomes.lstat = none)
    (hentry : files path = some entry) :
    (∃ members, CacheAt entry members ∧ entry.stats.size ≤ maxCacheBytes ∧
      outcomes.readFile = none ∧
      readEnvelope (fileSystem outcomes) path files = (.ok (some members), files)) ∨
    (¬∃ members, CacheAt entry members ∧ entry.stats.size ≤ maxCacheBytes ∧
      outcomes.readFile = none) ∧ ∃ detail, readEnvelope (fileSystem outcomes) path files =
        (.error (.walletCacheError path detail), files) := by
  have hstat : statFile (fileSystem outcomes) path files = (.ok (some entry.stats), files) := by
    rw [statFile_eq hlstat, hentry]
    rfl
  cases entry with
  | file mode bytes => exact readEnvelope_file hlstat hentry
  | symbolicLink =>
    refine Or.inr ⟨not_accepted_of_no_file (fun _ _ h => by cases h), js "is a symbolic link", ?_⟩
    simp [readEnvelope, bind, Action.andThen, Action.failIf, Action.fail, hstat, FileEntry.stats]
  | directory | special =>
    refine Or.inr ⟨not_accepted_of_no_file (fun _ _ h => by cases h), js "is not a regular file",
      ?_⟩
    simp [readEnvelope, bind, Action.andThen, Action.failIf, Action.fail, Action.ret, hstat,
      FileEntry.stats]

/-- `readEnvelope` returns what it accepts, and otherwise throws a `WalletCacheError`. -/
lemma readEnvelope_spec (outcomes : Outcomes) (path : JsString) (files : Files) :
    (∃ found, Accepted outcomes (files path) found ∧
      readEnvelope (fileSystem outcomes) path files = (.ok found, files)) ∨
    (∀ found, ¬Accepted outcomes (files path) found) ∧ ∃ detail,
      readEnvelope (fileSystem outcomes) path files =
        (.error (.walletCacheError path detail), files) := by
  cases hlstat : outcomes.lstat with
  | some failure =>
    obtain ⟨detail, hthrows⟩ : ∃ detail, statFile (fileSystem outcomes) path files =
        (.error (.walletCacheError path detail), files) := statFile_throws hlstat
    refine Or.inr ⟨fun found h => by simp [Accepted, hlstat] at h, detail, ?_⟩
    simp [readEnvelope, bind, Action.andThen, hthrows]
  | none =>
    cases hentry : files path with
    | none =>
      have hstat : statFile (fileSystem outcomes) path files =
          (.ok ((files path).map FileEntry.stats), files) := statFile_eq hlstat
      refine Or.inl ⟨none, ⟨hlstat, trivial⟩, ?_⟩
      simp [readEnvelope, bind, pure, Action.andThen, Action.ret, hstat, hentry]
    | some entry =>
      rcases readEnvelope_entry hlstat hentry with ⟨members, hcache, hsize, hread, hresult⟩ |
        ⟨hrefused, hresult⟩
      · exact Or.inl ⟨some members, ⟨hlstat, hcache, hsize, hread⟩, hresult⟩
      · refine Or.inr ⟨?_, hresult⟩
        intro found h
        cases found with
        | none => exact h.2
        | some members => exact hrefused ⟨members, h.2⟩

/-- The path is accepted with one list of members. -/
lemma Accepted.unique {entry : Option FileEntry} {found found' : Option Members}
    (h : Accepted outcomes entry found) (h' : Accepted outcomes entry found') : found = found' := by
  obtain ⟨-, h⟩ := h
  obtain ⟨-, h'⟩ := h'
  cases entry with
  | none =>
    cases found with
    | some members => exact absurd h id
    | none =>
      cases found' with
      | some members => exact absurd h' id
      | none => rfl
  | some entry =>
    cases found with
    | none => exact absurd h id
    | some members =>
      cases found' with
      | none => exact absurd h' id
      | some members' => exact congrArg some (h.1.unique h'.1)

/-- `readEnvelope` returns what it accepts. -/
lemma returns_readEnvelope_iff {found : Option Members} :
    (readEnvelope (fileSystem outcomes) path).Returns files found files' ↔
      Accepted outcomes (files path) found ∧ files' = files := by
  unfold Action.Returns
  rcases readEnvelope_spec outcomes path files with ⟨found', haccepted, hresult⟩ |
      ⟨hrefused, detail, hresult⟩
  · rw [hresult]
    constructor
    · intro h
      cases h
      exact ⟨haccepted, rfl⟩
    · intro h
      obtain ⟨hfound, rfl⟩ := h
      rw [haccepted.unique hfound]
  · rw [hresult]
    constructor
    · intro h
      cases h
    · intro h
      exact absurd h.1 (hrefused found)

/-- `readEnvelope` throws a `WalletCacheError` and changes nothing. -/
lemma throws_readEnvelope
    (h : (readEnvelope (fileSystem outcomes) path).Throws files err files') :
    (∃ detail, err = .walletCacheError path detail) ∧ files' = files := by
  rcases readEnvelope_spec outcomes path files with ⟨found, -, hresult⟩ | ⟨-, detail, hresult⟩
  · rw [Action.Throws, hresult] at h
    cases h
  · rw [Action.Throws, hresult] at h
    cases h
    exact ⟨⟨detail, rfl⟩, rfl⟩

/-! ### Loading -/

/-- The entry is a cache file of the wallet. -/
def OwnedBy (identity : WalletCacheIdentity) (entry : FileEntry) : Prop :=
  ∃ members, CacheAt entry members ∧ belongsTo members identity = true

/-- The identity check returns when the envelope belongs to the identity. -/
lemma returns_assertIdentity_iff {members : Members} {identity : WalletCacheIdentity} {u : Unit} :
    (assertIdentity path members identity).Returns files u files' ↔
      belongsTo members identity = true ∧ files' = files := by
  unfold assertIdentity
  rw [Action.returns_failIf_iff, Bool.not_eq_false, @eq_comm _ files files']

/-- A load returns when the location is accepted and the path holds nothing, or a cache file of the
wallet. -/
lemma returns_loadWalletCache_iff {identity : WalletCacheIdentity} {allow : Bool}
    {result : WalletCacheLoad} :
    (loadWalletCache (fileSystem outcomes) cwd path identity allow).Returns files result files' ↔
      LocationAccepted outcomes cwd path allow ∧
        (Accepted outcomes (files path) none ∧ result = .absent ∨
          ∃ members, Accepted outcomes (files path) (some members) ∧
            belongsTo members identity = true ∧ result = loadEnvelope members) ∧
        files' = files := by
  unfold loadWalletCache
  rw [Action.returns_bind_iff]
  constructor
  · intro h
    obtain ⟨_, _, hlocation, hrest⟩ := h
    obtain ⟨hlocated, rfl⟩ := returns_assertLocation_iff.mp hlocation
    obtain ⟨found, _, hread, hfound⟩ := Action.returns_bind_iff.mp hrest
    obtain ⟨haccepted, rfl⟩ := returns_readEnvelope_iff.mp hread
    cases found with
    | none =>
      obtain ⟨rfl, rfl⟩ := Action.returns_pure_iff.mp hfound
      exact ⟨hlocated, Or.inl ⟨haccepted, rfl⟩, rfl⟩
    | some members =>
      obtain ⟨_, _, hidentity, hload⟩ := Action.returns_bind_iff.mp hfound
      obtain ⟨hbelongs, rfl⟩ := returns_assertIdentity_iff.mp hidentity
      obtain ⟨rfl, rfl⟩ := Action.returns_pure_iff.mp hload
      exact ⟨hlocated, Or.inr ⟨members, haccepted, hbelongs, rfl⟩, rfl⟩
  · intro h
    obtain ⟨hlocated, hfound, rfl⟩ := h
    refine ⟨(), _, returns_assertLocation_iff.mpr ⟨hlocated, rfl⟩, ?_⟩
    rw [Action.returns_bind_iff]
    rcases hfound with ⟨haccepted, rfl⟩ | ⟨members, haccepted, hbelongs, rfl⟩
    · exact ⟨none, _, returns_readEnvelope_iff.mpr ⟨haccepted, rfl⟩,
        Action.returns_pure_iff.mpr ⟨rfl, rfl⟩⟩
    · refine ⟨some members, _, returns_readEnvelope_iff.mpr ⟨haccepted, rfl⟩, ?_⟩
      exact Action.returns_bind_iff.mpr ⟨(), _, returns_assertIdentity_iff.mpr ⟨hbelongs, rfl⟩,
        Action.returns_pure_iff.mpr ⟨rfl, rfl⟩⟩

/-- The identity check throws a `WalletCacheError` and changes nothing. -/
lemma throws_assertIdentity {members : Members} {identity : WalletCacheIdentity}
    (h : (assertIdentity path members identity).Throws files err files') :
    (∃ detail, err = .walletCacheError path detail) ∧ files' = files := by
  obtain ⟨-, rfl, rfl⟩ := Action.throws_failIf_iff.mp h
  exact ⟨⟨_, rfl⟩, rfl⟩

/-- An envelope of another wallet is refused. -/
lemma assertIdentity_throws {members : Members} {identity : WalletCacheIdentity}
    (h : belongsTo members identity = false) : ∃ detail,
      assertIdentity path members identity files =
        (.error (.walletCacheError path detail), files) :=
  ⟨_, Action.throws_failIf_iff.mpr ⟨h, rfl, rfl⟩⟩

/-- A load that throws, throws a `WalletCacheError` and changes nothing. -/
lemma throws_loadWalletCache {identity : WalletCacheIdentity} {allow : Bool}
    (h : (loadWalletCache (fileSystem outcomes) cwd path identity allow).Throws files err files') :
    (∃ detail, err = .walletCacheError path detail) ∧ files' = files := by
  unfold loadWalletCache at h
  rcases Action.throws_bind_iff.mp h with hlocation | ⟨_, _, hlocation, hrest⟩
  · exact throws_assertLocation hlocation
  obtain ⟨-, rfl⟩ := returns_assertLocation_iff.mp hlocation
  rcases Action.throws_bind_iff.mp hrest with hread | ⟨found, _, hread, hfound⟩
  · exact throws_readEnvelope hread
  obtain ⟨-, rfl⟩ := returns_readEnvelope_iff.mp hread
  cases found with
  | none => exact absurd hfound Action.not_throws_pure
  | some members =>
    rcases Action.throws_bind_iff.mp hfound with hidentity | ⟨_, _, _, hload⟩
    · exact throws_assertIdentity hidentity
    · exact absurd hload Action.not_throws_pure

end MultiPartEvent
