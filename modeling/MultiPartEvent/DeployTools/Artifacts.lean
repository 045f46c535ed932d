import MultiPartEvent.Cli.Flags
import MultiPartEvent.ContractExamples.Notice
import MultiPartEvent.DeployTools.CommandState

/-!
# Examples and their artifacts

Publishing and pinning prove circuits with the artifacts of a key build.  Before a proof is asked
for, the tools compare the build with what the repository has committed: the hashes of the
`SHA256SUMS` listing, where there is one, and the verifier key of every provable circuit, byte for
byte.

The listing is a text format of its own: what is written for a table of hashes is read back as the
table (`parseSha256Sums_sumsText`), and a path listed twice has the hash of its last line.  The
checks pass exactly when the build is the committed one as far as they can see
(`checkArtifacts_eq_ok_iff`), and a command that proves does nothing before they have passed
(`key_build_checked` in `DeployTools/ToolRuns.lean`).
-/

namespace MultiPartEvent

/-! ### Examples -/

/-- An example with its directories and the payload format of its text messages. -/
structure ToolProfile extends ExampleProfile where
  /-- `compactc --skip-zk` output. -/
  managedDir : JsString
  /-- Committed verifier keys and their SHA256SUMS. -/
  keysDir : JsString
  /-- Full key build used for proving. -/
  zkDir : JsString
  encodeText : JsString → Bytes

/-- The two examples, with paths below `root`. -/
def exampleProfiles (root : JsString) : ExampleName → ToolProfile
  | .emitter =>
    { name := .emitter
      eventName := js "example:message[v1]"
      entryPoint := js "emitPart"
      managedDir := joinPaths root (js "contract-examples/emitter/managed")
      keysDir := joinPaths root (js "contract-examples/emitter/keys")
      zkDir := joinPaths root (js "build/zk/emitter")
      encodeText := textEncode }
  | .noticeBoard =>
    { name := .noticeBoard
      eventName := js "notice-board:notice[v1]"
      entryPoint := js "emitPart"
      managedDir := joinPaths root (js "contract-examples/notice-board/managed")
      keysDir := joinPaths root (js "contract-examples/notice-board/keys")
      zkDir := joinPaths root (js "build/zk/notice-board")
      encodeText := encodeNoticeText }

/-- The profile named by `--example`. -/
def profileOf (root : JsString) (name : Option JsString) : Except UsageError ToolProfile :=
  if name = some (js "emitter") then .ok (exampleProfiles root .emitter)
  else if name = some (js "notice-board") then .ok (exampleProfiles root .noticeBoard)
  else usage (js "--example is required: emitter or notice-board")

/-! ### Reading files -/

/-- What the tools read of the files. -/
structure FileView where
  existsSync : JsString → Bool
  readFileSync : JsString → Except FileError Bytes

/-- A circuit in the compiler's contract-info. -/
structure CircuitInfo where
  name : JsString
  proof : Bool

/-- What the checks take from outside the repository. -/
structure ArtifactTools where
  sha256 : Bytes → Bytes
  /-- `JSON.parse(text).circuits` of the compiler's contract-info. -/
  contractInfo : JsString → Except JsError (List CircuitInfo)

/-- What the checks throw. -/
inductive ArtifactError where
  | usage (error : UsageError)
  | file (error : FileError)
  | language (error : JsError)
  /-- `ArtifactMismatchError`. -/
  | mismatch (detail : JsString)
  /-- `VerifierKeyMismatchError`. -/
  | verifierKeyMismatch (detail : JsString)

variable (tools : ArtifactTools) (files : FileView)

/-- The SHA-256 hash as hex. -/
def ArtifactTools.sha256Hex (bytes : Bytes) : JsString := bytesToHex (tools.sha256 bytes)

/-- A file is there and has these bytes. -/
def FileView.Holds (path : JsString) (bytes : Bytes) : Prop :=
  files.existsSync path = true ∧ files.readFileSync path = .ok bytes

/-- Read a file; another error when it is not there. -/
def FileView.readExisting (path : JsString) (missing : ArtifactError) :
    Except ArtifactError Bytes :=
  if files.existsSync path = true then (files.readFileSync path).mapError .file
  else .error missing

/-- A file is read exactly when it is there and can be read. -/
lemma readExisting_eq_ok_iff {files : FileView} {path : JsString} {missing : ArtifactError}
    {bytes : Bytes} :
    files.readExisting path missing = .ok bytes ↔ files.Holds path bytes := by
  unfold FileView.readExisting FileView.Holds
  split_ifs with hexists
  · rw [mapError_eq_ok_iff]
    exact ⟨fun h => ⟨hexists, h⟩, fun h => h.2⟩
  · simp [hexists]

/-! ### Verifier keys -/

/-- Names of the example's provable circuits. -/
def provableCircuits (profile : ToolProfile) : Except ArtifactError (List JsString) := do
  let path := joinPaths profile.managedDir (js "compiler/contract-info.json")
  let bytes ← files.readExisting path
    (.usage ⟨path ++ js " does not exist; run npm run compile first"⟩)
  let circuits ← (tools.contractInfo (fileText bytes)).mapError .language
  return sortBy compareCodeUnits ((circuits.filter CircuitInfo.proof).map CircuitInfo.name)

/-- The committed verifier key of a circuit. -/
def committedVerifierKey (profile : ToolProfile) (circuit : JsString) :
    Except ArtifactError Bytes :=
  let path := joinPaths profile.keysDir (circuit ++ js ".verifier")
  files.readExisting path (.usage ⟨js "missing committed verifier key " ++ path⟩)

/-- The committed verifier key of every provable circuit. -/
def committedVerifierKeys (profile : ToolProfile) :
    Except ArtifactError (InsertionMap JsString Bytes) := do
  let circuits ← provableCircuits tools files profile
  circuits.foldlM (fun keys circuit => do
    return keys.set circuit (← committedVerifierKey files profile circuit)) .empty

/-- Path of a circuit's verifier key in a `compactc` output directory. -/
def verifierKeyPath (artifactDir circuit : JsString) : JsString :=
  joinPaths (joinPaths artifactDir (js "keys")) (circuit ++ js ".verifier")

/-- Read a circuit's verifier key from a `compactc` output directory. -/
def readVerifierKey (artifactDir circuit : JsString) : Except ArtifactError Bytes :=
  let path := verifierKeyPath artifactDir circuit
  files.readExisting path (.mismatch (js "no verifier key at " ++ path))

/-- Require a verifier key to equal an expected one, byte for byte. -/
def assertVerifierKeyEquals (actual expected : Bytes) (label : JsString) :
    Except ArtifactError Unit :=
  if bytesEqual actual expected = true then .ok ()
  else .error (.verifierKeyMismatch (label ++ js ": verifier key SHA-256 " ++
    tools.sha256Hex actual ++ js " differs from the expected " ++ tools.sha256Hex expected))

/-! ### The listing of hashes -/

/-- The line ends of the language. -/
def lineEnds : List CodeUnit := [0x0A, 0x0D, 0x2028, 0x2029]

/-- `/^([0-9a-f]{64}) [ *](.+)$/`: the path and the hash of a line. -/
def sumOf? (line : JsString) : Option (JsString × JsString) :=
  match line.drop 64 with
  | space :: mark :: path =>
    if isAddress (line.take 64) = true ∧ space = charUnit ' ' ∧
        (mark = charUnit ' ' ∨ mark = charUnit '*') ∧ path ≠ [] ∧
        (path.all fun u => !lineEnds.contains u) = true then
      some (path, line.take 64)
    else none
  | _ => none

/-- One line of a listing. -/
def addSum (sums : InsertionMap JsString JsString) (line : JsString) :
    Except ArtifactError (InsertionMap JsString JsString) :=
  if trimText line = [] then .ok sums
  else
    match sumOf? (trimText line) with
    | some (path, hash) => .ok (sums.set path hash)
    | none => .error (.mismatch (js "malformed SHA256SUMS line: " ++ trimText line))

/-- Parse a `sha256sum` listing (`<hash>  <relative path>` per line). -/
def parseSha256Sums (text : JsString) :
    Except ArtifactError (InsertionMap JsString JsString) :=
  (text.splitOn (charUnit '\n')).foldlM addSum .empty

/-- One listed file. -/
def checkArtifactHash (artifactDir sha256SumsPath : JsString) (listed : JsString × JsString) :
    Except ArtifactError Unit := do
  let path := joinPaths artifactDir listed.1
  let bytes ← files.readExisting path (.mismatch (js "missing artifact " ++ path))
  if tools.sha256Hex bytes = listed.2 then return ()
  else .error (.mismatch (listed.1 ++ js ": SHA-256 " ++ tools.sha256Hex bytes ++
    js " differs from " ++ listed.2 ++ js " in " ++ sha256SumsPath))

/-- Check every file of a listing inside a directory: the checked relative paths. -/
def checkArtifactHashes (artifactDir sha256SumsPath : JsString) :
    Except ArtifactError (List JsString) := do
  let bytes ← (files.readFileSync sha256SumsPath).mapError .file
  let sums ← parseSha256Sums (fileText bytes)
  let _ ← sums.entries.mapM (checkArtifactHash tools files artifactDir sha256SumsPath)
  return sums.keys

/-! ### The key build -/

/-- The options of `zkConfigForContract`. -/
structure ZkConfigOptions where
  /-- `compactc` output directory with `keys/` and `zkir/`. -/
  artifactDir : JsString
  /-- Circuits that will be proven, each with the verifier key it must have. -/
  expectedVerifierKeys : Option (InsertionMap JsString Bytes)
  /-- A listing to check the artifacts against first. -/
  sha256SumsPath : Option JsString

/-- One expected verifier key. -/
def checkVerifierKey (artifactDir : JsString) (expected : JsString × Bytes) :
    Except ArtifactError Unit := do
  assertVerifierKeyEquals tools (← readVerifierKey files artifactDir expected.1) expected.2
    expected.1

/-- The checks of `zkConfigForContract`, before it returns a provider of the artifacts. -/
def zkConfigForContract (options : ZkConfigOptions) : Except ArtifactError Unit := do
  if files.existsSync (joinPaths options.artifactDir (js "keys")) = false then
    .error (.mismatch (options.artifactDir ++
      js " has no keys/ directory; run the full key build (npm run compile:zk)"))
  else do
    match options.sha256SumsPath with
    | some sums =>
      let _ ← checkArtifactHashes tools files options.artifactDir sums
    | none => pure ()
    let _ ← ((options.expectedVerifierKeys.getD .empty).entries.mapM
      (checkVerifierKey tools files options.artifactDir))
    return ()

/-- The hashes of the committed listing, where there is one and a build to compare it with. -/
def checkCommittedHashes (profile : ToolProfile) (zkDir : JsString) : Except ArtifactError Unit :=
  let sums := joinPaths profile.keysDir (js "SHA256SUMS")
  if files.existsSync sums = true ∧ files.existsSync (joinPaths zkDir (js "keys")) = true then
    (checkArtifactHashes tools files zkDir sums).map fun _ => ()
  else .ok ()

/-- The checks of `openChainServices` on the artifacts of a command that proves. -/
def checkArtifacts (profile : ToolProfile) (zkDir : JsString) : Except ArtifactError Unit := do
  checkCommittedHashes tools files profile zkDir
  let expected ← committedVerifierKeys tools files profile
  zkConfigForContract tools files ⟨zkDir, some expected, none⟩

/-! ### Listings are read back -/

/-- The lines of a text that list a path, with its hash. -/
def listedSums (text : JsString) : List (JsString × JsString) :=
  (text.splitOn (charUnit '\n')).filterMap fun line => sumOf? (trimText line)

/-- The last entry of a key in a list. -/
def LastIn {κ ν : Type} (l : List (κ × ν)) (k : κ) (v : ν) : Prop :=
  ∃ before after, l = before ++ (k, v) :: after ∧ ∀ e ∈ after, e.1 ≠ k

/-- The last entry of a key after one more entry. -/
lemma lastIn_concat {κ ν : Type} {l : List (κ × ν)} {j k : κ} {v w : ν} :
    LastIn (l ++ [(j, w)]) k v ↔ (k = j ∧ w = v) ∨ (k ≠ j ∧ LastIn l k v) := by
  constructor
  · rintro ⟨before, after, heq, hlater⟩
    cases after using List.reverseRecOn with
    | nil =>
      have hlast := List.append_inj_right' heq rfl
      simp only [List.cons.injEq, Prod.mk.injEq, and_true] at hlast
      exact Or.inl ⟨hlast.1.symm, hlast.2⟩
    | append_singleton after e =>
      rw [← List.cons_append, ← List.append_assoc] at heq
      have hlast := List.append_inj_right' heq rfl
      rw [List.singleton_inj] at hlast
      have hne : e.1 ≠ k := hlater e (List.mem_append_right _ List.mem_cons_self)
      rw [← hlast] at hne
      exact Or.inr ⟨hne.symm, before, after, List.append_inj_left' heq rfl,
        fun e' he' => hlater e' (List.mem_append_left _ he')⟩
  · rintro (⟨rfl, rfl⟩ | ⟨hne, before, after, rfl, hlater⟩)
    · exact ⟨l, [], rfl, by simp⟩
    · refine ⟨before, after ++ [(j, w)], by simp, ?_⟩
      intro e he
      rcases List.mem_append.mp he with he | he
      · exact hlater e he
      · rw [List.mem_singleton.mp he]
        exact hne.symm

/-- After setting keys one after another, a key has the value it was set to last. -/
lemma get?_foldl_set {κ ν : Type} [DecidableEq κ] {l : List (κ × ν)} {k : κ} {v : ν} :
    (l.foldl (fun m e => m.set e.1 e.2) InsertionMap.empty).get? k = some v ↔ LastIn l k v := by
  induction l using List.reverseRecOn with
  | nil =>
    constructor
    · intro h
      cases h
    · rintro ⟨before, after, h, -⟩
      simp at h
  | append_singleton l e ih =>
    rw [List.foldl_append, List.foldl_cons, List.foldl_nil, InsertionMap.get?_set, lastIn_concat,
      ← ih]
    by_cases hk : k = e.1
    · simp [hk]
    · simp [hk]

/-- A line is taken exactly when it is blank or lists a path. -/
lemma addSum_eq_ok_iff {m m' : InsertionMap JsString JsString} {line : JsString} :
    addSum m line = .ok m' ↔ (trimText line = [] ∧ m = m') ∨
      ∃ listed, sumOf? (trimText line) = some listed ∧ m.set listed.1 listed.2 = m' := by
  unfold addSum
  by_cases hblank : trimText line = []
  · have hnone : sumOf? [] = none := rfl
    rw [if_pos hblank, Except.ok.injEq, hblank, hnone]
    simp
  · rw [if_neg hblank]
    cases sumOf? (trimText line) with
    | none => simp [hblank]
    | some listed => simp [hblank]

/-- Lines are taken exactly when each is blank or lists a path; the listed paths are set in their
order. -/
lemma foldlM_addSum_eq_ok_iff {m m' : InsertionMap JsString JsString} {lines : List JsString} :
    lines.foldlM addSum m = .ok m' ↔
      (∀ line ∈ lines, trimText line = [] ∨ (sumOf? (trimText line)).isSome) ∧
      (lines.filterMap fun line => sumOf? (trimText line)).foldl (fun m e => m.set e.1 e.2) m =
        m' := by
  induction lines generalizing m with
  | nil => simp
  | cons line lines ih =>
    simp only [List.foldlM_cons, bind_eq_ok_iff, addSum_eq_ok_iff, ih, List.forall_mem_cons]
    by_cases hblank : trimText line = []
    · have hnone : sumOf? [] = none := rfl
      rw [hblank, List.filterMap_cons_none (by rw [hblank]; exact hnone), hnone]
      simp
    · cases hsum : sumOf? (trimText line) with
      | none => simp [hblank]
      | some listed => simp [hblank, hsum]

/-! ### What passes -/

/-- The build has the listed hashes: every line of the listing that is not blank lists a path, and
the file at each path has the hash that is listed last for it. -/
structure HashesMatch (text artifactDir : JsString) : Prop where
  wellFormed : ∀ line ∈ text.splitOn (charUnit '\n'),
    trimText line = [] ∨ (sumOf? (trimText line)).isSome
  hashes : ∀ path hash, LastIn (listedSums text) path hash →
    ∃ bytes, files.Holds (joinPaths artifactDir path) bytes ∧ tools.sha256Hex bytes = hash

/-- The key build is the committed one: it has a directory of keys, the hashes of the committed
listing, if there is one, and for every provable circuit the verifier key that is committed. -/
structure KeyBuildMatches (profile : ToolProfile) (zkDir : JsString) : Prop where
  keys : files.existsSync (joinPaths zkDir (js "keys")) = true
  hashes : files.existsSync (joinPaths profile.keysDir (js "SHA256SUMS")) = true →
    ∃ bytes, files.readFileSync (joinPaths profile.keysDir (js "SHA256SUMS")) = .ok bytes ∧
      HashesMatch tools files (fileText bytes) zkDir
  verifierKeys : ∃ circuits, provableCircuits tools files profile = .ok circuits ∧
    ∀ circuit ∈ circuits, ∃ key,
      files.Holds (joinPaths profile.keysDir (circuit ++ js ".verifier")) key ∧
      files.Holds (verifierKeyPath zkDir circuit) key

section Checks

variable {tools : ArtifactTools} {files : FileView}

/-- A listed file passes exactly when it is there with its hash. -/
lemma checkArtifactHash_eq_ok_iff {artifactDir sums : JsString} {listed : JsString × JsString} :
    checkArtifactHash tools files artifactDir sums listed = .ok () ↔
      ∃ bytes, files.Holds (joinPaths artifactDir listed.1) bytes ∧
        tools.sha256Hex bytes = listed.2 := by
  unfold checkArtifactHash
  rw [bind_eq_ok_iff]
  simp only [readExisting_eq_ok_iff]
  refine exists_congr fun bytes => and_congr_right fun _ => ?_
  split_ifs with hhash
  · simp [hhash]
  · simp [hhash]

/-- **The hashes are checked exactly.** -/
lemma exists_checkArtifactHashes_iff {artifactDir sums : JsString} :
    (∃ paths, checkArtifactHashes tools files artifactDir sums = .ok paths) ↔
      ∃ bytes, files.readFileSync sums = .ok bytes ∧
        HashesMatch tools files (fileText bytes) artifactDir := by
  unfold checkArtifactHashes parseSha256Sums
  simp only [bind_eq_ok_iff, mapError_eq_ok_iff, foldlM_addSum_eq_ok_iff, pure_eq_ok_iff]
  constructor
  · rintro ⟨paths, bytes, hread, table, ⟨hlines, htable⟩, checked, hchecked, -⟩
    refine ⟨bytes, hread, hlines, ?_⟩
    intro path hash hlast
    have hget : table.get? path = some hash := htable ▸ get?_foldl_set.mpr hlast
    exact checkArtifactHash_eq_ok_iff.mp
      (exists_mapM_eq_ok_iff.mp ⟨_, hchecked⟩ _ (InsertionMap.get?_eq_some_iff.mp hget))
  · rintro ⟨bytes, hread, hlines, hhashes⟩
    have hall : ∀ listed ∈ ((listedSums (fileText bytes)).foldl (fun m e => m.set e.1 e.2)
        InsertionMap.empty).entries,
        checkArtifactHash tools files artifactDir sums listed = .ok () := by
      intro listed hlisted
      exact checkArtifactHash_eq_ok_iff.mpr
        (hhashes _ _ (get?_foldl_set.mp (InsertionMap.get?_eq_some_iff.mpr hlisted)))
    obtain ⟨checked, hchecked⟩ := exists_mapM_eq_ok_iff.mpr hall
    exact ⟨_, bytes, hread, _, ⟨hlines, rfl⟩, checked, hchecked, rfl⟩

/-- Keys that are set to the results of fallible code have exactly these. -/
lemma foldlM_set_eq_ok {ε : Type} {κ ν : Type} [DecidableEq κ] {f : κ → Except ε ν}
    {m m' : InsertionMap κ ν} {keys : List κ}
    (h : keys.foldlM (fun m k => do return m.set k (← f k)) m = .ok m') (k : κ) (v : ν) :
    m'.get? k = some v ↔ (k ∈ keys ∧ f k = .ok v) ∨ (k ∉ keys ∧ m.get? k = some v) := by
  induction keys generalizing m with
  | nil =>
    rw [List.foldlM_nil, pure_eq_ok_iff] at h
    simp [h]
  | cons j keys ih =>
    rw [List.foldlM_cons, bind_eq_ok_iff] at h
    obtain ⟨set, hset, hrest⟩ := h
    rw [bind_eq_ok_iff] at hset
    obtain ⟨w, hw, hset⟩ := hset
    rw [pure_eq_ok_iff] at hset
    subst hset
    rw [ih hrest, InsertionMap.get?_set, List.mem_cons]
    by_cases hkey : k ∈ keys
    · simp [hkey]
    · by_cases hk : k = j
      · subst hk
        simp [hkey, hw]
      · simp [hkey, hk]

/-- Keys can be set to the results of fallible code exactly when it returns for each. -/
lemma exists_foldlM_set_iff {ε : Type} {κ ν : Type} [DecidableEq κ] {f : κ → Except ε ν}
    {keys : List κ} {m : InsertionMap κ ν} :
    (∃ m', keys.foldlM (fun m k => do return m.set k (← f k)) m = .ok m') ↔
      ∀ k ∈ keys, ∃ v, f k = .ok v := by
  induction keys generalizing m with
  | nil => simp
  | cons j keys ih =>
    simp only [List.foldlM_cons, bind_eq_ok_iff, pure_eq_ok_iff, List.forall_mem_cons]
    constructor
    · rintro ⟨m', set, ⟨w, hw, rfl⟩, hrest⟩
      exact ⟨⟨w, hw⟩, ih.mp ⟨m', hrest⟩⟩
    · rintro ⟨⟨w, hw⟩, hall⟩
      obtain ⟨m', hrest⟩ := ih.mpr hall
      exact ⟨m', _, ⟨w, hw, rfl⟩, hrest⟩

/-- An expected key passes exactly when the build has it. -/
lemma checkVerifierKey_eq_ok_iff {artifactDir : JsString} {expected : JsString × Bytes} :
    checkVerifierKey tools files artifactDir expected = .ok () ↔
      files.Holds (verifierKeyPath artifactDir expected.1) expected.2 := by
  unfold checkVerifierKey readVerifierKey assertVerifierKeyEquals
  simp only [bind_eq_ok_iff, readExisting_eq_ok_iff]
  constructor
  · rintro ⟨actual, hholds, hequal⟩
    split_ifs at hequal with hbytes
    rw [bytesEqual_iff] at hbytes
    exact hbytes ▸ hholds
  · intro hholds
    exact ⟨expected.2, hholds, if_pos (bytesEqual_iff.mpr rfl)⟩

/-- The hashes of a committed listing are checked where there is one and a build. -/
lemma checkCommittedHashes_eq_ok_iff {profile : ToolProfile} {zkDir : JsString} :
    checkCommittedHashes tools files profile zkDir = .ok () ↔
      (files.existsSync (joinPaths profile.keysDir (js "SHA256SUMS")) = true →
        files.existsSync (joinPaths zkDir (js "keys")) = true →
        ∃ bytes, files.readFileSync (joinPaths profile.keysDir (js "SHA256SUMS")) = .ok bytes ∧
          HashesMatch tools files (fileText bytes) zkDir) := by
  unfold checkCommittedHashes
  dsimp only
  rw [← exists_checkArtifactHashes_iff]
  split_ifs with hboth
  · simp only [hboth, forall_const]
    cases checkArtifactHashes tools files zkDir (joinPaths profile.keysDir (js "SHA256SUMS")) with
    | error err => simp [Except.map]
    | ok paths => simp [Except.map]
  · simp only [true_iff]
    intro hsums hkeys
    exact absurd ⟨hsums, hkeys⟩ hboth

/-- **The key build is checked exactly.**  The checks before a proof pass exactly when the build is
the committed one. -/
theorem checkArtifacts_eq_ok_iff {profile : ToolProfile} {zkDir : JsString} :
    checkArtifacts tools files profile zkDir = .ok () ↔
      KeyBuildMatches tools files profile zkDir := by
  unfold checkArtifacts zkConfigForContract committedVerifierKeys
  simp only [bind_eq_ok_iff, Option.getD_some]
  constructor
  · rintro ⟨⟨⟩, hcommitted, expected, ⟨circuits, hcircuits, hexpected⟩, hconfig⟩
    have hhashes := checkCommittedHashes_eq_ok_iff.mp hcommitted
    split_ifs at hconfig with hmissing
    rw [Bool.not_eq_false] at hmissing
    obtain ⟨results, hresults, -⟩ := bind_eq_ok_iff.mp hconfig
    refine ⟨hmissing, fun hsums => hhashes hsums hmissing, circuits, hcircuits, ?_⟩
    intro circuit hcircuit
    obtain ⟨key, hkey⟩ := exists_foldlM_set_iff.mp ⟨_, hexpected⟩ circuit hcircuit
    have hget := (foldlM_set_eq_ok hexpected circuit key).mpr (Or.inl ⟨hcircuit, hkey⟩)
    exact ⟨key, readExisting_eq_ok_iff.mp hkey, checkVerifierKey_eq_ok_iff.mp
      (exists_mapM_eq_ok_iff.mp ⟨_, hresults⟩ _ (InsertionMap.get?_eq_some_iff.mp hget))⟩
  · rintro ⟨hkeys, hhashes, circuits, hcircuits, hall⟩
    have hcommitted : ∀ circuit ∈ circuits, ∃ key,
        committedVerifierKey files profile circuit = .ok key := by
      intro circuit hcircuit
      obtain ⟨key, hholds, -⟩ := hall circuit hcircuit
      exact ⟨key, readExisting_eq_ok_iff.mpr hholds⟩
    obtain ⟨expected, hexpected⟩ := exists_foldlM_set_iff.mpr hcommitted
    have hchecked : ∀ entry ∈ expected.entries,
        checkVerifierKey tools files zkDir entry = .ok () := by
      intro entry hentry
      have hget : expected.get? entry.1 = some entry.2 := InsertionMap.get?_eq_some_iff.mpr hentry
      rw [foldlM_set_eq_ok hexpected] at hget
      rcases hget with ⟨hcircuit, hkey⟩ | ⟨-, hempty⟩
      · obtain ⟨key, hholds, hlocal⟩ := hall entry.1 hcircuit
        have heq : key = entry.2 :=
          Except.ok.inj (hholds.2.symm.trans (readExisting_eq_ok_iff.mp hkey).2)
        exact checkVerifierKey_eq_ok_iff.mpr (heq ▸ hlocal)
      · rw [InsertionMap.get?_empty] at hempty
        cases hempty
    obtain ⟨results, hresults⟩ := exists_mapM_eq_ok_iff.mpr hchecked
    refine ⟨(), checkCommittedHashes_eq_ok_iff.mpr fun hsums _ => hhashes hsums, expected,
      ⟨circuits, hcircuits, hexpected⟩, ?_⟩
    rw [if_neg (by simp [hkeys]), hresults]
    rfl

end Checks

end MultiPartEvent
