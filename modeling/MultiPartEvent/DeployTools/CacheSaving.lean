import MultiPartEvent.DeployTools.CacheFiles

/-!
# Saving the wallet cache

A save writes a temporary file beside the cache and renames it over the cache.
`returns_saveWalletCache_iff` says when it returns and what it leaves, and `throws_saveWalletCache`
that a save that throws has changed the temporary file at most.

A save that returns may leave a part of the cache: `writeSync` may write only a prefix and say so,
and nobody looks.  `save_atomic_iff` says exactly when a save is atomic.
-/

namespace MultiPartEvent

variable {files files' : Files} {outcomes : Outcomes} {cwd path : JsString} {err : FileError}

/-! ### The calls of a save -/

/-- The calls of a save that write its file all do their work. -/
structure WritesSucceed (outcomes : Outcomes) (files : Files) (parent temporary : JsString) :
    Prop where
  directory : outcomes.existsSync parent = true ∨ outcomes.mkdir = none
  opened : outcomes.openFile = none
  new : files temporary = none
  written : outcomes.write = none
  synced : outcomes.fsync = none
  closed : outcomes.close = none
  renamed : outcomes.rename = none

/-- The file a save leaves: what `writeSync` wrote of the text. -/
def savedFile (outcomes : Outcomes) (text : JsString) : FileEntry :=
  .file 0o600 ((textEncode text).take outcomes.written)

/-- The directory is there or made, or the save fails; the files stay as they are. -/
lemma makeParent_spec (outcomes : Outcomes) (parent : JsString) (files : Files) :
    (outcomes.existsSync parent = true ∨ outcomes.mkdir = none) ∧
        makeParent (fileSystem outcomes) parent files = (.ok (), files) ∨
      ¬(outcomes.existsSync parent = true ∨ outcomes.mkdir = none) ∧
        ∃ code, makeParent (fileSystem outcomes) parent files = (.error (.system code), files) := by
  cases hexists : outcomes.existsSync parent with
  | true =>
    refine Or.inl ⟨Or.inl rfl, ?_⟩
    simp [makeParent, bind, pure, Action.andThen, Action.look, Action.ret, fileSystem, hexists]
  | false =>
    cases hmkdir : outcomes.mkdir with
    | none =>
      refine Or.inl ⟨Or.inr rfl, ?_⟩
      simp [makeParent, bind, pure, Action.andThen, Action.look, Action.ret, fileSystem, attempt,
        hexists, hmkdir]
    | some code =>
      refine Or.inr ⟨by simp, code, ?_⟩
      simp [makeParent, bind, Action.andThen, Action.look, Action.fail, fileSystem, attempt,
        hexists, hmkdir]

/-- What `writeSync` wrote is in the file, whether the calls succeed or not. -/
lemma writeText_spec (outcomes : Outcomes) (fd text : JsString) (files : Files) :
    ∃ result, writeText (fileSystem outcomes) fd text files =
        (result, Function.update files fd (some (savedFile outcomes text))) ∧
      (result = .ok () ∧ outcomes.write = none ∧ outcomes.fsync = none ∧ outcomes.close = none ∨
        (∃ code, result = .error (.system code)) ∧
          ¬(outcomes.write = none ∧ outcomes.fsync = none ∧ outcomes.close = none)) := by
  cases hwrite : outcomes.write <;> cases hfsync : outcomes.fsync <;>
    cases hclose : outcomes.close <;>
      simp [writeText, bind, pure, Action.andThen, Action.ending, Action.ret, Action.fail,
        fileSystem, attempt, savedFile, hwrite, hfsync, hclose]

section Replace

variable {parent temporary text : JsString}

/-- A new file is opened, or the call throws and changes nothing. -/
lemma openSync_spec (outcomes : Outcomes) (temporary : JsString) (files : Files) :
    outcomes.openFile = none ∧ files temporary = none ∧
        (fileSystem outcomes).openSync temporary files =
          (.ok temporary, Function.update files temporary (some (.file 0o600 []))) ∨
      ¬(outcomes.openFile = none ∧ files temporary = none) ∧ ∃ code,
        (fileSystem outcomes).openSync temporary files = (.error (.system code), files) := by
  cases hopen : outcomes.openFile with
  | some code => exact Or.inr ⟨by simp, code, by simp [fileSystem, attempt, hopen, Action.fail]⟩
  | none =>
    cases hnew : files temporary with
    | some entry =>
      exact Or.inr ⟨by simp, some (js "EEXIST"), by simp [fileSystem, attempt, hopen, hnew]⟩
    | none => exact Or.inl ⟨rfl, rfl, by simp [fileSystem, attempt, hopen, hnew]⟩

/-- The temporary file is renamed, or the call throws and changes nothing. -/
lemma renameSync_spec {entry : FileEntry} (hentry : files temporary = some entry) :
    outcomes.rename = none ∧ (fileSystem outcomes).renameSync temporary path files =
        (.ok (), Function.update (Function.update files temporary none) path (some entry)) ∨
      outcomes.rename ≠ none ∧ ∃ code,
        (fileSystem outcomes).renameSync temporary path files = (.error (.system code), files) := by
  cases hrename : outcomes.rename with
  | some code => exact Or.inr ⟨by simp, code, by simp [fileSystem, attempt, hrename, Action.fail]⟩
  | none => exact Or.inl ⟨rfl, by simp [fileSystem, attempt, hrename, hentry]⟩

/-- The `try` block leaves the file at the path when all calls do their work.  Otherwise it throws
the error of a call and has changed nothing but the temporary file. -/
lemma writeAndRename_spec (outcomes : Outcomes) (files : Files)
    (parent temporary path text : JsString) :
    (WritesSucceed outcomes files parent temporary ∧
      writeAndRename (fileSystem outcomes) parent temporary path text files =
        (.ok (), Function.update files path (some (savedFile outcomes text)))) ∨
    (¬WritesSucceed outcomes files parent temporary ∧ ∃ code files',
      writeAndRename (fileSystem outcomes) parent temporary path text files =
        (.error (.system code), files') ∧
        ∀ other, other ≠ temporary → files' other = files other) := by
  have hstays : ∀ entry other, other ≠ temporary →
      Function.update files temporary entry other = files other :=
    fun entry other hother => Function.update_of_ne hother _ _
  rcases makeParent_spec outcomes parent files with ⟨hdirectory, hmake⟩ | ⟨hdirectory, code, hmake⟩
  swap
  · refine Or.inr ⟨fun h => hdirectory h.directory, code, files, ?_, fun _ _ => rfl⟩
    exact Action.Throws.bind hmake _
  have hopenStep := Action.Returns.bind hmake fun _ => (do
    let fd ← (fileSystem outcomes).openSync temporary
    writeText (fileSystem outcomes) fd text
    (fileSystem outcomes).renameSync temporary path : Action FileError Files Unit)
  rcases openSync_spec outcomes temporary files with ⟨hopen, hnew, hopened⟩ | ⟨hopen, code, hopened⟩
  swap
  · refine Or.inr ⟨fun h => hopen ⟨h.opened, h.new⟩, code, files, ?_, fun _ _ => rfl⟩
    rw [writeAndRename, hopenStep, Action.Throws.bind hopened]
  have hwriteStep := Action.Returns.bind hopened fun fd => (do
    writeText (fileSystem outcomes) fd text
    (fileSystem outcomes).renameSync temporary path : Action FileError Files Unit)
  obtain ⟨result, hwrite, hresult⟩ := writeText_spec outcomes temporary text
    (Function.update files temporary (some (.file 0o600 [])))
  rw [Function.update_idem] at hwrite
  rcases hresult with ⟨rfl, hwritten, hsynced, hclosed⟩ | ⟨⟨code, rfl⟩, hfailed⟩
  swap
  · refine Or.inr ⟨fun h => hfailed ⟨h.written, h.synced, h.closed⟩, code,
      Function.update files temporary (some (savedFile outcomes text)), ?_, hstays _⟩
    rw [writeAndRename, hopenStep, hwriteStep, Action.Throws.bind hwrite]
  have hrenameStep :=
    Action.Returns.bind hwrite fun _ => (fileSystem outcomes).renameSync temporary path
  have hentry : Function.update files temporary (some (savedFile outcomes text)) temporary =
      some (savedFile outcomes text) := Function.update_self _ _ _
  rcases @renameSync_spec _ outcomes path temporary _ hentry with ⟨hrename, hrenamed⟩ |
    ⟨hrename, code, hrenamed⟩
  · refine Or.inl ⟨⟨hdirectory, hopen, hnew, hwritten, hsynced, hclosed, hrename⟩, ?_⟩
    have hback : Function.update files temporary none = files := by
      rw [← hnew, Function.update_eq_self]
    rw [writeAndRename, hopenStep, hwriteStep, hrenameStep, hrenamed, Function.update_idem, hback]
  · refine Or.inr ⟨fun h => hrename h.renamed, code,
      Function.update files temporary (some (savedFile outcomes text)), ?_, hstays _⟩
    rw [writeAndRename, hopenStep, hwriteStep, hrenameStep, hrenamed]

/-- The writes of a save leave the file at the path when all calls do their work.  Otherwise they
throw, change nothing but the temporary file, and remove it if that succeeds. -/
lemma replaceFile_spec (outcomes : Outcomes) (files : Files)
    (parent temporary path text : JsString) :
    (WritesSucceed outcomes files parent temporary ∧
      replaceFile (fileSystem outcomes) parent temporary path text files =
        (.ok (), Function.update files path (some (savedFile outcomes text)))) ∨
    (¬WritesSucceed outcomes files parent temporary ∧ ∃ err files',
      replaceFile (fileSystem outcomes) parent temporary path text files = (.error err, files') ∧
        (∀ other, other ≠ temporary → files' other = files other) ∧
        (outcomes.rm = none → files' temporary = none)) := by
  rcases writeAndRename_spec outcomes files parent temporary path text with ⟨hsucceed, hbody⟩ |
    ⟨hfailed, code, files', hbody, hstays⟩
  · refine Or.inl ⟨hsucceed, ?_⟩
    simp [replaceFile, Action.catching, hbody]
  · refine Or.inr ⟨hfailed, ?_⟩
    rw [replaceFile, Action.Throws.catching hbody]
    cases hrm : outcomes.rm with
    | some cause =>
      have hkept :
          (fileSystem outcomes).rmSync temporary files' = (.error (.system cause), files') := by
        simp [fileSystem, attempt, hrm, Action.fail]
      exact ⟨.system cause, files', Action.Throws.bind hkept _, hstays, by simp⟩
    | none =>
      have hremoved : (fileSystem outcomes).rmSync temporary files' =
          (.ok (), Function.update files' temporary none) := by
        simp [fileSystem, attempt, hrm, setEntry]
      refine ⟨writeFailure path (.system code), Function.update files' temporary none,
        Action.Returns.bind hremoved _, ?_, ?_⟩
      · intro other hother
        rw [Function.update_of_ne hother, hstays other hother]
      · intro _
        exact Function.update_self _ _ _

end Replace

/-- The checks of a save pass: the location is accepted, and the path holds nothing or a cache file
of the wallet. -/
structure ChecksPass (outcomes : Outcomes) (cwd path : JsString) (request : SaveRequest)
    (files : Files) : Prop where
  located : LocationAccepted outcomes cwd path request.allowInsideRepository
  accepted : ∃ found, Accepted outcomes (files path) found ∧
    ∀ members, found = some members → belongsTo members request.identity = true

/-- The writes of a save, once its checks have passed and its time is known. -/
def saveWrites (outcomes : Outcomes) (cwd path : JsString) (request : SaveRequest)
    (savedAt : JsString) : Action FileError Files Unit :=
  replaceFile (fileSystem outcomes) (parentPath cwd path)
    (temporaryPath cwd path request.pid request.random) path
    (envelopeText request.identity savedAt request.snapshots)

/-- A save whose checks fail throws a `WalletCacheError` and changes nothing; otherwise it goes on
to its writes, unless it has no valid time. -/
lemma saveWalletCache_spec (outcomes : Outcomes) (cwd path : JsString) (request : SaveRequest)
    (files : Files) :
    (¬ChecksPass outcomes cwd path request files ∧ ∃ detail,
      saveWalletCache (fileSystem outcomes) cwd path request files =
        (.error (.walletCacheError path detail), files)) ∨
    (ChecksPass outcomes cwd path request files ∧
      ((∃ error, request.now.toISOString = .error error ∧
          saveWalletCache (fileSystem outcomes) cwd path request files =
            (.error (.language error), files)) ∨
        ∃ savedAt, request.now.toISOString = .ok savedAt ∧
          saveWalletCache (fileSystem outcomes) cwd path request files =
            saveWrites outcomes cwd path request savedAt files)) := by
  unfold saveWalletCache
  rcases Action.returns_or_throws (assertLocation (fileSystem outcomes) cwd path
    request.allowInsideRepository) files with ⟨u, files', hlocation⟩ | ⟨err, files', hlocation⟩
  swap
  · obtain ⟨⟨detail, rfl⟩, rfl⟩ := throws_assertLocation hlocation
    refine Or.inl ⟨?_, detail, Action.Throws.bind hlocation _⟩
    intro h
    exact (returns_assertLocation_iff.mpr ⟨h.located, rfl⟩ :
      (assertLocation (fileSystem outcomes) cwd path request.allowInsideRepository).Returns
        files' () files').not_throws hlocation
  obtain ⟨hlocated, rfl⟩ := returns_assertLocation_iff.mp hlocation
  rw [Action.Returns.bind hlocation]
  rcases readEnvelope_spec outcomes path files' with ⟨found, haccepted, hread⟩ |
    ⟨hrefused, detail, hread⟩
  swap
  · refine Or.inl ⟨?_, detail, Action.Throws.bind hread _⟩
    intro h
    obtain ⟨found, haccepted, -⟩ := h.accepted
    exact hrefused found haccepted
  rw [Action.Returns.bind hread]
  have hreplaceable :
      (∀ members, found = some members → belongsTo members request.identity = true) ∧
        assertReplaceable path request.identity found files' = (.ok (), files') ∨
      ¬(∀ members, found = some members → belongsTo members request.identity = true) ∧
        ∃ detail, assertReplaceable path request.identity found files' =
          (.error (.walletCacheError path detail), files') := by
    cases found with
    | none => exact Or.inl ⟨by simp, rfl⟩
    | some members =>
      by_cases hbelongs : belongsTo members request.identity = true
      · exact Or.inl ⟨by simpa using hbelongs, returns_assertIdentity_iff.mpr ⟨hbelongs, rfl⟩⟩
      · exact Or.inr ⟨by simpa using hbelongs, assertIdentity_throws (by simpa using hbelongs)⟩
  rcases hreplaceable with ⟨hbelongs, hassert⟩ | ⟨hforeign, detail, hassert⟩
  swap
  · refine Or.inl ⟨?_, detail, Action.Throws.bind hassert _⟩
    intro h
    obtain ⟨found', haccepted', hbelongs⟩ := h.accepted
    rw [haccepted'.unique haccepted] at hbelongs
    exact hforeign hbelongs
  rw [Action.Returns.bind hassert]
  refine Or.inr ⟨⟨hlocated, found, haccepted, hbelongs⟩, ?_⟩
  cases htime : request.now.toISOString with
  | error error =>
    refine Or.inl ⟨error, rfl, ?_⟩
    exact Action.Throws.bind (Action.throws_lift_iff.mpr ⟨rfl, rfl⟩) _
  | ok savedAt =>
    refine Or.inr ⟨savedAt, rfl, ?_⟩
    exact Action.Returns.bind (Action.returns_lift_iff.mpr ⟨rfl, rfl⟩) _

/-- The temporary file is another one than the cache. -/
lemma temporaryPath_ne (cwd path : JsString) (pid : ℕ) (random : Bytes) :
    temporaryPath cwd path pid random ≠ path := by
  have hslash : slash ∉ temporaryName path pid random := by
    have hdecimal : slash ∉ decimal pid := fun h => absurd (mem_decimal h) (by decide)
    have hhex : slash ∉ bytesToHex random := fun h =>
      absurd (isNone_hexDigit?_bytesToHex h) (by decide)
    have hdot : slash ∉ js "." := by decide
    have htmp : slash ∉ js ".tmp-" := by decide
    have hdash : slash ∉ js "-" := by decide
    simp only [temporaryName, List.mem_append, not_or]
    exact ⟨⟨⟨⟨⟨hdot, slash_notMem_basename path⟩, htmp⟩, hdecimal⟩, hdash⟩, hhex⟩
  have hne : temporaryName path pid random ≠ [] := by simp [temporaryName, js]
  intro h
  have hbase : basename (temporaryPath cwd path pid random) = temporaryName path pid random :=
    basename_absolutePath hne hslash _
  rw [h] at hbase
  have hlength := congrArg List.length hbase
  simp only [temporaryName, List.length_append] at hlength
  have hdot : (js ".").length = 1 := rfl
  omega

/-- When a save returns, and the file it leaves. -/
lemma returns_saveWalletCache_iff {request : SaveRequest} :
    (saveWalletCache (fileSystem outcomes) cwd path request).Returns files () files' ↔
      ChecksPass outcomes cwd path request files ∧
      WritesSucceed outcomes files (parentPath cwd path)
        (temporaryPath cwd path request.pid request.random) ∧
      ∃ savedAt, request.now.toISOString = .ok savedAt ∧
        files' = Function.update files path (some (savedFile outcomes
          (envelopeText request.identity savedAt request.snapshots))) := by
  unfold Action.Returns
  rcases saveWalletCache_spec outcomes cwd path request files with ⟨hfail, detail, hresult⟩ |
    ⟨hpass, ⟨error, htime, hresult⟩ | ⟨savedAt, htime, hresult⟩⟩
  · rw [hresult]
    constructor
    · intro h
      cases h
    · intro h
      exact absurd h.1 hfail
  · rw [hresult]
    constructor
    · intro h
      cases h
    · intro h
      obtain ⟨-, -, savedAt, hok, -⟩ := h
      rw [htime] at hok
      cases hok
  · rw [hresult]
    unfold saveWrites
    rcases replaceFile_spec outcomes files (parentPath cwd path)
      (temporaryPath cwd path request.pid request.random) path
      (envelopeText request.identity savedAt request.snapshots) with ⟨hsucceed, hwrites⟩ |
      ⟨hfailed, err, middle, hwrites, -⟩
    · rw [hwrites]
      constructor
      · intro h
        cases h
        exact ⟨hpass, hsucceed, savedAt, htime, rfl⟩
      · intro h
        obtain ⟨-, -, savedAt', hok, rfl⟩ := h
        rw [htime] at hok
        rw [Except.ok.inj hok]
    · rw [hwrites]
      constructor
      · intro h
        cases h
      · intro h
        exact absurd h.2.1 hfailed

/-- A save that throws has changed nothing but the temporary file, and has removed it if it
could. -/
lemma throws_saveWalletCache {request : SaveRequest}
    (h : (saveWalletCache (fileSystem outcomes) cwd path request).Throws files err files') :
    (∀ other, other ≠ temporaryPath cwd path request.pid request.random →
      files' other = files other) ∧
      (outcomes.rm = none → ∀ other, files' other ≠ none → files other ≠ none) := by
  unfold Action.Throws at h
  rcases saveWalletCache_spec outcomes cwd path request files with ⟨-, detail, hresult⟩ |
    ⟨-, ⟨error, -, hresult⟩ | ⟨savedAt, -, hresult⟩⟩
  · rw [hresult] at h
    cases h
    exact ⟨fun _ _ => rfl, fun _ _ hother => hother⟩
  · rw [hresult] at h
    cases h
    exact ⟨fun _ _ => rfl, fun _ _ hother => hother⟩
  · rw [hresult, saveWrites] at h
    rcases replaceFile_spec outcomes files (parentPath cwd path)
      (temporaryPath cwd path request.pid request.random) path
      (envelopeText request.identity savedAt request.snapshots) with ⟨-, hwrites⟩ |
      ⟨-, cause, middle, hwrites, hstays, hremoved⟩
    · rw [hwrites] at h
      cases h
    · rw [hwrites] at h
      cases h
      refine ⟨hstays, ?_⟩
      intro hrm other hother
      by_cases htemporary : other = temporaryPath cwd path request.pid request.random
      · rw [htemporary, hremoved hrm] at hother
        exact absurd rfl hother
      · rwa [hstays other htemporary] at hother

/-! ### Atomic saving -/

/-- What a save promises: when it returns, a load whose calls do their work restores the
snapshots; when it throws, the path holds what it held and no new file is left, if the last
removal succeeds. -/
structure SavesAtomically (outcomes loading : Outcomes) (cwd path : JsString)
    (request : SaveRequest) (files : Files) : Prop where
  returned : ∀ files',
    (saveWalletCache (fileSystem outcomes) cwd path request).Returns files () files' →
    ∃ savedAt, (loadWalletCache (fileSystem loading) cwd path request.identity
      request.allowInsideRepository).Returns files' (.restorable savedAt request.snapshots) files'
  thrown : ∀ err files',
    (saveWalletCache (fileSystem outcomes) cwd path request).Throws files err files' →
      files' path = files path ∧ (outcomes.rm = none → ∀ other, files' other ≠ none →
        files other ≠ none)

/-- Every call of the save does its work and its time is valid. -/
structure CallsSucceed (outcomes : Outcomes) (cwd path : JsString) (request : SaveRequest)
    (savedAt : JsString) (files : Files) : Prop where
  located : LocationAccepted outcomes cwd path request.allowInsideRepository
  read : ∃ found, Accepted outcomes (files path) found
  writes : WritesSucceed outcomes files (parentPath cwd path)
    (temporaryPath cwd path request.pid request.random)
  time : request.now.toISOString = .ok savedAt

/-- `writeSync` takes the whole text, or all but the newline at its end; the file is not too large
to be loaded; and a load finds no repository around it. -/
structure WritesWhole (outcomes loading : Outcomes) (cwd path : JsString) (request : SaveRequest)
    (savedAt : JsString) : Prop where
  whole : (textEncode (envelopeText request.identity savedAt request.snapshots)).length ≤
    outcomes.written + 1
  size : ((textEncode (envelopeText request.identity savedAt request.snapshots)).take
    outcomes.written).length ≤ maxCacheBytes
  located : LocationAccepted loading cwd path request.allowInsideRepository

/-- The members of an envelope are plain values. -/
lemma isPlain_envelopeMembers (identity : WalletCacheIdentity) (savedAt : JsString)
    (snapshots : WalletSnapshots) :
    ∀ member ∈ envelopeMembers identity savedAt snapshots, member.2.IsPlain := by
  have hone : readJsonNumber (integerText 1) = some (.int 1) := by decide
  simp only [envelopeMembers, WalletCacheIdentity.fields, List.map_cons, List.map_nil,
    List.cons_append, List.nil_append, List.forall_mem_cons, List.not_mem_nil, false_imp_iff,
    implies_true, and_true, Json.IsPlain, true_and]
  exact hone

/-- An envelope is read back from its text, with or without the newline. -/
lemma readJson_envelope (identity : WalletCacheIdentity) (savedAt : JsString)
    (snapshots : WalletSnapshots) {space : JsString} (hspace : skipWhitespace space = []) :
    readJson ((Json.object (envelopeMembers identity savedAt snapshots)).stringify ++ space) =
      some (.object (envelopeMembers identity savedAt snapshots)) :=
  readJson_stringify (isPlain_envelopeMembers identity savedAt snapshots) hspace

/-- The text of an envelope has no lone surrogate. -/
lemma paired_envelope (identity : WalletCacheIdentity) (savedAt : JsString)
    (snapshots : WalletSnapshots) :
    Paired (Json.object (envelopeMembers identity savedAt snapshots)).stringify := by
  refine paired_stringify_object fun member hmember => ?_
  have hplain := isPlain_envelopeMembers identity savedAt snapshots member hmember
  obtain ⟨key, value⟩ := member
  cases value with
  | string s => exact paired_quote s
  | number n =>
    cases n with
    | int z => exact paired_integerText z
    | other t => exact absurd hplain id
  | null => exact absurd hplain id
  | bool b => exact absurd hplain id
  | array items => exact absurd hplain id
  | object members => exact absurd hplain id

/-- A saved envelope is one, belongs to its wallet and is restored. -/
lemma envelope_facts (identity : WalletCacheIdentity) (savedAt : JsString)
    (snapshots : WalletSnapshots) :
    envelopeOf (some (.object (envelopeMembers identity savedAt snapshots))) =
        some (envelopeMembers identity savedAt snapshots) ∧
      belongsTo (envelopeMembers identity savedAt snapshots) identity = true ∧
      loadEnvelope (envelopeMembers identity savedAt snapshots) =
        .restorable savedAt snapshots := by
  have hfield : ∀ field ∈ identity.fields,
      member? (envelopeMembers identity savedAt snapshots) field.1 = some (.string field.2) := by
    simp only [WalletCacheIdentity.fields, List.forall_mem_cons, List.not_mem_nil, false_imp_iff,
      implies_true, and_true]
    exact ⟨rfl, rfl, rfl, rfl, rfl⟩
  have hversion :
      isOne (member? (envelopeMembers identity savedAt snapshots) (js "version")) = true := by
    have hmember : member? (envelopeMembers identity savedAt snapshots) (js "version") =
        some (.number (.int 1)) := rfl
    rw [hmember]
    decide +kernel
  have hsdk : isText (member? (envelopeMembers identity savedAt snapshots) (js "sdk"))
      walletCacheSdk = true := rfl
  refine ⟨rfl, ?_, ?_⟩
  · rw [belongsTo, List.all_eq_true]
    intro field hmem
    rw [hfield field hmem]
    simp [isText]
  · rw [loadEnvelope, if_neg (by simp [hversion, hsdk])]
    rfl

/-- The file of a save that wrote everything is a cache file of the wallet. -/
lemma cacheAt_savedFile {identity : WalletCacheIdentity} {savedAt : JsString}
    {snapshots : WalletSnapshots}
    (h : (textEncode (envelopeText identity savedAt snapshots)).length ≤ outcomes.written + 1) :
    CacheAt (savedFile outcomes (envelopeText identity savedAt snapshots))
      (envelopeMembers identity savedAt snapshots) := by
  have hpaired := paired_envelope identity savedAt snapshots
  have hread : ∃ space, skipWhitespace space = [] ∧
      fileText ((textEncode (envelopeText identity savedAt snapshots)).take outcomes.written) =
        (Json.object (envelopeMembers identity savedAt snapshots)).stringify ++ space := by
    have hnewline : textEncode (js "\n") = [10] := by decide
    have hbytes : textEncode (envelopeText identity savedAt snapshots) =
        textEncode (Json.object (envelopeMembers identity savedAt snapshots)).stringify ++
          [10] := by
      rw [envelopeText, textEncode_append hpaired, hnewline]
    rw [hbytes, List.length_append, List.length_singleton] at h
    rw [hbytes]
    by_cases hall : (textEncode (Json.object (envelopeMembers identity savedAt
        snapshots)).stringify).length < outcomes.written
    · refine ⟨js "\n", by decide, ?_⟩
      rw [List.take_of_length_le (by simpa using hall), ← hnewline, ← textEncode_append hpaired]
      exact fileText_textEncode (hpaired.append (paired_literal rfl))
    · refine ⟨[], rfl, ?_⟩
      have hlength : outcomes.written = (textEncode (Json.object (envelopeMembers identity savedAt
          snapshots)).stringify).length := by omega
      rw [hlength, List.take_left', List.append_nil]
      · exact fileText_textEncode hpaired
      · rfl
  obtain ⟨space, hspace, hread⟩ := hread
  refine ⟨_, _, rfl, by decide, ?_⟩
  rw [hread, readJson_envelope identity savedAt snapshots hspace]
  exact (envelope_facts identity savedAt snapshots).1

/-- Only an object is an envelope. -/
lemma envelopeOf_eq_some {parsed : Option Json} {members : Members}
    (h : envelopeOf parsed = some members) :
    parsed = some (.object members) ∧ isText (member? members (js "kind")) walletCacheKind =
      true := by
  unfold envelopeOf at h
  split at h
  · rename_i object
    by_cases hkind : isText (member? object (js "kind")) walletCacheKind = true
    · rw [if_pos hkind] at h
      cases h
      exact ⟨rfl, hkind⟩
    · rw [if_neg hkind] at h
      cases h
  · cases h

/-- What follows a part of an envelope's text is white space only if it is at most the newline. -/
lemma back_of_whitespace {members : Members} {front back : JsString}
    (hsplit : (Json.object members).stringify ++ js "\n" = front ++ back)
    (hspace : skipWhitespace back = []) : back = [] ∨ back = js "\n" := by
  have hbrace : (Json.object members).stringify.getLast? = some (charUnit '\x7d') := by
    rw [Json.stringify]
    exact List.getLast?_concat
  have hall : ∀ u ∈ back, isWhitespace u = true := by
    rwa [skipWhitespace, List.dropWhile_eq_nil_iff] at hspace
  rcases List.append_eq_append_iff.mp hsplit with ⟨more, hfront, hnewline⟩ | ⟨more, hbody, rfl⟩
  · cases more with
    | nil => exact Or.inr hnewline.symm
    | cons u more =>
      have hnil := congrArg List.length hnewline
      have hone : (js "\n").length = 1 := rfl
      rw [hone, List.cons_append, List.length_cons, List.length_append] at hnil
      exact Or.inl (List.length_eq_zero_iff.mp (by omega))
  · cases more with
    | nil => exact Or.inr rfl
    | cons u more =>
      rw [hbody, List.getLast?_append, List.getLast?_cons] at hbrace
      have hmem : charUnit '\x7d' ∈ (u :: more) ++ js "\n" := by
        refine List.mem_append_left _ (List.mem_of_getLast? ?_)
        rw [List.getLast?_cons]
        simpa using hbrace
      exact absurd (hall _ hmem) (by decide)

/-- The file of a save that wrote less is no cache file: a load refuses it, and so does every later
save. -/
lemma not_cacheAt_savedFile {identity : WalletCacheIdentity} {savedAt : JsString}
    {snapshots : WalletSnapshots} {members : Members}
    (h : outcomes.written + 1 < (textEncode (envelopeText identity savedAt snapshots)).length) :
    ¬CacheAt (savedFile outcomes (envelopeText identity savedAt snapshots)) members := by
  intro hcache
  obtain ⟨mode, bytes, hfile, -, henvelope⟩ := hcache.private_file
  cases hfile
  have hpaired := paired_envelope identity savedAt snapshots
  have htext : Paired (envelopeText identity savedAt snapshots) :=
    hpaired.append (paired_literal rfl)
  obtain ⟨object, hobject⟩ :
      ∃ object, readJson (fileText ((textEncode (envelopeText identity savedAt
      snapshots)).take outcomes.written)) = some (.object object) :=
    ⟨members, (envelopeOf_eq_some henvelope).1⟩
  obtain ⟨front, back, hsplit, hread⟩ := fileText_take htext outcomes.written
  rcases hread with ⟨hfront, hback⟩ | hfront
  · -- the rest of the text is white space, so it is at most the newline
    rw [hfront] at hobject
    have hfull :
        readJson (front ++ back) = some (.object (envelopeMembers identity savedAt snapshots)) := by
      rw [← hsplit]
      exact readJson_envelope identity savedAt snapshots (by decide)
    have hspace := readJson_object_append hobject hfull
    have hlength := congrArg List.length hback
    rw [List.length_drop] at hlength
    rcases back_of_whitespace hsplit hspace with rfl | rfl
    · have hnil : (textEncode []).length = 0 := rfl
      omega
    · have hone : (textEncode (js "\n")).length = 1 := rfl
      omega
  · rw [hfront] at hobject
    rcases readJson_object_getLast hobject with hbrace | hspace
    · exact absurd hbrace (by decide)
    · exact absurd hspace (by decide)

/-- The calls of a load do their work. -/
structure LoadSucceeds (loading : Outcomes) : Prop where
  stated : loading.lstat = none
  read : loading.readFile = none

/-- On a path that holds nothing or a cache file of the wallet, a save whose calls do their work
passes its checks. -/
lemma CallsSucceed.checksPass {request : SaveRequest} {savedAt : JsString}
    (h : CallsSucceed outcomes cwd path request savedAt files)
    (hpath : ∀ entry, files path = some entry → OwnedBy request.identity entry) :
    ChecksPass outcomes cwd path request files := by
  obtain ⟨found, haccepted⟩ := h.read
  refine ⟨h.located, found, haccepted, ?_⟩
  rintro members rfl
  obtain ⟨entry, hentry, hmembers⟩ := haccepted.cacheAt
  obtain ⟨members', hcache, hbelongs⟩ := hpath entry hentry
  rwa [hmembers.unique hcache]

/-- The load after a save restores the snapshots exactly when the save wrote the whole cache. -/
lemma load_saved_iff {loading : Outcomes} (hloading : LoadSucceeds loading) {request : SaveRequest}
    {savedAt : JsString} (hfile : files' path = some (savedFile outcomes
      (envelopeText request.identity savedAt request.snapshots))) :
    (∃ time, (loadWalletCache (fileSystem loading) cwd path request.identity
        request.allowInsideRepository).Returns files' (.restorable time request.snapshots) files') ↔
      WritesWhole outcomes loading cwd path request savedAt := by
  constructor
  · intro h
    obtain ⟨time, hload⟩ := h
    obtain ⟨hlocated, hfound, -⟩ := returns_loadWalletCache_iff.mp hload
    rcases hfound with ⟨-, habsent⟩ | ⟨members, haccepted, -, -⟩
    · cases habsent
    · rw [hfile] at haccepted
      obtain ⟨-, hcache, hsize, -⟩ := haccepted
      refine ⟨?_, hsize, hlocated⟩
      by_contra hshort
      exact not_cacheAt_savedFile (lt_of_not_ge hshort) hcache
  · intro h
    obtain ⟨-, hbelongs, hrestorable⟩ := envelope_facts request.identity savedAt request.snapshots
    refine ⟨savedAt, returns_loadWalletCache_iff.mpr ⟨h.located, Or.inr ⟨_, ?_, hbelongs,
      hrestorable.symm⟩, rfl⟩⟩
    rw [hfile]
    exact ⟨hloading.stated, cacheAt_savedFile h.whole, h.size, hloading.read⟩

/-- A save that throws keeps its promise. -/
lemma save_thrown {request : SaveRequest}
    (h : (saveWalletCache (fileSystem outcomes) cwd path request).Throws files err files') :
    files' path = files path ∧
      (outcomes.rm = none → ∀ other, files' other ≠ none → files other ≠ none) := by
  obtain ⟨hstays, hremoved⟩ := throws_saveWalletCache h
  exact ⟨hstays path (temporaryPath_ne cwd path request.pid request.random).symm, hremoved⟩

/-- **Saving the cache is atomic exactly when what is renamed is whole.**  If every call of a save
does its work, `writeSync` must have taken the whole text of a cache that is not too large and lies
in no repository; `writeSync` may take less and return, and the part it took then replaces the
cache. -/
theorem save_atomic_iff (outcomes loading : Outcomes) (cwd path : JsString) (request : SaveRequest)
    (files : Files) (hloading : LoadSucceeds loading)
    (hpath : ∀ entry, files path = some entry → OwnedBy request.identity entry) :
    SavesAtomically outcomes loading cwd path request files ↔
      ∀ savedAt, CallsSucceed outcomes cwd path request savedAt files →
        WritesWhole outcomes loading cwd path request savedAt := by
  constructor
  · intro h savedAt hsucceed
    have hsaved := returns_saveWalletCache_iff.mpr
      ⟨hsucceed.checksPass hpath, hsucceed.writes, savedAt, hsucceed.time, rfl⟩
    have hfile := Function.update_self path (some (savedFile outcomes
      (envelopeText request.identity savedAt request.snapshots))) files
    exact (load_saved_iff hloading hfile).mp (h.returned _ hsaved)
  · intro h
    refine ⟨?_, fun err files' => save_thrown⟩
    intro files' hsaved
    obtain ⟨hpass, hwrites, savedAt, htime, rfl⟩ := returns_saveWalletCache_iff.mp hsaved
    obtain ⟨found, haccepted, -⟩ := hpass.accepted
    have hwhole := h savedAt ⟨hpass.located, ⟨found, haccepted⟩, hwrites, htime⟩
    exact (load_saved_iff hloading (Function.update_self _ _ _)).mpr hwhole

/-- A save on a test network. -/
def sampleSave : SaveRequest where
  identity := ⟨js "stagenet", js "coin", js "encryption", js "unshielded", js "dust"⟩
  snapshots := ⟨js "{}", js "[3]", js "{}"⟩
  now := JsDate.ofMilliseconds 1790164800000
  allowInsideRepository := false
  pid := 7
  random := [0, 1, 2, 3, 4, 5]

/-- The cache of the wallet, saved before. -/
def sampleCache : FileEntry :=
  savedFile (quietOutcomes 4096) (envelopeText sampleSave.identity (js "2026-09-23T12:00:00.000Z")
    sampleSave.snapshots)

/-- The files with that cache. -/
def sampleFiles : Files := Function.update (fun _ => none) (js "cache.json") (some sampleCache)

/-- The cache of the sample files belongs to the wallet. -/
lemma ownedBy_sampleFiles : ∀ entry, sampleFiles (js "cache.json") = some entry →
    OwnedBy sampleSave.identity entry := by
  intro entry hentry
  have hsample : sampleFiles (js "cache.json") = some sampleCache := Function.update_self _ _ _
  rw [hsample] at hentry
  cases hentry
  exact ⟨_, cacheAt_savedFile (by decide +kernel), (envelope_facts _ _ _).2.1⟩

/-- All calls of the save on the sample files succeed. -/
lemma callsSucceed_sample (written : ℕ) : CallsSucceed (quietOutcomes written) (js "/home/me")
    (js "cache.json") sampleSave (js "2026-09-23T12:00:00.000Z") sampleFiles where
  located := Or.inr rfl
  read := by
    have hsample : sampleFiles (js "cache.json") = some sampleCache := Function.update_self _ _ _
    rw [hsample]
    exact ⟨some _, rfl, cacheAt_savedFile (by decide +kernel), by decide +kernel, rfl⟩
  writes :=
    { directory := Or.inr rfl
      opened := rfl
      new := Function.update_of_ne (temporaryPath_ne _ _ _ _) _ _
      written := rfl
      synced := rfl
      closed := rfl
      renamed := rfl }
  time := by decide +kernel

/-- A save that writes everything over the earlier cache is atomic. -/
theorem save_atomic_sample :
    SavesAtomically (quietOutcomes 4096) (quietOutcomes 4096) (js "/home/me")
    (js "cache.json") sampleSave sampleFiles := by
  refine (save_atomic_iff _ _ _ _ _ _ ⟨rfl, rfl⟩ ownedBy_sampleFiles).mpr ?_
  intro savedAt hsucceed
  have htime := hsucceed.time
  rw [(callsSucceed_sample 4096).time] at htime
  cases htime
  exact ⟨by decide +kernel, by decide +kernel, Or.inr (by decide)⟩

/-- **A short write destroys the cache**: `writeSync` writes 10 bytes of the envelope and says so,
the save renames them over the earlier cache of the wallet and returns, and no load restores
anything. -/
theorem save_cut_short :
    (∀ entry, sampleFiles (js "cache.json") = some entry → OwnedBy sampleSave.identity entry) ∧
      ¬SavesAtomically (quietOutcomes 10) (quietOutcomes 4096) (js "/home/me") (js "cache.json")
        sampleSave sampleFiles := by
  refine ⟨ownedBy_sampleFiles, ?_⟩
  intro h
  have hsucceed := callsSucceed_sample 10
  have hsaved := returns_saveWalletCache_iff.mpr ⟨hsucceed.checksPass ownedBy_sampleFiles,
    hsucceed.writes, _, hsucceed.time, rfl⟩
  have hwhole := (load_saved_iff ⟨rfl, rfl⟩ (Function.update_self _ _ _)).mp (h.returned _ hsaved)
  exact absurd hwhole.whole (by decide +kernel)

end MultiPartEvent
