import MultiPartEvent.DeployTools.FileTree
import MultiPartEvent.DeployTools.WalletCache

/-!
# Protected files and repositories

`enclosingRepository` looks for `.git` in the directories above a path by name; the file is created
where the links of the path lead.  So a protected file stays outside every repository exactly when
each repository around its real place also shows above its name (`protected_outside_iff`).  A link
to a directory inside a repository passes the check (`linked_directory_inside`).
-/

namespace MultiPartEvent

/-- A directory above the place has a `.git` entry. -/
def InRepository (tree : Tree) (place : Place) : Prop :=
  ∃ above, above <+: place ∧ above ≠ place ∧ tree (above ++ [js ".git"]) ≠ none

/-- Every file was put at a place outside every repository. -/
def OutsideRepositories (s : TreeState) : Prop :=
  ∀ entry ∈ s.placed, ¬InRepository entry.1 entry.2

/-- A directory above the path by name, from the root to its `dirname`, has a `.git` entry that
`existsSync` finds. -/
def NamedInRepository (tree : Tree) (cwd : Place) (path : JsString) : Prop :=
  ∃ above, above <+: parentNames (absolutePath cwd) path ∧
    pathExists tree cwd (absolutePath (above ++ [js ".git"])) = true

/-- The code's walk finds no repository exactly when none shows above the path by name. -/
lemma enclosingRepository_eq_none_iff_named {tree : Tree} {cwd : Place} {path : JsString} :
    enclosingRepository (pathExists tree cwd) (parentNames (absolutePath cwd) path).reverse = none ↔
      ¬NamedInRepository tree cwd path := by
  rw [enclosingRepository_eq_none_iff, NamedInRepository]
  simp

/-- A repository that the code's walk finds shows above the path by name. -/
lemma namedInRepository_of_eq_some {tree : Tree} {cwd : Place} {path repository : JsString}
    (h : enclosingRepository (pathExists tree cwd)
      (parentNames (absolutePath cwd) path).reverse = some repository) :
    NamedInRepository tree cwd path := by
  by_contra hnot
  rw [enclosingRepository_eq_none_iff_named.mpr hnot] at h
  cases h

/-- The directory of the path is there, or its missing directories are made. -/
def ParentMade (outcomes : Outcomes) (tree : Tree) (cwd : Place) (path : JsString) (tree' : Tree) :
    Prop :=
  pathExists tree cwd (parentPath (absolutePath cwd) path) = true ∧ tree' = tree ∨
    pathExists tree cwd (parentPath (absolutePath cwd) path) = false ∧ outcomes.mkdir = none ∧
      makeDirectories tree [] (pathNames (parentPath (absolutePath cwd) path)) = .ok tree'

/-- The calls up to the creation of the file, in the directory of the path, do their work: the file
is put at the place, in the tree. -/
structure Creates (outcomes : Outcomes) (tree : Tree) (cwd : Place) (path file : JsString)
    (tree' : Tree) (place : Place) : Prop where
  made : ParentMade outcomes tree cwd path tree'
  opened : outcomes.openFile = none
  leads : placeOf tree' cwd file = .ok place
  new : tree' place = none

/-- The rename of the temporary file does its work: the file is put at the place, in the tree. -/
structure Renames (outcomes : Outcomes) (tree : Tree) (cwd : Place) (temporary path : JsString)
    (tree' : Tree) (place : Place) : Prop where
  renamed : outcomes.rename = none
  taken : ∃ source mode bytes, placeOf tree cwd temporary = .ok source ∧
    tree source = some (.file mode bytes) ∧ tree' = Function.update tree source none
  leads : placeOf tree cwd path = .ok place
  replaces : tree place ≠ some .directory

/-- The calls that write the temporary file do their work. -/
def Outcomes.Writes (outcomes : Outcomes) : Prop :=
  outcomes.write = none ∧ outcomes.fsync = none ∧ outcomes.close = none

/-- A save that replaces the file with the text puts a file at the place, in the tree: the temporary
file in the directory of the path, or the renamed file where the path leads. -/
inductive Replaces (outcomes : Outcomes) (tree : Tree) (cwd : Place)
    (path temporary text : JsString) :
    Tree → Place → Prop where
  | creates {made : Tree} {opened : Place}
      (h : Creates outcomes tree cwd path temporary made opened) :
    Replaces outcomes tree cwd path temporary text made opened
  | renames {made tree' : Tree} {opened place : Place}
    (h : Creates outcomes tree cwd path temporary made opened) (hwrites : outcomes.Writes)
    (hrenames : Renames outcomes (Function.update made opened
      (some (.file 0o600 ((textEncode text).take outcomes.written))))
        cwd temporary path tree' place) :
    Replaces outcomes tree cwd path temporary text tree' place

/-- A save gets past its checks of the file at the path, with the text of the save time. -/
def Accepts (outcomes : Outcomes) (tree : Tree) (cwd : Place) (path : JsString)
    (request : SaveRequest) (savedAt : JsString) : Prop :=
  (∃ existing, (readEnvelope (treeSystem cwd outcomes) path ⟨tree, []⟩).1 = .ok existing ∧
    ∀ members ∈ existing, belongsTo members request.identity = true) ∧
  request.now.toISOString = .ok savedAt

variable {outcomes : Outcomes} {cwd : Place} {path : JsString}

/-! ### Calls that put no file anywhere -/

section Keeps

variable (outcomes cwd) (I : TreeState → Prop)

/-- Looking at a path changes nothing. -/
lemma keeps_lstatSync (path : JsString) :
    Action.Keeps I ((treeSystem cwd outcomes).lstatSync path) := by
  refine keeps_attempt (fun s hs => ?_) _
  unfold onPlace
  cases statPlace s.tree cwd path with
  | error code => exact hs
  | ok place =>
    simp only
    split <;> exact hs

/-- Reading a file changes nothing. -/
lemma keeps_readFileSync (path : JsString) :
    Action.Keeps I ((treeSystem cwd outcomes).readFileSync path) := by
  refine keeps_attempt (fun s hs => ?_) _
  unfold onPlace
  cases target s.tree cwd path with
  | error code => exact hs
  | ok place =>
    simp only
    split <;> exact hs

/-- Reading a protected file changes nothing. -/
lemma keeps_readProtectedFile (path : JsString) :
    Action.Keeps I (readProtectedFile (treeSystem cwd outcomes) path) := by
  unfold readProtectedFile
  refine Action.Keeps.bind ((keeps_lstatSync outcomes cwd I path).catching fun err =>
    Action.keeps_fail _) fun stats => ?_
  refine Action.Keeps.bind (Action.keeps_failIf _ _) fun _ => ?_
  refine Action.Keeps.bind (Action.keeps_failIf _ _) fun _ => ?_
  refine Action.Keeps.bind (Action.keeps_failIf _ _) fun _ => ?_
  refine Action.Keeps.bind (Action.keeps_failIf _ _) fun _ => ?_
  refine Action.Keeps.bind (Action.keeps_failIf _ _) fun _ => ?_
  exact (keeps_readFileSync outcomes cwd I path).bind fun bytes => Action.keeps_pure _

/-- Reading an envelope changes nothing. -/
lemma keeps_readEnvelope (path : JsString) :
    Action.Keeps I (readEnvelope (treeSystem cwd outcomes) path) := by
  have hstat : Action.Keeps I (statFile (treeSystem cwd outcomes) path) := by
    refine ((keeps_lstatSync outcomes cwd I path).bind fun stats => Action.keeps_pure _).catching ?_
    intro err
    by_cases hmissing : err.code = js "ENOENT"
    · rw [if_pos hmissing]
      exact Action.keeps_pure _
    · rw [if_neg hmissing]
      exact Action.keeps_fail _
  have hparse : Action.Keeps I (parseFile (treeSystem cwd outcomes) path) :=
    ((keeps_readFileSync outcomes cwd I path).bind fun bytes => Action.keeps_pure _).catching
      fun err => Action.keeps_pure _
  unfold readEnvelope
  refine hstat.bind fun found => ?_
  cases found with
  | none => exact Action.keeps_pure _
  | some stats =>
    refine Action.Keeps.bind (Action.keeps_failIf _ _) fun _ => ?_
    refine Action.Keeps.bind (Action.keeps_failIf _ _) fun _ => ?_
    refine Action.Keeps.bind (Action.keeps_failIf _ _) fun _ => ?_
    refine Action.Keeps.bind (Action.keeps_failIf _ _) fun _ => ?_
    refine hparse.bind fun parsed => ?_
    cases envelopeOf parsed with
    | none => exact Action.keeps_fail _
    | some members => exact Action.keeps_pure _

end Keeps

/-- Writing to a file puts no file anywhere. -/
lemma keeps_writeText (outcomes : Outcomes) (cwd place : Place) (text : JsString)
    (placed : List (Tree × Place)) :
    Action.Keeps (fun s => s.placed = placed) (writeText (treeSystem cwd outcomes) place text) := by
  refine Action.Keeps.ending (Action.Keeps.bind ?_ fun _ => ?_) ?_
  · intro s hs
    simp only [treeSystem]
    cases outcomes.write <;> exact hs
  · exact keeps_attempt (Action.keeps_pure _) _
  · exact keeps_attempt (Action.keeps_pure _) _

/-- A call that returns has not failed. -/
lemma failure_eq_none {σ α : Type} {failure : Option ErrorCode} {work : Action FileError σ α}
    {s s' : σ} {a : α} (h : (attempt failure work).Returns s a s') : failure = none := by
  cases failure with
  | none => rfl
  | some code => exact absurd h Action.not_returns_fail

/-- The text is written, or the code throws; no file is put anywhere. -/
lemma writeText_tree (outcomes : Outcomes) (cwd place : Place) (text : JsString) (s : TreeState) :
    (outcomes.Writes ∧ writeText (treeSystem cwd outcomes) place text s =
      (.ok (), s.set place (some (.file 0o600 ((textEncode text).take outcomes.written))))) ∨
    (¬outcomes.Writes ∧ ∃ err s', s'.placed = s.placed ∧
      writeText (treeSystem cwd outcomes) place text s = (.error err, s')) := by
  by_cases hwrites : outcomes.Writes
  · refine Or.inl ⟨hwrites, ?_⟩
    obtain ⟨hwrite, hfsync, hclose⟩ := hwrites
    simp [writeText, bind, pure, Action.ending, Action.andThen, Action.ret, treeSystem, attempt,
      hclose, hwrite, hfsync]
  · refine Or.inr ⟨hwrites, ?_⟩
    rcases Action.returns_or_throws (writeText (treeSystem cwd outcomes) place text) s with
      ⟨u, s', hreturns⟩ | ⟨err, s', hthrows⟩
    · refine absurd ?_ hwrites
      obtain ⟨middle, hbody, hclose⟩ := Action.returns_ending_iff.mp hreturns
      obtain ⟨count, written, hwritten, hfsync⟩ := Action.returns_bind_iff.mp hbody
      refine ⟨?_, failure_eq_none hfsync, failure_eq_none hclose⟩
      cases hwrite : outcomes.write with
      | none => rfl
      | some code =>
        unfold Action.Returns at hwritten
        simp [treeSystem, hwrite] at hwritten
    · exact ⟨err, s', (keeps_writeText outcomes cwd place text s.placed).of_throws rfl hthrows,
        hthrows⟩

/-! ### The calls of a creation -/

/-- There is one tree with the directory. -/
lemma ParentMade.unique {tree made tree' : Tree} (h : ParentMade outcomes tree cwd path tree')
    (h' : ParentMade outcomes tree cwd path made) : tree' = made := by
  unfold ParentMade at h h'
  rcases h with ⟨hexists, htree⟩ | ⟨hmissing, -, hmade⟩
  · rcases h' with ⟨-, htree'⟩ | ⟨hmissing, -⟩
    · rw [htree, htree']
    · rw [hexists] at hmissing
      cases hmissing
  · rcases h' with ⟨hexists, -⟩ | ⟨-, -, hmade'⟩
    · rw [hmissing] at hexists
      cases hexists
    · rw [hmade] at hmade'
      cases hmade'
      rfl

/-- The directory check returns when there is a tree with the directory. -/
lemma makeParent_tree (outcomes : Outcomes) (cwd : Place) (path : JsString) (s : TreeState) :
    (∃ tree', ParentMade outcomes s.tree cwd path tree' ∧
      makeParent (treeSystem cwd outcomes) (parentPath (absolutePath cwd) path) s =
        (.ok (), { s with tree := tree' })) ∨
    (∀ tree', ¬ParentMade outcomes s.tree cwd path tree') ∧ ∃ code,
      makeParent (treeSystem cwd outcomes) (parentPath (absolutePath cwd) path) s =
        (.error (.system code), s) := by
  unfold ParentMade
  cases hexists : pathExists s.tree cwd (parentPath (absolutePath cwd) path) with
  | true =>
    refine Or.inl ⟨s.tree, Or.inl ⟨rfl, rfl⟩, ?_⟩
    simp [makeParent, bind, pure, Action.andThen, Action.look, Action.ret, treeSystem, hexists]
  | false =>
    cases hmkdir : outcomes.mkdir with
    | some code =>
      refine Or.inr ⟨by simp, code, ?_⟩
      simp [makeParent, bind, Action.andThen, Action.look, Action.fail, treeSystem, attempt,
        hexists, hmkdir]
    | none =>
      cases hmade : makeDirectories s.tree [] (pathNames (parentPath (absolutePath cwd) path)) with
      | error code =>
        refine Or.inr ⟨by simp, some code, ?_⟩
        simp [makeParent, bind, Action.andThen, Action.look, treeSystem, attempt, hexists, hmkdir,
          hmade]
      | ok tree' =>
        refine Or.inl ⟨tree', Or.inr ⟨rfl, rfl, rfl⟩, ?_⟩
        simp [makeParent, bind, Action.andThen, Action.look, treeSystem, attempt, hexists, hmkdir,
          hmade]

/-- A new file is put at its place, or the call throws and changes nothing. -/
lemma openSync_tree (outcomes : Outcomes) (cwd : Place) (file : JsString) (s : TreeState) :
    (∃ place, outcomes.openFile = none ∧ placeOf s.tree cwd file = .ok place ∧ s.tree place = none ∧
      (treeSystem cwd outcomes).openSync file s = (.ok place, s.put place (.file 0o600 []))) ∨
    (∀ place,
      ¬(outcomes.openFile = none ∧ placeOf s.tree cwd file = .ok place ∧ s.tree place = none)) ∧
      ∃ code, (treeSystem cwd outcomes).openSync file s = (.error (.system code), s) := by
  cases hopen : outcomes.openFile with
  | some code => exact Or.inr ⟨by simp, code, by simp [treeSystem, attempt, hopen, Action.fail]⟩
  | none =>
    cases hplace : placeOf s.tree cwd file with
    | error code =>
      refine Or.inr ⟨by simp, some code, ?_⟩
      simp [treeSystem, attempt, hopen, onPlace, hplace, Action.fail]
    | ok place =>
      by_cases hnew : s.tree place = none
      · refine Or.inl ⟨place, rfl, rfl, hnew, ?_⟩
        simp [treeSystem, attempt, hopen, onPlace, hplace, hnew]
      · refine Or.inr ⟨?_, some (js "EEXIST"), ?_⟩
        · rintro place' ⟨-, hsame, hnew'⟩
          cases hsame
          exact hnew hnew'
        · simp [treeSystem, attempt, hopen, onPlace, hplace, hnew]

/-- A file is put where the path leads by the rename, or the call throws and changes nothing. -/
lemma renameSync_tree (outcomes : Outcomes) (cwd : Place) (temporary path : JsString)
    (s : TreeState) :
    (∃ tree' place node, Renames outcomes s.tree cwd temporary path tree' place ∧
      (treeSystem cwd outcomes).renameSync temporary path s =
        (.ok (), (⟨tree', s.placed⟩ : TreeState).put place node)) ∨
    (∀ tree' place, ¬Renames outcomes s.tree cwd temporary path tree' place) ∧
      ∃ code, (treeSystem cwd outcomes).renameSync temporary path s =
        (.error (.system code), s) := by
  cases hrename : outcomes.rename with
  | some code =>
    refine Or.inr ⟨?_, code, by simp [treeSystem, attempt, hrename, Action.fail]⟩
    intro tree' place h
    rw [h.renamed] at hrename
    cases hrename
  | none =>
    cases hsource : placeOf s.tree cwd temporary with
    | error code =>
      refine Or.inr ⟨?_, some code, by simp [treeSystem, attempt, hrename, onPlace, hsource,
        Action.fail]⟩
      intro tree' place h
      obtain ⟨source, mode, bytes, hleads, -⟩ := h.taken
      rw [hsource] at hleads
      cases hleads
    | ok source =>
      cases hplace : placeOf s.tree cwd path with
      | error code =>
        refine Or.inr ⟨?_, some code, ?_⟩
        · intro tree' place h
          have hleads := h.leads
          rw [hplace] at hleads
          cases hleads
        · simp [treeSystem, attempt, hrename, onPlace, hsource, hplace, Action.fail]
      | ok place =>
        by_cases hfile : ∃ mode bytes, s.tree source = some (.file mode bytes)
        · obtain ⟨mode, bytes, hfile⟩ := hfile
          by_cases hdirectory : s.tree place = some .directory
          · refine Or.inr ⟨?_, some (js "EISDIR"), ?_⟩
            · intro tree' place' h
              have hleads := h.leads
              rw [hplace] at hleads
              cases hleads
              exact h.replaces hdirectory
            · simp [treeSystem, attempt, hrename, onPlace, hsource, hplace, hfile, hdirectory]
          · refine Or.inl ⟨Function.update s.tree source none, place, .file mode bytes,
              ⟨hrename, ⟨source, mode, bytes, hsource, hfile, rfl⟩, hplace, hdirectory⟩, ?_⟩
            simp [treeSystem, attempt, hrename, onPlace, hsource, hplace, hfile, hdirectory,
              TreeState.set]
        · refine Or.inr ⟨?_, some (js "ENOENT"), ?_⟩
          · intro tree' place' h
            obtain ⟨source', mode, bytes, hleads, hfile', -⟩ := h.taken
            rw [hsource] at hleads
            cases hleads
            exact hfile ⟨mode, bytes, hfile'⟩
          · simp only [treeSystem, attempt, hrename, onPlace, hsource, hplace]
            cases hnode : s.tree source with
            | none => rfl
            | some node =>
              cases node with
              | file mode bytes => exact absurd ⟨mode, bytes, hnode⟩ hfile
              | directory => rfl
              | special => rfl
              | symbolicLink link => rfl

/-- There is one place the rename leads to. -/
lemma Renames.unique {tree tree' tree'' : Tree} {temporary : JsString} {place place' : Place}
    (h : Renames outcomes tree cwd temporary path tree' place)
    (h' : Renames outcomes tree cwd temporary path tree'' place') :
    tree' = tree'' ∧ place = place' := by
  obtain ⟨source, mode, bytes, hsource, -, htree⟩ := h.taken
  obtain ⟨source', mode', bytes', hsource', -, htree'⟩ := h'.taken
  rw [hsource] at hsource'
  cases hsource'
  have hplace := h.leads
  rw [h'.leads] at hplace
  cases hplace
  exact ⟨htree.trans htree'.symm, rfl⟩

/-- There is one place the file is created at. -/
lemma Creates.unique {tree tree' tree'' : Tree} {file : JsString} {place place' : Place}
    (h : Creates outcomes tree cwd path file tree' place)
    (h' : Creates outcomes tree cwd path file tree'' place') : tree' = tree'' ∧ place = place' := by
  have htree : tree' = tree'' := h.made.unique h'.made
  subst htree
  have hplace := h.leads
  rw [h'.leads] at hplace
  cases hplace
  exact ⟨rfl, rfl⟩

/-- The file is created in the directory of the path, or a call throws and no file is put
anywhere. -/
lemma creation_tree (outcomes : Outcomes) (cwd : Place) (path file : JsString) (s : TreeState) :
    (∃ made opened, Creates outcomes s.tree cwd path file made opened ∧
      (makeParent (treeSystem cwd outcomes) (parentPath (absolutePath cwd) path)).Returns s ()
        { s with tree := made } ∧
      ((treeSystem cwd outcomes).openSync file).Returns { s with tree := made } opened
        (TreeState.put { s with tree := made } opened (.file 0o600 []))) ∨
    (∀ made opened, ¬Creates outcomes s.tree cwd path file made opened) ∧
      ((∃ code, (makeParent (treeSystem cwd outcomes) (parentPath (absolutePath cwd) path)).Throws s
        (.system code) s) ∨
      ∃ made code,
        (makeParent (treeSystem cwd outcomes) (parentPath (absolutePath cwd) path)).Returns s ()
        { s with tree := made } ∧
        ((treeSystem cwd outcomes).openSync file).Throws { s with tree := made } (.system code)
          { s with tree := made }) := by
  rcases makeParent_tree outcomes cwd path s with ⟨made, hmade, hparent⟩ | ⟨hnotMade, code, hparent⟩
  swap
  · exact Or.inr ⟨fun made _ h => hnotMade made h.made, Or.inl ⟨code, hparent⟩⟩
  rcases openSync_tree outcomes cwd file { s with tree := made } with
    ⟨opened, hopen, hleads, hnew, hopened⟩ | ⟨hnotOpened, code, hopened⟩
  · exact Or.inl ⟨made, opened, ⟨hmade, hopen, hleads, hnew⟩, hparent, hopened⟩
  · refine Or.inr ⟨fun made' opened h => ?_, Or.inr ⟨made, code, hparent, hopened⟩⟩
    have htree : made' = made := h.made.unique hmade
    subst htree
    exact hnotOpened opened ⟨h.opened, h.leads, h.new⟩

/-! ### Secret files -/

/-- The location check returns when `existsSync` finds no repository above the name. -/
lemma assertOutsideRepository_tree (outcomes : Outcomes) (cwd : Place) (path : JsString)
    (s : TreeState) :
    (¬NamedInRepository s.tree cwd path ∧
      assertOutsideRepository (treeSystem cwd outcomes) (absolutePath cwd) path s = (.ok (), s)) ∨
    (NamedInRepository s.tree cwd path ∧ ∃ err,
      assertOutsideRepository (treeSystem cwd outcomes) (absolutePath cwd) path s =
        (.error err, s)) := by
  cases hfound : enclosingRepository (pathExists s.tree cwd)
    (parentNames (absolutePath cwd) path).reverse with
  | none =>
    refine Or.inl ⟨enclosingRepository_eq_none_iff_named.mp hfound, ?_⟩
    simp [assertOutsideRepository, bind, pure, Action.andThen, Action.look, Action.ret,
      repositoryOf, treeSystem, hfound]
  | some repository =>
    refine Or.inr ⟨namedInRepository_of_eq_some hfound,
      .secretFileError path (insideRepository (js "secret ") repository), ?_⟩
    simp [assertOutsideRepository, bind, Action.andThen, Action.look, Action.fail, repositoryOf,
      treeSystem, hfound]

/-- Where `writeSecretFile` has put a file: where the path leads once its directory is made, if the
location check and the calls up to the creation return. -/
lemma placed_writeSecretFile (outcomes : Outcomes) (cwd : Place) (path content : JsString)
    (tree : Tree) (tree' : Tree) (place : Place) :
    (tree', place) ∈ (writeSecretFile (treeSystem cwd outcomes) (absolutePath cwd) path content
        false ⟨tree, []⟩).2.placed ↔
      ¬NamedInRepository tree cwd path ∧ Creates outcomes tree cwd path path tree' place := by
  unfold writeSecretFile
  rcases assertOutsideRepository_tree outcomes cwd path ⟨tree, []⟩ with ⟨hnamed, hlocation⟩ |
    ⟨hnamed, err, hlocation⟩
  swap
  · have hthrows : (Action.runUnless false (assertOutsideRepository (treeSystem cwd outcomes)
        (absolutePath cwd) path)).Throws ⟨tree, []⟩ err ⟨tree, []⟩ := hlocation
    rw [hthrows.bind]
    simp [hnamed]
  have hreturns : (Action.runUnless false (assertOutsideRepository (treeSystem cwd outcomes)
      (absolutePath cwd) path)).Returns ⟨tree, []⟩ () ⟨tree, []⟩ := hlocation
  rw [hreturns.bind]
  generalize hhandler : (fun error : FileError => (Action.fail (.secretFileError path
    (if error.code = js "EEXIST" then js "already exists; refusing to overwrite it"
    else js "cannot create (" ++ error.code ++ js ")")) : Action FileError TreeState Place)) =
      handler
  rcases creation_tree outcomes cwd path path ⟨tree, []⟩ with
    ⟨made, opened, hcreates, hparent, hopened⟩ | ⟨hnot, hthrows⟩
  · have hreturned : (((treeSystem cwd outcomes).openSync path).catching handler).Returns ⟨made, []⟩
        opened (TreeState.put ⟨made, []⟩ opened (.file 0o600 [])) :=
      Action.returns_catching_iff.mpr (Or.inl hopened)
    -- of the opened file, the later calls keep where it was put
    have hlater : Action.Keeps (fun s : TreeState => s.placed = [(made, opened)]) (do
        writeText (treeSystem cwd outcomes) opened content
        let written ← readProtectedFile (treeSystem cwd outcomes) path
        Action.failIf (written ≠ content)
          (.secretFileError path (js "read-back differs from what was written"))) := by
      refine (keeps_writeText outcomes cwd opened content _).bind fun _ => ?_
      exact (keeps_readProtectedFile outcomes cwd _ path).bind fun _ => Action.keeps_failIf _ _
    rw [hparent.bind, hreturned.bind, hlater _ rfl, List.mem_singleton]
    constructor
    · intro h
      cases h
      exact ⟨hnamed, hcreates⟩
    · intro h
      obtain ⟨htree, hplace⟩ := h.2.unique hcreates
      rw [htree, hplace]
  · have hnothing :
        ¬(¬NamedInRepository tree cwd path ∧ Creates outcomes tree cwd path path tree' place) :=
      fun h => hnot tree' place h.2
    rcases hthrows with ⟨code, hparent⟩ | ⟨made, code, hparent, hopened⟩
    · rw [hparent.bind]
      simp [hnothing]
    · obtain ⟨err, hfails⟩ :
          ∃ err, handler (.system code) ⟨made, []⟩ = (.error err, ⟨made, []⟩) := by
        subst hhandler
        exact ⟨_, rfl⟩
      have hthrown :
          (((treeSystem cwd outcomes).openSync path).catching handler).Throws ⟨made, []⟩ err
          ⟨made, []⟩ := (hopened.catching handler).trans hfails
      rw [hparent.bind, hthrown.bind]
      simp [hnothing]

/-! ### Wallet caches -/

/-- The error handling of a save puts no file anywhere. -/
lemma placed_replaceFile_of_throws {parent temporary text : JsString} {s s' : TreeState}
    {err : FileError}
    (h : (writeAndRename (treeSystem cwd outcomes) parent temporary path text).Throws s err s') :
    (replaceFile (treeSystem cwd outcomes) parent temporary path text s).2.placed = s'.placed := by
  unfold replaceFile
  rw [h.catching]
  refine Action.Keeps.bind (I := fun t => t.placed = s'.placed) ?_ (fun _ => Action.keeps_fail _) s'
    rfl
  refine keeps_attempt (fun t ht => ?_) _
  cases placeOf t.tree cwd temporary <;> exact ht

/-- Of a save that has created the temporary file, the places are that file's and the renamed
one's. -/
lemma replaces_iff {tree made tree' : Tree} {opened place : Place} {temporary text : JsString}
    (hcreates : Creates outcomes tree cwd path temporary made opened) :
    Replaces outcomes tree cwd path temporary text tree' place ↔
      tree' = made ∧ place = opened ∨ outcomes.Writes ∧
        Renames outcomes (Function.update made opened
        (some (.file 0o600 ((textEncode text).take outcomes.written)))) cwd temporary path tree'
          place := by
  constructor
  · intro h
    cases h with
    | creates h => exact Or.inl (h.unique hcreates)
    | renames h hwrites hrenames =>
      obtain ⟨hmade, hopened⟩ := h.unique hcreates
      rw [hmade, hopened] at hrenames
      exact Or.inr ⟨hwrites, hrenames⟩
  · intro h
    rcases h with ⟨htree, hplace⟩ | ⟨hwrites, hrenames⟩
    · rw [htree, hplace]
      exact .creates hcreates
    · exact .renames hcreates hwrites hrenames

/-- Where the `try` statement of a save has put a file. -/
lemma placed_replaceFile (outcomes : Outcomes) (cwd : Place) (path temporary text : JsString)
    (tree : Tree) (tree' : Tree) (place : Place) :
    (tree', place) ∈ (replaceFile (treeSystem cwd outcomes) (parentPath (absolutePath cwd) path)
        temporary path text ⟨tree, []⟩).2.placed ↔
      Replaces outcomes tree cwd path temporary text tree' place := by
  rcases creation_tree outcomes cwd path temporary ⟨tree, []⟩ with
    ⟨made, opened, hcreates, hparent, hopened⟩ | ⟨hnot, hthrows⟩
  swap
  · have hnothing : ¬Replaces outcomes tree cwd path temporary text tree' place := by
      intro h
      cases h with
      | creates h => exact hnot _ _ h
      | renames h => exact hnot _ _ h
    have hfailed : ∃ err s', s'.placed = [] ∧ (writeAndRename (treeSystem cwd outcomes)
        (parentPath (absolutePath cwd) path) temporary path text).Throws ⟨tree, []⟩ err s' := by
      unfold writeAndRename
      rcases hthrows with ⟨code, hparent⟩ | ⟨made, code, hparent, hopened⟩
      · exact ⟨_, _, rfl, hparent.bind _⟩
      · exact ⟨_, _, rfl, (hparent.bind _).trans (hopened.bind _)⟩
    obtain ⟨err, s', hplaced, hfailed⟩ := hfailed
    rw [placed_replaceFile_of_throws hfailed, hplaced]
    simp [hnothing]
  rcases writeText_tree outcomes cwd opened text (TreeState.put ⟨made, []⟩ opened (.file 0o600 []))
    with ⟨hwrites, hwritten⟩ | ⟨hnotWrites, err, s', hplaced, hwritten⟩
  swap
  · have hfailed :
        (writeAndRename (treeSystem cwd outcomes) (parentPath (absolutePath cwd) path) temporary
        path text).Throws ⟨tree, []⟩ err s' :=
      (hparent.bind _).trans ((hopened.bind _).trans (Action.Throws.bind hwritten _))
    rw [placed_replaceFile_of_throws hfailed, hplaced, replaces_iff hcreates]
    simp [TreeState.put, hnotWrites]
  have hreached :
      writeAndRename (treeSystem cwd outcomes) (parentPath (absolutePath cwd) path) temporary
      path text ⟨tree, []⟩ = (treeSystem cwd outcomes).renameSync temporary path
        ((TreeState.put ⟨made, []⟩ opened (.file 0o600 [])).set opened
          (some (.file 0o600 ((textEncode text).take outcomes.written)))) :=
    (hparent.bind _).trans ((hopened.bind _).trans (Action.Returns.bind hwritten _))
  have htree : ((TreeState.put ⟨made, []⟩ opened (.file 0o600 [])).set opened
      (some (.file 0o600 ((textEncode text).take outcomes.written)))).tree =
        Function.update made opened (some
          (.file 0o600 ((textEncode text).take outcomes.written))) :=
    Function.update_idem _ _ _
  rcases renameSync_tree outcomes cwd temporary path ((TreeState.put ⟨made, []⟩ opened
      (.file 0o600 [])).set opened (some
      (.file 0o600 ((textEncode text).take outcomes.written)))) with
    ⟨moved, final, node, hrenames, hrenamed⟩ | ⟨hnotRenames, code, hrenamed⟩
  · rw [htree] at hrenames
    have hreturns :
        (replaceFile (treeSystem cwd outcomes) (parentPath (absolutePath cwd) path) temporary
        path text).Returns ⟨tree, []⟩ () (TreeState.put ⟨moved, [(made, opened)]⟩ final node) :=
      Action.returns_catching_iff.mpr (Or.inl (hreached.trans hrenamed))
    rw [hreturns, replaces_iff hcreates]
    change (tree', place) ∈ [(made, opened), (moved, final)] ↔ _
    rw [List.mem_pair, Prod.mk.injEq, Prod.mk.injEq]
    refine or_congr_right ⟨fun h => ?_, fun h => h.2.unique hrenames⟩
    rw [h.1, h.2]
    exact ⟨hwrites, hrenames⟩
  · rw [htree] at hnotRenames
    rw [placed_replaceFile_of_throws (hreached.trans hrenamed), replaces_iff hcreates]
    simp [TreeState.put, TreeState.set, hnotRenames]

/-- The location check of the cache returns when `existsSync` finds no repository above the name. -/
lemma assertLocation_tree (outcomes : Outcomes) (cwd : Place) (path : JsString) (s : TreeState) :
    (¬NamedInRepository s.tree cwd path ∧
      (assertLocation (treeSystem cwd outcomes) (absolutePath cwd) path false).Returns s () s) ∨
    (NamedInRepository s.tree cwd path ∧ ∃ err,
      (assertLocation (treeSystem cwd outcomes) (absolutePath cwd) path false).Throws s err s) := by
  unfold Action.Returns Action.Throws
  cases hfound : enclosingRepository (pathExists s.tree cwd)
    (parentNames (absolutePath cwd) path).reverse with
  | none =>
    refine Or.inl ⟨enclosingRepository_eq_none_iff_named.mp hfound, ?_⟩
    simp [assertLocation, Action.runUnless, bind, pure, Action.andThen, Action.look, Action.ret,
      repositoryOf, treeSystem, hfound]
  | some repository =>
    refine Or.inr ⟨namedInRepository_of_eq_some hfound,
      .walletCacheError path (insideRepository [] repository), ?_⟩
    simp [assertLocation, Action.runUnless, bind, Action.andThen, Action.look, Action.fail,
      repositoryOf, treeSystem, hfound]

/-- The check of an existing cache returns when there is none or it belongs to the caller's
wallet. -/
lemma assertReplaceable_tree (path : JsString) (identity : WalletCacheIdentity)
    (existing : Option Members) (s : TreeState) :
    ((∀ members ∈ existing, belongsTo members identity = true) ∧
      (assertReplaceable path identity existing).Returns s () s) ∨
    (¬(∀ members ∈ existing, belongsTo members identity = true) ∧
      ∃ err, (assertReplaceable path identity existing).Throws s err s) := by
  cases existing with
  | none => exact Or.inl ⟨fun members h => (nomatch h), rfl⟩
  | some members =>
    have hall : (∀ others ∈ some members, belongsTo others identity = true) ↔
        belongsTo members identity = true := by simp
    rw [hall]
    cases hbelongs : belongsTo members identity with
    | true => exact Or.inl ⟨rfl, Action.returns_failIf_iff.mpr ⟨by simp [hbelongs], rfl⟩⟩
    | false => exact Or.inr ⟨by simp, _, Action.throws_failIf_iff.mpr ⟨hbelongs, rfl, rfl⟩⟩

/-- Where `saveWalletCache` has put files. -/
lemma placed_saveWalletCache (outcomes : Outcomes) (cwd : Place) (path : JsString)
    (request : SaveRequest) (tree : Tree) (tree' : Tree) (place : Place) :
    (tree', place) ∈ (saveWalletCache (treeSystem cwd outcomes) (absolutePath cwd) path
        { request with allowInsideRepository := false } ⟨tree, []⟩).2.placed ↔
      ¬NamedInRepository tree cwd path ∧ ∃ savedAt, Accepts outcomes tree cwd path request savedAt ∧
        Replaces outcomes tree cwd path (temporaryPath (absolutePath cwd) path request.pid
          request.random)
          (envelopeText request.identity savedAt request.snapshots) tree' place := by
  unfold saveWalletCache
  rcases assertLocation_tree outcomes cwd path ⟨tree, []⟩ with ⟨hnamed, hlocation⟩ |
    ⟨hnamed, err, hlocation⟩
  swap
  · rw [hlocation.bind]
    simp [hnamed]
  rw [hlocation.bind]
  rcases Action.returns_or_throws (readEnvelope (treeSystem cwd outcomes) path) ⟨tree, []⟩ with
    ⟨existing, s', hread⟩ | ⟨err, s', hread⟩
  swap
  · have hstate : s' = ⟨tree, []⟩ :=
      (keeps_readEnvelope outcomes cwd (· = ⟨tree, []⟩) path).of_throws rfl hread
    have hnothing : ∀ savedAt, ¬Accepts outcomes tree cwd path request savedAt := by
      intro savedAt h
      obtain ⟨⟨existing, hexisting, -⟩, -⟩ := h
      rw [hread] at hexisting
      cases hexisting
    rw [hread.bind, hstate]
    simp [hnothing]
  have hstate : s' = ⟨tree, []⟩ :=
    (keeps_readEnvelope outcomes cwd (· = ⟨tree, []⟩) path).of_returns rfl hread
  subst hstate
  have haccepts : ∀ savedAt, Accepts outcomes tree cwd path request savedAt ↔
      (∀ members ∈ existing, belongsTo members request.identity = true) ∧
        request.now.toISOString = .ok savedAt := by
    intro savedAt
    refine and_congr_left' ⟨fun h => ?_, fun h => ⟨existing, congrArg Prod.fst hread, h⟩⟩
    obtain ⟨found, hfound, hbelongs⟩ := h
    rw [hread] at hfound
    cases hfound
    exact hbelongs
  rw [hread.bind]
  rcases assertReplaceable_tree path request.identity existing ⟨tree, []⟩ with
    ⟨hbelongs, hreplaceable⟩ | ⟨hforeign, err, hreplaceable⟩
  swap
  · have hnothing : ∀ savedAt, ¬Accepts outcomes tree cwd path request savedAt :=
      fun savedAt h => hforeign ((haccepts savedAt).mp h).1
    rw [hreplaceable.bind]
    simp [hnothing]
  rw [hreplaceable.bind]
  cases hdate : request.now.toISOString with
  | error err =>
    have hthrows : (MonadLiftT.monadLift ((Except.error err : Except JsError JsString).mapError
        FileError.language) : Action FileError TreeState JsString).Throws ⟨tree, []⟩ (.language err)
          ⟨tree, []⟩ := rfl
    rw [hthrows.bind]
    simp [haccepts, hdate]
  | ok savedAt =>
    have hreturns : (MonadLiftT.monadLift ((Except.ok savedAt : Except JsError JsString).mapError
        FileError.language) : Action FileError TreeState JsString).Returns ⟨tree, []⟩ savedAt
          ⟨tree, []⟩ := rfl
    rw [hreturns.bind, placed_replaceFile]
    constructor
    · intro h
      exact ⟨hnamed, savedAt, (haccepts savedAt).mpr ⟨hbelongs, hdate⟩, h⟩
    · intro h
      obtain ⟨-, savedAt', haccepted, h⟩ := h
      have hsame := ((haccepts savedAt').mp haccepted).2
      rw [hdate] at hsame
      cases hsame
      exact h

/-! ### Both -/

/-- Files were put outside the repositories exactly when each place a file was put at is. -/
lemma outsideRepositories_iff {s : TreeState} {named : Prop} {puts : Tree → Place → Prop}
    (hplaced : ∀ tree place, (tree, place) ∈ s.placed ↔ ¬named ∧ puts tree place) :
    OutsideRepositories s ↔ ∀ tree place, puts tree place → InRepository tree place → named := by
  unfold OutsideRepositories
  constructor
  · intro h tree place hputs hrepository
    by_contra hnamed
    exact h (tree, place) ((hplaced tree place).mpr ⟨hnamed, hputs⟩) hrepository
  · intro h entry hentry hrepository
    obtain ⟨hnamed, hputs⟩ := (hplaced entry.1 entry.2).mp hentry
    exact hnamed (h _ _ hputs hrepository)

/-- Protected files land outside every repository exactly when a repository around the place a
file is put at, where the links of the path lead, always shows in the directories above the path
by name. -/
theorem protected_outside_iff (outcomes : Outcomes) (cwd : Place) (path content : JsString)
    (request : SaveRequest) (tree : Tree) :
    (OutsideRepositories (writeSecretFile (treeSystem cwd outcomes) (absolutePath cwd) path content
        false ⟨tree, []⟩).2 ↔
      ∀ tree' place, Creates outcomes tree cwd path path tree' place →
        InRepository tree' place → NamedInRepository tree cwd path) ∧
    (OutsideRepositories (saveWalletCache (treeSystem cwd outcomes) (absolutePath cwd) path
        { request with allowInsideRepository := false } ⟨tree, []⟩).2 ↔
      ∀ tree' place, (∃ savedAt, Accepts outcomes tree cwd path request savedAt ∧
          Replaces outcomes tree cwd path
            (temporaryPath (absolutePath cwd) path request.pid request.random)
            (envelopeText request.identity savedAt request.snapshots) tree' place) →
        InRepository tree' place → NamedInRepository tree cwd path) :=
  ⟨outsideRepositories_iff fun tree' place =>
      placed_writeSecretFile outcomes cwd path content tree tree' place,
    outsideRepositories_iff fun tree' place =>
      placed_saveWalletCache outcomes cwd path request tree tree' place⟩

/-- A repository with a directory, and a link to that directory. -/
def linkedTree : Tree := fun place =>
  if place ∈ [[], [js "repo"], [js "repo", js ".git"], [js "repo", js "keys"]] then some .directory
  else if place = [js "link"] then some (.symbolicLink (js "/repo/keys"))
  else none

/-- A secret for a path through a link to a directory of a repository lands inside the
repository. -/
theorem linked_directory_inside :
    ¬∀ (tree : Tree) (cwd : Place) (path content : JsString) (outcomes : Outcomes),
      OutsideRepositories (writeSecretFile (treeSystem cwd outcomes) (absolutePath cwd) path content
        false ⟨tree, []⟩).2 := by
  intro h
  have houtside := h linkedTree [] (js "/link/secret") (js "seed") (quietOutcomes 100)
  have hplaced : (linkedTree, [js "repo", js "keys", js "secret"]) ∈ (writeSecretFile
      (treeSystem [] (quietOutcomes 100)) (absolutePath []) (js "/link/secret") (js "seed") false
        ⟨linkedTree, []⟩).2.placed := by
    rw [placed_writeSecretFile]
    refine ⟨?_, Or.inl ⟨by decide +kernel, rfl⟩, rfl, by decide +kernel, by decide +kernel⟩
    exact enclosingRepository_eq_none_iff_named.mp (by decide +kernel)
  exact houtside _ hplaced ⟨[js "repo"], by decide +kernel, by decide +kernel, by decide +kernel⟩

end MultiPartEvent
