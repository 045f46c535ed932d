import MultiPartEvent.DeployTools.Files

/-!
# A file-system tree with symbolic links

A place is the names of the directories from the root; a tree says what is at each place.  A path
leads from name to name: `.` and `..` go by places, and a symbolic link continues at its target, so
that the place a path leads to has nothing to do with the names of the path once there are links.
-/

namespace MultiPartEvent

/-- The names from the root, without links. -/
abbrev Place := List JsString

/-- What is at a place. -/
inductive Node where
  | directory
  | file (mode : ℕ) (bytes : Bytes)
  /-- A device, a pipe or a socket. -/
  | special
  | symbolicLink (target : JsString)
  deriving DecidableEq

/-- What is at each place, if anything. -/
abbrev Tree := Place → Option Node

/-! ### Following a path -/

/-- Follow names from a directory; `onLink` follows what is left at the place a link continues
from. -/
def followNames (onLink : Place → List JsString → Except JsString Place) (tree : Tree) :
    Place → List JsString → Except JsString Place
  | place, [] => .ok place
  | place, name :: rest =>
    if name = js "." then followNames onLink tree place rest
    else if name = js ".." then followNames onLink tree place.dropLast rest
    else
      match tree (place ++ [name]) with
      | some .directory => followNames onLink tree (place ++ [name]) rest
      | some (.file _ _) | some .special =>
        if rest = [] then .ok (place ++ [name]) else .error (js "ENOTDIR")
      | some (.symbolicLink target) =>
        onLink (if isAbsolute target then [] else place) (pathNames target ++ rest)
      | none => .error (js "ENOENT")

/-- Follow names from a directory, through at most so many links. -/
def follow (tree : Tree) : ℕ → Place → List JsString → Except JsString Place
  | 0 => followNames (fun _ _ => .error (js "ELOOP")) tree
  | links + 1 => followNames (follow tree links) tree

/-- The most links one path may lead through. -/
def maxLinks : ℕ := 40

/-- Where a path starts. -/
def startOf (cwd : Place) (path : JsString) : Place := if isAbsolute path then [] else cwd

/-- The place a path leads to, all links followed. -/
def target (tree : Tree) (cwd : Place) (path : JsString) : Except JsString Place :=
  follow tree maxLinks (startOf cwd path) (pathNames path)

/-- The path names a new entry: it does not end with a slash, `.` or `..`. -/
def newName? (path : JsString) : Option JsString :=
  match (pathNames path).getLast? with
  | some name =>
    if name = js "." ∨ name = js ".." ∨ path.getLast? = some slash then none else some name
  | none => none

/-- The place of the entry a path names: a last link is not followed. -/
def placeOf (tree : Tree) (cwd : Place) (path : JsString) : Except JsString Place :=
  match newName? path with
  | none => .error (js "EISDIR")
  | some name =>
    match follow tree maxLinks (startOf cwd path) (pathNames path).dropLast with
    | .error code => .error code
    | .ok place =>
      if tree place = some .directory then .ok (place ++ [name]) else .error (js "ENOTDIR")

/-- `existsSync(path)`. -/
def pathExists (tree : Tree) (cwd : Place) (path : JsString) : Bool :=
  match target tree cwd path with
  | .ok place => (tree place).isSome
  | .error _ => false

/-- Make the directories that are missing on the way along the names. -/
def makeDirectories (tree : Tree) : Place → List JsString → Except JsString Tree
  | _, [] => .ok tree
  | place, name :: rest =>
    match tree (place ++ [name]) with
    | none =>
      makeDirectories (Function.update tree (place ++ [name]) (some .directory)) (place ++ [name])
        rest
    | some .directory => makeDirectories tree (place ++ [name]) rest
    | some (.file _ _) | some .special => .error (js "ENOTDIR")
    | some (.symbolicLink _) =>
      match follow tree maxLinks place [name] with
      | .error code => .error code
      | .ok place =>
        if tree place = some .directory then makeDirectories tree place rest else .error
          (js "EEXIST")

/-! ### The calls -/

/-- The tree, and where the calls have put files: each place with the tree just before. -/
structure TreeState where
  tree : Tree
  placed : List (Tree × Place)

/-- The code of a result, or its value, with the state unchanged on a failure. -/
def onPlace {α : Type} (result : Except JsString Place)
    (work : Place → Action FileError TreeState α) :
    Action FileError TreeState α :=
  match result with
  | .error code => Action.fail (.system (some code))
  | .ok place => work place

/-- Change what is at a place. -/
def TreeState.set (s : TreeState) (place : Place) (node : Option Node) : TreeState :=
  { s with tree := Function.update s.tree place node }

/-- Put a file at a place. -/
def TreeState.put (s : TreeState) (place : Place) (node : Node) : TreeState where
  tree := Function.update s.tree place (some node)
  placed := s.placed ++ [(s.tree, place)]

/-- `lstatSync` of what is at a place. -/
def Node.stats : Node → Stats
  | .directory => ⟨false, false, 0, 0⟩
  | .file mode bytes => ⟨false, true, mode, bytes.length⟩
  | .special => ⟨false, false, 0, 0⟩
  | .symbolicLink _ => ⟨true, false, 0, 0⟩

/-- The place `lstatSync` looks at. -/
def statPlace (tree : Tree) (cwd : Place) (path : JsString) : Except JsString Place :=
  match newName? path with
  | none => target tree cwd path
  | some _ => placeOf tree cwd path

/-- The tree as a file system for a process in the directory `cwd`, with the outcomes of the calls.
What `existsSync` answers is read off the tree. -/
def treeSystem (cwd : Place) (outcomes : Outcomes) : FileSystem TreeState Place where
  existsSync path s := pathExists s.tree cwd path
  lstatSync path := attempt (outcomes.lstat.map Subtype.val) fun s =>
    onPlace (statPlace s.tree cwd path) (fun place s =>
      match s.tree place with
      | some node => (.ok node.stats, s)
      | none => (.error (.system (some (js "ENOENT"))), s)) s
  readFileSync path := attempt outcomes.readFile fun s =>
    onPlace (target s.tree cwd path) (fun place s =>
      match s.tree place with
      | some (.file _ bytes) => (.ok bytes, s)
      | _ => (.error (.system (some (js "EISDIR"))), s)) s
  mkdirSync path := attempt outcomes.mkdir fun s =>
    match makeDirectories s.tree [] (pathNames path) with
    | .error code => (.error (.system (some code)), s)
    | .ok tree => (.ok (), { s with tree := tree })
  openSync path := attempt outcomes.openFile fun s =>
    onPlace (placeOf s.tree cwd path) (fun place s =>
      if s.tree place = none then (.ok place, s.put place (.file 0o600 []))
      else (.error (.system (some (js "EEXIST"))), s)) s
  writeSync place bytes := fun s =>
    let s' := s.set place (some (.file 0o600 (bytes.take outcomes.written)))
    match outcomes.write with
    | some code => (.error (.system code), s')
    | none => (.ok (min outcomes.written bytes.length), s')
  fsyncSync _ := attempt outcomes.fsync (return ())
  closeSync _ := attempt outcomes.close (return ())
  renameSync path path' := attempt outcomes.rename fun s =>
    onPlace (placeOf s.tree cwd path) (fun place =>
      onPlace (placeOf s.tree cwd path') fun place' s =>
        match s.tree place with
        | some (.file mode bytes) =>
          if s.tree place' = some .directory then (.error (.system (some (js "EISDIR"))), s)
          else (.ok (), (s.set place none).put place' (.file mode bytes))
        | _ => (.error (.system (some (js "ENOENT"))), s)) s
  rmSync path := attempt outcomes.rm fun s =>
    match placeOf s.tree cwd path with
    | .error _ => (.ok (), s)
    | .ok place => (.ok (), s.set place none)

end MultiPartEvent
