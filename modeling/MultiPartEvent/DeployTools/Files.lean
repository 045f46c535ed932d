import MultiPartEvent.Actions
import MultiPartEvent.Js.Date

/-!
# Files

What the protected files of the deploy tools need of `node:path` and `node:fs`: absolute paths as
lists of names, the errors of file-system calls, and the calls themselves as a `FileSystem` over an
arbitrary state, so that the code that makes them is one definition whatever the files are modelled
by.

The files are created with mode 0600 and the directories with mode 0700, from which the umask 077
takes nothing away; so the umask is left out.
-/

namespace MultiPartEvent

/-! ### Paths -/

/-- The separator of paths. -/
def slash : CodeUnit := charUnit '/'

/-- The names a path consists of. -/
def pathNames (path : JsString) : List JsString := (path.splitOn slash).filter (· ≠ [])

/-- `isAbsolute(path)`. -/
def isAbsolute (path : JsString) : Bool := path.head? = some slash

/-- One more name of a path, where `.` and `..` are not kept. -/
def normalizeName (names : List JsString) (name : JsString) : List JsString :=
  if name = js "." then names
  else if name = js ".." then names.dropLast
  else names ++ [name]

/-- The names of an absolute path without `.` and `..`. -/
def normalizeNames (names : List JsString) : List JsString := names.foldl normalizeName []

/-- An absolute path, by its names from the root. -/
def absolutePath (names : List JsString) : JsString :=
  if names = [] then [slash] else names.flatMap (slash :: ·)

/-- The names of `resolve(path)` in the working directory `cwd`. -/
def resolveNames (cwd path : JsString) : List JsString :=
  normalizeNames (if isAbsolute path then pathNames path else pathNames cwd ++ pathNames path)

/-- The names of `dirname(resolve(path))`. -/
def parentNames (cwd path : JsString) : List JsString := (resolveNames cwd path).dropLast

/-- `dirname(resolve(path))`. -/
def parentPath (cwd path : JsString) : JsString := absolutePath (parentNames cwd path)

/-- `basename(path)`: the last name, without the slashes after it. -/
def basename (path : JsString) : JsString :=
  ((path.reverse.dropWhile (· = slash)).takeWhile (· ≠ slash)).reverse

/-- One more name of a relative path: `..` is kept where there is no name to take back. -/
def relativeName (names : List JsString) (name : JsString) : List JsString :=
  if name = js ".." ∧ (names = [] ∨ names.getLast? = some (js "..")) then names ++ [name]
  else normalizeName names name

/-- `normalize(path)`, with its final slash. -/
def normalizePath (path : JsString) : JsString :=
  let trailing := if path.getLast? = some slash then [slash] else []
  if isAbsolute path then
    match normalizeNames (pathNames path) with
    | [] => [slash]
    | names => absolutePath names ++ trailing
  else
    match (pathNames path).foldl relativeName [] with
    | [] => js "." ++ trailing
    | names => [slash].intercalate names ++ trailing

/-- `join(front, tail)`. -/
def joinPaths (front tail : JsString) : JsString :=
  normalizePath ([slash].intercalate ([front, tail].filter (· ≠ [])))

example : resolveNames (js "/home/me") (js "a/.././b") = [js "home", js "me", js "b"] := by decide

example : joinPaths (js "../zk/./a/") (js "../keys") = js "../zk/keys" := by decide

/-- The last name of a path that ends with a slash and a name is the name. -/
lemma basename_append {name : JsString} (hne : name ≠ []) (hslash : slash ∉ name)
    (front : JsString) :
    basename (front ++ slash :: name) = name := by
  have hall : ∀ u ∈ name.reverse, u ≠ slash := by
    intro u hu
    rintro rfl
    exact hslash (List.mem_reverse.mp hu)
  have hdrop : (name.reverse ++ slash :: front.reverse).dropWhile (fun u => decide (u = slash)) =
      name.reverse ++ slash :: front.reverse := by
    cases hrev : name.reverse with
    | nil => exact absurd (List.reverse_eq_nil_iff.mp hrev) hne
    | cons u rest =>
      have hu : u ≠ slash := hall u (hrev ▸ List.mem_cons_self)
      rw [List.cons_append, List.dropWhile_cons_of_neg (by simpa using hu)]
  have htake : (name.reverse ++ slash :: front.reverse).takeWhile (fun u => decide (u ≠ slash)) =
      name.reverse := by
    rw [List.takeWhile_append_of_pos fun u hu => by simpa using hall u hu]
    simp
  rw [basename, List.reverse_append, List.reverse_cons, List.append_assoc, List.singleton_append,
    hdrop, htake, List.reverse_reverse]

/-- The last name of a path has no slash. -/
lemma slash_notMem_basename (path : JsString) : slash ∉ basename path := by
  intro h
  have hmem := List.mem_takeWhile_imp (List.mem_reverse.mp h)
  simp at hmem

/-- The last name of an absolute path. -/
lemma basename_absolutePath {name : JsString} (hne : name ≠ []) (hslash : slash ∉ name)
    (names : List JsString) : basename (absolutePath (names ++ [name])) = name := by
  have htext : absolutePath (names ++ [name]) = names.flatMap (slash :: ·) ++ slash :: name := by
    simp [absolutePath]
  rw [htext, basename_append hne hslash]

/-! ### Calls -/

/-- What the code around the file-system calls throws. -/
inductive FileError where
  /-- The error of a file-system call, with its code. -/
  | system (code : Option JsString)
  /-- An error of the language. -/
  | language (error : JsError)
  /-- `SecretFileError`. -/
  | secretFileError (path detail : JsString)
  /-- `WalletCacheError`. -/
  | walletCacheError (path detail : JsString)
  deriving DecidableEq

/-- `error.code ?? "error"`. -/
def FileError.code : FileError → JsString
  | .system (some code) => code
  | _ => js "error"

/-- What `lstatSync` reports. -/
structure Stats where
  isSymbolicLink : Bool
  isFile : Bool
  mode : ℕ
  size : ℕ

/-- The calls of `node:fs` the deploy tools make, over a state `σ` and file descriptors `φ`. -/
structure FileSystem (σ φ : Type) where
  /-- `existsSync`, which never throws. -/
  existsSync : JsString → σ → Bool
  lstatSync : JsString → Action FileError σ Stats
  readFileSync : JsString → Action FileError σ Bytes
  /-- `mkdirSync(path, { recursive: true, mode: 0o700 })`. -/
  mkdirSync : JsString → Action FileError σ Unit
  /-- `openSync(path, O_CREAT | O_EXCL | O_WRONLY | O_NOFOLLOW, 0o600)`. -/
  openSync : JsString → Action FileError σ φ
  /-- `writeSync(fd, bytes)`: the number of bytes written. -/
  writeSync : φ → Bytes → Action FileError σ ℕ
  fsyncSync : φ → Action FileError σ Unit
  closeSync : φ → Action FileError σ Unit
  renameSync : JsString → JsString → Action FileError σ Unit
  /-- `rmSync(path, { force: true })`. -/
  rmSync : JsString → Action FileError σ Unit

/-! ### Calls that fail -/

/-- The code of an error, if it has one. -/
abbrev ErrorCode := Option JsString

/-- How the file-system calls of one piece of code turn out.  A call fails with a code, or does its
work. -/
structure Outcomes where
  /-- The answers of `existsSync`, where the modelled files do not say. -/
  existsSync : JsString → Bool
  /-- A failure of `lstatSync` on an entry that is there: its code does not say it is missing. -/
  lstat : Option { code : ErrorCode // code ≠ some (js "ENOENT") }
  readFile : Option ErrorCode
  mkdir : Option ErrorCode
  openFile : Option ErrorCode
  /-- The most bytes `writeSync` writes before it returns or fails. -/
  written : ℕ
  write : Option ErrorCode
  fsync : Option ErrorCode
  close : Option ErrorCode
  rename : Option ErrorCode
  rm : Option ErrorCode

/-- The call fails, or does its work. -/
def attempt {σ α : Type} (failure : Option ErrorCode) (work : Action FileError σ α) :
    Action FileError σ α :=
  match failure with
  | some code => Action.fail (.system code)
  | none => work

/-- Calls of which none fails; `writeSync` writes at most so many bytes. -/
def quietOutcomes (written : ℕ) : Outcomes where
  existsSync _ := false
  lstat := none
  readFile := none
  mkdir := none
  openFile := none
  written := written
  write := none
  fsync := none
  close := none
  rename := none
  rm := none

/-- A call keeps what its work keeps. -/
lemma keeps_attempt {σ α : Type} {I : σ → Prop} {work : Action FileError σ α}
    (h : Action.Keeps I work) (failure : Option ErrorCode) :
    Action.Keeps I (attempt failure work) := by
  cases failure with
  | none => exact h
  | some code => exact Action.keeps_fail _

end MultiPartEvent
