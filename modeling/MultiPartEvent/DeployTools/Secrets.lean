import MultiPartEvent.DeployTools.Files
import MultiPartEvent.Js.FileText

/-!
# Protected secret files

`enclosingRepository` walks from a directory to the root by names and asks `existsSync` for a `.git`
entry in each; `writeSecretFile` refuses a path it finds one for, creates the file and reads it
back.
-/

namespace MultiPartEvent

variable {σ φ : Type}

/-- `enclosingRepository(path)`, with the answers of `existsSync` and the names of the resolved path
from the deepest to the root. -/
def enclosingRepository (answers : JsString → Bool) : List JsString → Option JsString
  | [] => if answers (absolutePath [js ".git"]) then some (absolutePath []) else none
  | name :: above =>
    let current := (name :: above).reverse
    if answers (absolutePath (current ++ [js ".git"])) then some (absolutePath current)
    else enclosingRepository answers above

/-- The walk to the root finds no repository exactly when no directory on its way has a `.git` entry
that `existsSync` finds. -/
lemma enclosingRepository_eq_none_iff {answers : JsString → Bool} {names : List JsString} :
    enclosingRepository answers names.reverse = none ↔
      ∀ above, above <+: names → answers (absolutePath (above ++ [js ".git"])) = false := by
  induction names using List.reverseRecOn with
  | nil => simp [enclosingRepository]
  | append_singleton above name ih =>
    have hstep : enclosingRepository answers (above ++ [name]).reverse = none ↔
        answers (absolutePath ((above ++ [name]) ++ [js ".git"])) = false ∧
          enclosingRepository answers above.reverse = none := by
      rw [List.reverse_append, List.reverse_singleton, List.singleton_append, enclosingRepository]
      simp only [List.reverse_cons, List.reverse_reverse]
      cases answers (absolutePath ((above ++ [name]) ++ [js ".git"])) <;> simp
    rw [hstep, ih]
    constructor
    · intro h names hnames
      rcases List.prefix_concat_iff.mp hnames with rfl | hnames
      · exact h.1
      · exact h.2 names hnames
    · intro h
      exact ⟨h _ (List.prefix_refl _), fun names hnames =>
        h names (hnames.trans (List.prefix_append above [name]))⟩

/-- The repository around the directory of a path. -/
def repositoryOf (fs : FileSystem σ φ) (cwd path : JsString) (s : σ) : Option JsString :=
  enclosingRepository (fun name => fs.existsSync name s) (parentNames cwd path).reverse

/-- Why a location is refused. -/
def insideRepository (what repository : JsString) : JsString :=
  js "refusing a " ++ what ++ js "path inside the Git working tree " ++ repository ++
    js "; use a directory outside every repository"

/-- `assertOutsideRepository(path)`. -/
def assertOutsideRepository (fs : FileSystem σ φ) (cwd path : JsString) :
    Action FileError σ Unit := do
  match ← Action.look (repositoryOf fs cwd path) with
  | none => return ()
  | some repository =>
    Action.fail (.secretFileError path (insideRepository (js "secret ") repository))

/-- Create the directory of a path if `existsSync` does not find it. -/
def makeParent (fs : FileSystem σ φ) (parent : JsString) : Action FileError σ Unit := do
  if ← Action.look (fs.existsSync parent) then return () else fs.mkdirSync parent

/-- The text of a file mode, `mode.toString(8)`. -/
def octal (mode : ℕ) : JsString := (Nat.toDigits 8 mode).map charUnit

/-- Why a file that others can access is refused. -/
def looseMode (mode : ℕ) : JsString :=
  js "mode " ++ octal (mode &&& 0o777) ++ js " lets group or others access it; run chmod 600"

/-- The largest secret file that is read. -/
def maxSecretFileBytes : ℕ := 4096

/-- `readProtectedFile(path)`. -/
def readProtectedFile (fs : FileSystem σ φ) (path : JsString) : Action FileError σ JsString := do
  let stats ← (fs.lstatSync path).catching fun error =>
    Action.fail (.secretFileError path (js "cannot be read (" ++ error.code ++ js ")"))
  Action.failIf (stats.isSymbolicLink = true) (.secretFileError path (js "is a symbolic link"))
  Action.failIf (stats.isFile = false) (.secretFileError path (js "is not a regular file"))
  Action.failIf (stats.mode &&& 0o077 ≠ 0) (.secretFileError path (looseMode stats.mode))
  Action.failIf (stats.size = 0) (.secretFileError path (js "is empty"))
  Action.failIf (stats.size > maxSecretFileBytes) (.secretFileError path (js "is too large"))
  let bytes ← fs.readFileSync path
  return fileText bytes

/-- `writeSync(fd, text)` and `fsyncSync(fd)`, and `closeSync(fd)` in any case.  The number of bytes
`writeSync` reports is not looked at. -/
def writeText (fs : FileSystem σ φ) (fd : φ) (text : JsString) : Action FileError σ Unit :=
  Action.ending (do
    let _ ← fs.writeSync fd (textEncode text)
    fs.fsyncSync fd) (fs.closeSync fd)

/-- `writeSecretFile(path, content, options)`. -/
def writeSecretFile (fs : FileSystem σ φ) (cwd path content : JsString)
    (allowInsideRepository : Bool) : Action FileError σ Unit := do
  Action.runUnless allowInsideRepository (assertOutsideRepository fs cwd path)
  makeParent fs (parentPath cwd path)
  let fd ← (fs.openSync path).catching fun error =>
    Action.fail (.secretFileError path
      (if error.code = js "EEXIST" then js "already exists; refusing to overwrite it"
      else js "cannot create (" ++ error.code ++ js ")"))
  writeText fs fd content
  let written ← readProtectedFile fs path
  Action.failIf (written ≠ content)
    (.secretFileError path (js "read-back differs from what was written"))

end MultiPartEvent
