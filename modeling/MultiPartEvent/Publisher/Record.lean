import MultiPartEvent.Js.JsonParse
import MultiPartEvent.Publisher.Guard

/-!
# The record of a finalized transaction

The record is all that is persisted, as a JSON text.  `readRecord` reads the text back: reading
what was written gives the record again, except that a block height that JSON cannot write is
lost (`readRecord_text`).
-/

namespace MultiPartEvent

/-- The public record of one package in a finalized transaction. -/
structure PackageRecord where
  contract : JsString
  entryPoint : JsString
  /-- The event name N as hex. -/
  nameHex : JsString
  /-- Physical segment of the package's intent. -/
  segment : JsNumber
  /-- The parts in order, hex. -/
  partsHex : List JsString
  /-- Ledger intent hash of the package's intent. -/
  intentHash : JsString
  deriving DecidableEq

/-- The persisted, public record of a finalized transaction. -/
structure FinalizedRecord where
  network : JsString
  /-- Finalized transaction bytes, hex. -/
  transactionHex : JsString
  /-- Ledger transaction hash of those bytes. -/
  transactionHash : Option JsString
  /-- Every identifier of the finalized transaction. -/
  identifiers : List JsString
  packages : List PackageRecord
  /-- Intent TTL, ISO 8601. -/
  ttl : JsString
  blockHash : JsString
  /-- The block height; `null` after JSON wrote a number that is not finite. -/
  blockHeight : Option JsNumber
  deriving DecidableEq

/-- The expectation a package record encodes. -/
def expectedFromPackage (network : JsString) (pkg : PackageRecord) :
    Except JsError ExpectedPackage := do
  let name ← hexToBytes pkg.nameHex
  let parts ← pkg.partsHex.mapM hexToBytes
  return ⟨network, pkg.contract, pkg.entryPoint, name, pkg.segment, parts⟩

/-- The expectations a persisted record encodes, one per package. -/
def expectedFromRecord (record : FinalizedRecord) : Except JsError (List ExpectedPackage) :=
  record.packages.mapM (expectedFromPackage record.network)

/-! ### The record as a JSON text -/

/-- An optional value, or `null`. -/
def jsonOrNull {α : Type} (f : α → Json) : Option α → Json
  | none => .null
  | some a => f a

/-- A package record as a JSON value. -/
def PackageRecord.toJson (pkg : PackageRecord) : Json :=
  .object [(js "contract", .string pkg.contract), (js "entryPoint", .string pkg.entryPoint),
    (js "nameHex", .string pkg.nameHex), (js "segment", .number pkg.segment),
    (js "partsHex", .array (pkg.partsHex.map .string)), (js "intentHash", .string pkg.intentHash)]

/-- A record as a JSON value. -/
def FinalizedRecord.toJson (record : FinalizedRecord) : Json :=
  .object [(js "network", .string record.network),
    (js "transactionHex", .string record.transactionHex),
    (js "transactionHash", jsonOrNull .string record.transactionHash),
    (js "identifiers", .array (record.identifiers.map .string)),
    (js "packages", .array (record.packages.map PackageRecord.toJson)),
    (js "ttl", .string record.ttl), (js "blockHash", .string record.blockHash),
    (js "blockHeight", jsonOrNull .number record.blockHeight)]

/-- The value of an object member; the last one counts. -/
def Json.member (value : Json) (key : JsString) : Option Json :=
  match value with
  | .object members => members.reverse.lookup key
  | _ => none

/-- A JSON string. -/
def Json.asString : Json → Option JsString
  | .string s => some s
  | _ => none

/-- A JSON number. -/
def Json.asNumber : Json → Option JsNumber
  | .number n => some n
  | _ => none

/-- A JSON array. -/
def Json.asArray : Json → Option (List Json)
  | .array items => some items
  | _ => none

/-- A value that may be `null`. -/
def Json.orNull {α : Type} (f : Json → Option α) : Json → Option (Option α)
  | .null => some none
  | v => (f v).map some

/-- A JSON value as a package record. -/
def readPackageRecord (value : Json) : Option PackageRecord := do
  let contract ← (← value.member (js "contract")).asString
  let entryPoint ← (← value.member (js "entryPoint")).asString
  let nameHex ← (← value.member (js "nameHex")).asString
  let segment ← (← value.member (js "segment")).asNumber
  let partsHex ← (← (← value.member (js "partsHex")).asArray).mapM Json.asString
  let intentHash ← (← value.member (js "intentHash")).asString
  return ⟨contract, entryPoint, nameHex, segment, partsHex, intentHash⟩

/-- A JSON value as a record. -/
def recordFromJson (value : Json) : Option FinalizedRecord := do
  let network ← (← value.member (js "network")).asString
  let transactionHex ← (← value.member (js "transactionHex")).asString
  let transactionHash ← (← value.member (js "transactionHash")).orNull Json.asString
  let identifiers ← (← (← value.member (js "identifiers")).asArray).mapM Json.asString
  let packages ← (← (← value.member (js "packages")).asArray).mapM readPackageRecord
  let ttl ← (← value.member (js "ttl")).asString
  let blockHash ← (← value.member (js "blockHash")).asString
  let blockHeight ← (← value.member (js "blockHeight")).orNull Json.asNumber
  return ⟨network, transactionHex, transactionHash, identifiers, packages, ttl, blockHash,
    blockHeight⟩

/-- `JSON.stringify(record)`. -/
def FinalizedRecord.text (record : FinalizedRecord) : JsString := record.toJson.stringify

/-- `JSON.parse(text)` as a record. -/
def readRecord (text : JsString) : Option FinalizedRecord :=
  (Json.parse text).bind recordFromJson

/-! ### Reading back what was written -/

/-- A number as JSON writes it: nothing is left of one that is not finite. -/
def finiteNumber : JsNumber → Option JsNumber
  | .int z => some (.int z)
  | .other t => if t.text ∈ nonFiniteTexts then none else some (.other t)

/-- A loop over an optional reader that reads every element. -/
lemma mapM_eq_some_of_forall {α β γ : Type} {f : α → Option β} {g : γ → α} {h : γ → β} {l : List γ}
    (hread : ∀ c ∈ l, f (g c) = some (h c)) : (l.map g).mapM f = some (l.map h) := by
  induction l with
  | nil => rfl
  | cons c l ih =>
    obtain ⟨hc, hrest⟩ := List.forall_mem_cons.mp hread
    rw [List.map_cons, List.mapM_cons, hc, ih hrest]
    rfl

/-- A list of strings is read back. -/
lemma mapM_asString (l : List JsString) : (l.map Json.string).mapM Json.asString = some l := by
  have hread := mapM_eq_some_of_forall (f := Json.asString) (g := Json.string) (h := id) (l := l)
    fun _ _ => rfl
  rwa [List.map_id] at hread

/-- Strings are read back as they are. -/
lemma rereadItems_strings (l : List JsString) :
    rereadItems (l.map .string) = l.map Json.string := by
  rw [rereadItems_eq_map, List.map_map]
  exact List.map_congr_left fun _ _ => by simp [Json.reread]

/-- A package record with an integer segment is read back. -/
lemma readPackageRecord_reread {pkg : PackageRecord} {segment : ℤ}
    (hsegment : pkg.segment = .int segment) :
    readPackageRecord pkg.toJson.reread = some pkg := by
  obtain ⟨contract, entryPoint, nameHex, _, partsHex, intentHash⟩ := pkg
  cases hsegment
  obtain ⟨value, hvalue⟩ : ∃ value, value = (PackageRecord.mk contract entryPoint nameHex
      (.int segment) partsHex intentHash).toJson.reread := ⟨_, rfl⟩
  have hcontract : value.member (js "contract") = some (.string contract) := by rw [hvalue]; rfl
  have hentry : value.member (js "entryPoint") = some (.string entryPoint) := by rw [hvalue]; rfl
  have hname : value.member (js "nameHex") = some (.string nameHex) := by rw [hvalue]; rfl
  have hsegment : value.member (js "segment") = some (.number (.int segment)) := by
    rw [hvalue]; rfl
  have hparts : value.member (js "partsHex") = some (.array (partsHex.map .string)) := by
    rw [← rereadItems_strings, hvalue]; rfl
  have hhash : value.member (js "intentHash") = some (.string intentHash) := by rw [hvalue]; rfl
  rw [← hvalue, readPackageRecord, hcontract, hentry, hname, hsegment, hparts, hhash]
  simp only [Option.bind_eq_bind, Option.bind_some, Json.asString, Json.asNumber, Json.asArray]
  rw [mapM_asString]
  rfl

/-- **A record is read back from its text** when its segments are integers, up to a block height
that JSON cannot write. -/
theorem readRecord_text {record : FinalizedRecord}
    (hsegments : ∀ pkg ∈ record.packages, ∃ segment, pkg.segment = .int segment) :
    readRecord record.text =
      some { record with blockHeight := record.blockHeight.bind finiteNumber } := by
  rw [readRecord, FinalizedRecord.text, parse_stringify, Option.bind_some]
  obtain ⟨network, transactionHex, transactionHash, identifiers, packages, ttl, blockHash,
    blockHeight⟩ := record
  have hpackages : (rereadItems (packages.map PackageRecord.toJson)).mapM readPackageRecord =
      some packages := by
    rw [rereadItems_eq_map, List.map_map]
    have hread := mapM_eq_some_of_forall (f := readPackageRecord)
      (g := fun pkg : PackageRecord => pkg.toJson.reread) (h := id) (l := packages)
      fun pkg hpkg => readPackageRecord_reread (hsegments pkg hpkg).choose_spec
    rwa [List.map_id] at hread
  have hhash : (jsonOrNull Json.string transactionHash).reread.orNull Json.asString =
      some transactionHash := by
    cases transactionHash <;> rfl
  have hheight : (jsonOrNull Json.number blockHeight).reread.orNull Json.asNumber =
      some (blockHeight.bind finiteNumber) := by
    match blockHeight with
    | none => rfl
    | some (.int z) => rfl
    | some (.other t) =>
      simp only [jsonOrNull, Json.reread, finiteNumber, Option.bind_some]
      split_ifs <;> rfl
  obtain ⟨value, hvalue⟩ : ∃ value, value = (FinalizedRecord.mk network transactionHex
      transactionHash identifiers packages ttl blockHash blockHeight).toJson.reread := ⟨_, rfl⟩
  have h₁ : value.member (js "network") = some (.string network) := by rw [hvalue]; rfl
  have h₂ : value.member (js "transactionHex") = some (.string transactionHex) := by
    rw [hvalue]; rfl
  have h₃ : value.member (js "transactionHash") =
      some (jsonOrNull .string transactionHash).reread := by rw [hvalue]; rfl
  have h₄ : value.member (js "identifiers") = some (.array (identifiers.map .string)) := by
    rw [← rereadItems_strings, hvalue]; rfl
  have h₅ : value.member (js "packages") =
      some (.array (rereadItems (packages.map PackageRecord.toJson))) := by rw [hvalue]; rfl
  have h₆ : value.member (js "ttl") = some (.string ttl) := by rw [hvalue]; rfl
  have h₇ : value.member (js "blockHash") = some (.string blockHash) := by rw [hvalue]; rfl
  have h₈ : value.member (js "blockHeight") = some (jsonOrNull .number blockHeight).reread := by
    rw [hvalue]; rfl
  rw [← hvalue, recordFromJson, h₁, h₂, h₃, h₄, h₅, h₆, h₇, h₈]
  simp only [Option.bind_eq_bind, Option.bind_some, Json.asString, Json.asArray]
  rw [mapM_asString, hhash, hpackages, hheight]
  rfl

end MultiPartEvent
