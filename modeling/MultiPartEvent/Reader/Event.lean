import MultiPartEvent.Js.Utf8
import MultiPartEvent.Reader.Bytes

/-!
# `Misc` event values: widths, names and width restoration

A `Misc` event is a 32-byte name and a 256-byte payload, logged as one 288-byte value whose
trailing zero bytes the ledger removes.  Every reader restores both widths before it compares
names or merges payloads.
-/

namespace MultiPartEvent

/-- Width of a `Misc` event name. -/
def nameLength : ℕ := 32

/-- Width of a `Misc` event payload, and so of one part of a package. -/
def payloadLength : ℕ := 256

/-- Width of the whole value: name followed by payload. -/
def eventLength : ℕ := nameLength + payloadLength

@[simp] lemma nameLength_eq : nameLength = 32 := rfl

@[simp] lemma payloadLength_eq : payloadLength = 256 := rfl

@[simp] lemma eventLength_eq : eventLength = 288 := rfl

/-- An event name as a configuration gives it: a text, or its 32 bytes. -/
inductive NameInput where
  | text (name : JsString)
  | bytes (name : Bytes)
  deriving DecidableEq

/-- The 32-byte event name, as Compact's `pad(32, text)` builds it. -/
def eventName : NameInput → Except JsError Bytes
  | .bytes name =>
    if name.length ≠ nameLength then .error (.rangeError (js "an event name is 32 bytes"))
    else .ok name
  | .text name =>
    let encoded := textEncode name
    if encoded.length = 0 then .error (.rangeError (js "an event name must not be empty"))
    else if encoded.length > nameLength then
      .error (.rangeError (js "event name '" ++ name ++ js "' is longer than 32 bytes"))
    else .ok (zeroExtend nameLength encoded)

/-- An accepted event name has 32 bytes. -/
lemma length_eventName {input : NameInput} {name : Bytes} (h : eventName input = .ok name) :
    name.length = 32 := by
  cases input with
  | bytes b =>
    simp only [eventName] at h
    split_ifs at h with hlen
    cases h
    simpa using hlen
  | text t =>
    simp only [eventName] at h
    split_ifs at h with hempty hlong
    cases h
    exact length_zeroExtend (by simpa using hlong)

/-- A name given as its 32 bytes is taken as it is. -/
lemma eventName_bytes {name : Bytes} (h : name.length = 32) :
    eventName (.bytes name) = .ok name := by
  simp [eventName, h]

/-- The bytes without their trailing zero bytes. -/
def trimTrailingZeros (bytes : Bytes) : Bytes := (bytes.reverse.dropWhile (· == 0)).reverse

/-- Readable form of a 32-byte name: printable ASCII before the zero padding, otherwise hex. -/
def eventNameText (name : Bytes) : JsString :=
  let text := trimTrailingZeros name
  if text.all (fun b => 0x20 ≤ b.val && b.val < 0x7F) && text.length > 0 then textDecode text
  else js "0x" ++ bytesToHex name

/-- A width-restored event value. -/
structure RestoredEvent where
  /-- 32 bytes. -/
  name : Bytes
  /-- 256 bytes. -/
  payload : Bytes
  deriving DecidableEq

/-- Restore a stored event value to its full 288 bytes. -/
def restoreEventValue (value : Bytes) : Except JsError Bytes :=
  if value.length > eventLength then
    .error (.rangeError (js "event value is " ++ decimal value.length ++
      js " bytes; at most 288 allowed"))
  else .ok (zeroExtend eventLength value)

/-- Restore a stored event value and split it into name and payload. -/
def splitEventValue (value : Bytes) : Except JsError RestoredEvent := do
  let full ← restoreEventValue value
  return ⟨full.take nameLength, full.drop nameLength⟩

/-- The 288-byte value of a name and a payload, each zero-padded to its width. -/
def eventValue (name payload : Bytes) : Except JsError Bytes :=
  if name.length > nameLength then
    .error (.rangeError (js "event name is longer than 32 bytes"))
  else if payload.length > payloadLength then
    .error (.rangeError (js "event payload is longer than 256 bytes"))
  else .ok (zeroExtend nameLength name ++ zeroExtend payloadLength payload)

/-- The hex fields of an indexer `MiscContractEvent`. -/
structure IndexerMiscFields where
  name : JsString
  payload : JsString

/-- Restore the widths of an indexer `MiscContractEvent`'s hex fields. -/
def restoreIndexerMiscEvent (fields : IndexerMiscFields) : Except JsError RestoredEvent := do
  let name ← hexToBytes fields.name
  let payload ← hexToBytes fields.payload
  throwIf (name.length = 0)
    (.rangeError (js "event has an empty name (the indexer could not parse its value)"))
  throwIf (name.length > nameLength) (.rangeError (js "event name is longer than 32 bytes"))
  throwIf (payload.length > payloadLength)
    (.rangeError (js "event payload is longer than 256 bytes"))
  throwIf (name.length < nameLength ∧ payload.length > 0)
    (.rangeError (js "event name is shorter than 32 bytes but a payload follows"))
  splitEventValue (← eventValue name payload)

/-! ### Width restoration -/

/-- A value of at most 288 bytes is restored by zero extension. -/
lemma restoreEventValue_ok {value : Bytes} (h : value.length ≤ 288) :
    restoreEventValue value = .ok (zeroExtend 288 value) := by
  rw [restoreEventValue, if_neg (by simp [h])]
  rfl

/-- The name of a stored value is read alike before and after its width is restored. -/
lemma take_zeroExtend {value : Bytes} :
    (zeroExtend 288 value).take 32 = zeroExtend 32 (value.take 32) := by
  unfold zeroExtend
  rw [List.take_append, List.take_replicate, List.length_take]
  congr 2
  omega

/-- A name and a payload of full width are concatenated. -/
lemma eventValue_ok {name payload : Bytes} (hname : name.length = 32)
    (hpayload : payload.length = 256) : eventValue name payload = .ok (name ++ payload) := by
  simp [eventValue, zeroExtend, hname, hpayload]

example : eventName (.text (js "a")) = .ok (97 :: List.replicate 31 0) := by decide

end MultiPartEvent
