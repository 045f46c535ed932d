import MultiPartEvent.Errors

/-!
# Byte helpers

`bytesEqual`, `bytesToHex` and `hexToBytes`, with what the rest of the development uses of
them: hex encoding is inverted by strict decoding, is injective, and keeps the lexicographic
order, so that sorting names by their hex sorts them by their bytes.
-/

namespace MultiPartEvent

/-- Two byte arrays have the same length and the same bytes. -/
def bytesEqual (left right : Bytes) : Bool :=
  left.length == right.length && (left.zip right).all (fun p => p.1 == p.2)

/-- `bytesEqual` decides equality. -/
@[simp] lemma bytesEqual_iff {left right : Bytes} :
    bytesEqual left right = true ↔ left = right := by
  simp only [bytesEqual, Bool.and_eq_true, beq_iff_eq, List.all_eq_true]
  constructor
  · rintro ⟨hlen, hall⟩
    refine List.ext_getElem hlen fun i hi hi' => ?_
    have hmem : (left[i], right[i]) ∈ left.zip right := by
      rw [List.mem_iff_getElem]
      exact ⟨i, by simp [hi, hi'], by simp⟩
    exact hall _ hmem
  · rintro rfl
    refine ⟨rfl, fun p hp => ?_⟩
    obtain ⟨i, hi, rfl⟩ := List.mem_iff_getElem.mp hp
    simp

/-- The bytes of a value set at the start of a zeroed array of the given length. -/
def zeroExtend (length : ℕ) (value : Bytes) : Bytes :=
  value ++ List.replicate (length - value.length) 0

/-- A value that fits is extended to the full length. -/
@[simp] lemma length_zeroExtend {length : ℕ} {value : Bytes} (h : value.length ≤ length) :
    (zeroExtend length value).length = length := by
  simp [zeroExtend, h]

/-- A value of the full length is left as it is. -/
lemma zeroExtend_of_length_eq {length : ℕ} {value : Bytes} (h : value.length = length) :
    zeroExtend length value = value := by
  simp [zeroExtend, h]

/-! ### Hex encoding -/

/-- The two digits of a byte. -/
def byteToHex (b : Byte) : JsString := [hexUnit (b.val / 16), hexUnit (b.val % 16)]

/-- Lowercase hex without a prefix. -/
def bytesToHex (bytes : Bytes) : JsString := bytes.flatMap byteToHex

/-- The bytes of consecutive digit pairs. -/
def hexPairs : JsString → Bytes
  | high :: low :: rest =>
    Fin.ofNat 256 ((hexDigit? high).getD 0 * 16 + (hexDigit? low).getD 0) :: hexPairs rest
  | _ => []

/-- Strict hex decoding: even length, digits `0-9a-fA-F` only, no `0x` prefix. -/
def hexToBytes (hex : JsString) : Except JsError Bytes :=
  if hex.length % 2 ≠ 0 then .error (.rangeError (js "hex string has odd length"))
  else if hex.any (fun u => (hexDigit? u).isNone) then
    .error (.rangeError (js "hex string has non-hex characters"))
  else .ok (hexPairs hex)

@[simp] lemma bytesToHex_nil : bytesToHex [] = [] := rfl

@[simp] lemma bytesToHex_cons (b : Byte) (bytes : Bytes) :
    bytesToHex (b :: bytes) = hexUnit (b.val / 16) :: hexUnit (b.val % 16) :: bytesToHex bytes :=
  rfl

/-- The hex text of bytes has two digits a byte. -/
@[simp] lemma length_bytesToHex (bytes : Bytes) : (bytesToHex bytes).length = 2 * bytes.length := by
  induction bytes with
  | nil => rfl
  | cons b bytes ih => rw [bytesToHex_cons]; simp only [List.length_cons, ih]; omega

/-- Every unit of a hex text is a digit. -/
lemma isNone_hexDigit?_bytesToHex {bytes : Bytes} {u : CodeUnit} (hu : u ∈ bytesToHex bytes) :
    (hexDigit? u).isNone = false := by
  induction bytes with
  | nil => cases hu
  | cons b bytes ih =>
    rw [bytesToHex_cons, List.mem_cons, List.mem_cons] at hu
    rcases hu with rfl | rfl | hu
    · rw [hexDigit?_hexUnit _ (by omega)]; rfl
    · rw [hexDigit?_hexUnit _ (by omega)]; rfl
    · exact ih hu

/-- The digit pairs of a hex text are its bytes. -/
lemma hexPairs_bytesToHex (bytes : Bytes) : hexPairs (bytesToHex bytes) = bytes := by
  induction bytes with
  | nil => rfl
  | cons b bytes ih =>
    rw [bytesToHex_cons, hexPairs, hexDigit?_hexUnit _ (by omega), hexDigit?_hexUnit _ (by omega),
      ih, Option.getD_some, Option.getD_some, Nat.div_add_mod']
    simp

/-- Strict decoding inverts encoding. -/
@[simp] theorem hexToBytes_bytesToHex (bytes : Bytes) :
    hexToBytes (bytesToHex bytes) = .ok bytes := by
  unfold hexToBytes
  rw [if_neg (by simp), if_neg, hexPairs_bytesToHex]
  rw [Bool.not_eq_true, List.any_eq_false]
  intro u hu
  rw [isNone_hexDigit?_bytesToHex hu]
  decide

/-- Different bytes have different hex. -/
lemma bytesToHex_injective : Function.Injective bytesToHex := by
  intro a b h
  rw [← hexPairs_bytesToHex a, h, hexPairs_bytesToHex]

/-- Hex keeps the lexicographic order of the bytes. -/
theorem bytesToHex_lt_iff (a b : Bytes) : bytesToHex a < bytesToHex b ↔ a < b := by
  induction a generalizing b with
  | nil =>
    cases b with
    | nil => simp
    | cons y b => rw [bytesToHex_cons, bytesToHex_nil]; exact iff_of_true (by simp) (by simp)
  | cons x a ih =>
    cases b with
    | nil => simp
    | cons y b =>
      rw [bytesToHex_cons, bytesToHex_cons, List.cons_lt_cons_iff, List.cons_lt_cons_iff,
        List.cons_lt_cons_iff, ih, hexUnit_lt_iff _ (by omega) _ (by omega),
        hexUnit_lt_iff _ (by omega) _ (by omega), hexUnit_inj _ (by omega) _ (by omega),
        hexUnit_inj _ (by omega) _ (by omega), Fin.lt_def, Fin.ext_iff]
      by_cases hab : a < b
      · simp only [hab, and_true]; omega
      · simp only [hab, and_false, or_false]; omega

end MultiPartEvent
