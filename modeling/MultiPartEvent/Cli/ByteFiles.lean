import MultiPartEvent.Indexer.HexText
import MultiPartEvent.Js.FileText

/-!
# Files of bytes

`cmse` takes raw transactions, contract states and verifier keys from files.  A file holds the bytes
themselves, or their hex as a text with white space wherever its writer put it; nothing but the
contents tells the two apart.

So two things have to hold.  Hex is read as the bytes it stands for, however it is laid out
(`bytesOfFile_textEncode`), and a binary file is not taken for hex: one byte of ASCII that no hex
text has, anywhere in the file, is enough (`bytesOfFile_of_foreign`).
-/

namespace MultiPartEvent

/-- `text.replace(/\s+/gu, "")`. -/
def withoutSpace (text : JsString) : JsString := text.filter fun u => !trimmedUnits.contains u

/-- `/^[0-9a-fA-F]+$/u.test(text)`, and an even number of digits. -/
def isHexText (text : JsString) : Bool :=
  text.length ≠ 0 && text.all (fun u => (hexDigit? u).isSome) && text.length % 2 = 0

/-- What `readBytesFile` makes of the contents of a file: hex text (white space and an optional `0x`
ignored) or raw bytes. -/
def bytesOfFile (raw : Bytes) : Except JsError Bytes :=
  let text := dropHexPrefix (withoutSpace (fileText raw))
  if isHexText text = true then hexToBytes (text.map asciiLower) else .ok raw

example : bytesOfFile (textEncode (js "0xAB cd\n")) = .ok [0xAB, 0xCD] := by decide +kernel

example : bytesOfFile (textEncode (js "midnight")) = .ok (textEncode (js "midnight")) := by
  decide +kernel

/-! ### Hex texts -/

/-- A hex text is the hex of some bytes, in any letter case. -/
lemma isHexText_iff {text : JsString} :
    isHexText text = true ↔ ∃ bytes, bytes ≠ [] ∧ text.map asciiLower = bytesToHex bytes := by
  unfold isHexText
  simp only [ne_eq, Bool.and_eq_true, decide_eq_true_eq, List.all_eq_true, decide_not,
    Bool.not_eq_true']
  constructor
  · intro h
    obtain ⟨⟨hne, hdigits⟩, heven⟩ := h
    have hhex := bytesToHex_hexPairs heven hdigits
    refine ⟨hexPairs text, ?_, hhex.symm⟩
    intro hnil
    rw [hnil, bytesToHex_nil, eq_comm, List.map_eq_nil_iff] at hhex
    exact of_decide_eq_false hne (congrArg List.length hhex)
  · intro h
    obtain ⟨bytes, hne, hhex⟩ := h
    have hlength : text.length = 2 * bytes.length := by
      rw [← length_bytesToHex, ← hhex, List.length_map]
    have hpositive := List.length_pos_iff.mpr hne
    refine ⟨⟨decide_eq_false (by omega), fun u hu => ?_⟩, by omega⟩
    have hdigit := isNone_hexDigit?_bytesToHex (hhex ▸ List.mem_map_of_mem (f := asciiLower) hu)
    rwa [hexDigit?_asciiLower, Option.isNone_eq_false_iff] at hdigit

/-- What is left of a hex text is read as its bytes. -/
lemma bytesOfFile_of_isHexOf {raw bytes : Bytes} (hbytes : bytes ≠ [])
    (h : IsHexOf (withoutSpace (fileText raw)) bytes) : bytesOfFile raw = .ok bytes := by
  have hhex := map_asciiLower_dropHexPrefix h
  unfold bytesOfFile
  simp only
  rw [if_pos (isHexText_iff.mpr ⟨bytes, hbytes, hhex⟩), hhex, hexToBytes_bytesToHex]

/-- A hex digit is in ASCII. -/
lemma val_lt_of_hexDigit? {u : CodeUnit} (h : (hexDigit? u).isSome = true) : u.val < 0x80 := by
  unfold hexDigit? at h
  split_ifs at h <;> first | omega | cases h

/-- Lower-casing does not leave or enter ASCII. -/
lemma val_lt_of_asciiLower {u : CodeUnit} (h : (asciiLower u).val < 0x80) : u.val < 0x80 := by
  unfold asciiLower at h
  split_ifs at h with hupper
  · omega
  · exact h

/-- White space has no surrogates. -/
lemma trimmedUnits_not_surrogate {u : CodeUnit} (h : trimmedUnits.contains u = true) :
    isHighSurrogate u = false ∧ isLowSurrogate u = false := by
  have hall : (trimmedUnits.all fun u => !isHighSurrogate u && !isLowSurrogate u) = true := rfl
  simpa using List.all_eq_true.mp hall u (List.contains_iff_mem.mp h)

/-- ASCII has no surrogates. -/
lemma ascii_not_surrogate {u : CodeUnit} (h : u.val < 0x80) :
    isHighSurrogate u = false ∧ isLowSurrogate u = false := by
  simp only [isHighSurrogate, isLowSurrogate, Bool.and_eq_false_iff, decide_eq_false_iff_not]
  omega

/-- A laid out hex text has no surrogates. -/
lemma paired_of_isHexOf {text : JsString} {bytes : Bytes} (h : IsHexOf (withoutSpace text) bytes) :
    Paired text := by
  have hdigit : ∀ u ∈ bytesToHex bytes, u.val < 0x80 := by
    intro u hu
    have hsome := isNone_hexDigit?_bytesToHex hu
    rw [Option.isNone_eq_false_iff] at hsome
    exact val_lt_of_hexDigit? hsome
  have hprefix : ((js "0x").all fun u => decide (u.val < 0x80)) = true := rfl
  refine paired_of_forall fun u hu => ?_
  by_cases hspace : trimmedUnits.contains u = true
  · exact trimmedUnits_not_surrogate hspace
  have hmem : asciiLower u ∈ (withoutSpace text).map asciiLower :=
    List.mem_map_of_mem (List.mem_filter.mpr ⟨hu, by simpa using hspace⟩)
  refine ascii_not_surrogate (val_lt_of_asciiLower ?_)
  rcases h with hplain | hprefixed
  · rw [hplain] at hmem
    exact hdigit _ hmem
  · rw [hprefixed, List.mem_append] at hmem
    rcases hmem with hmem | hmem
    · exact of_decide_eq_true (List.all_eq_true.mp hprefix _ hmem)
    · exact hdigit _ hmem

/-- **Hex is read as the bytes it stands for**, in any letter case, with or without `0x`, and with
white space anywhere. -/
theorem bytesOfFile_textEncode {text : JsString} {bytes : Bytes} (hbytes : bytes ≠ [])
    (h : IsHexOf (withoutSpace text) bytes) : bytesOfFile (textEncode text) = .ok bytes := by
  refine bytesOfFile_of_isHexOf hbytes ?_
  rw [fileText_textEncode (paired_of_isHexOf h)]
  exact h

/-! ### Binary files -/

/-- A byte of ASCII is not a continuation byte of this state. -/
def DecoderState.Breaks (s : DecoderState) : Prop := s.needed ≠ 0 → 0x80 ≤ s.lower

/-- No state that a byte leads to takes ASCII for a continuation. -/
lemma breaks_decodeByte (s : DecoderState) (b : Byte) : (decodeByte s b).1.Breaks := by
  have hfirst : (decodeFirst b).1.Breaks := by
    unfold decodeFirst DecoderState.Breaks
    split_ifs <;> simp [DecoderState.initial]
  unfold decodeByte
  split_ifs
  · exact hfirst
  · intro hneeded
    exact absurd rfl hneeded
  · exact fun _ => le_rfl
  · exact hfirst

/-- A byte of ASCII is decoded as itself, whatever stands before it. -/
lemma mem_decodeByte {s : DecoderState} {b : Byte} (hs : s.Breaks) (hb : b.val < 0x80) :
    b.val ∈ (decodeByte s b).2 := by
  have hfirst : (decodeFirst b).2 = [b.val] := by
    unfold decodeFirst
    rw [if_pos (by omega)]
  unfold decodeByte
  split_ifs with hneeded haccepted
  · rw [hfirst]
    exact List.mem_singleton_self _
  · have := hs hneeded
    omega
  · have := hs hneeded
    omega
  · simp [hfirst]

/-- An ASCII byte of a file is found in what the file is decoded to. -/
lemma mem_decodeFrom {s : DecoderState} {raw : Bytes} {b : Byte} (hs : s.Breaks) (hb : b.val < 0x80)
    (hmem : b ∈ raw) : b.val ∈ decodeFrom s raw := by
  induction raw generalizing s with
  | nil => cases hmem
  | cons first raw ih =>
    rw [decodeFrom, List.mem_append]
    rcases List.mem_cons.mp hmem with rfl | hrest
    · exact Or.inl (mem_decodeByte hs hb)
    · exact Or.inr (ih (breaks_decodeByte s first) hrest)

/-- A unit of ASCII that no hex text has, laid out as it may be. -/
structure IsForeign (u : CodeUnit) : Prop where
  ascii : u.val < 0x80
  notSpace : trimmedUnits.contains u = false
  notDigit : hexDigit? u = none
  notPrefix : asciiLower u ≠ charUnit 'x'

/-- Dropping the prefix keeps other units. -/
lemma mem_dropHexPrefix {u : CodeUnit} {text : JsString} (hu : u ∈ text)
    (hzero : u ≠ charUnit '0') (hx : asciiLower u ≠ charUnit 'x') : u ∈ dropHexPrefix text := by
  unfold dropHexPrefix
  split
  next zero x rest =>
    split_ifs with hprefix
    · rcases List.mem_cons.mp hu with rfl | hu
      · exact absurd hprefix.1 hzero
      · rcases List.mem_cons.mp hu with rfl | hu
        · exact absurd hprefix.2 hx
        · exact hu
    · exact hu
  next => exact hu

/-- **A binary file is not taken for hex**: one foreign byte, anywhere in it, shows what it is. -/
theorem bytesOfFile_of_foreign {raw : Bytes} {b : Byte} (hmem : b ∈ raw)
    (hforeign : IsForeign (Fin.ofNat 65536 b.val)) : bytesOfFile raw = .ok raw := by
  have hval : (Fin.ofNat 65536 b.val : CodeUnit).val = b.val := Nat.mod_eq_of_lt (by omega)
  have hascii : b.val < 0x80 := hval ▸ hforeign.ascii
  have hinitial : DecoderState.initial.Breaks := fun hneeded => absurd rfl hneeded
  have htext : Fin.ofNat 65536 b.val ∈ fileText raw := by
    refine List.mem_flatMap.mpr ⟨b.val, mem_decodeFrom hinitial hascii hmem, ?_⟩
    rw [utf16Encode, if_pos (by omega)]
    exact List.mem_singleton_self _
  have hzero : (Fin.ofNat 65536 b.val : CodeUnit) ≠ charUnit '0' := by
    intro hzero
    have hnone := hforeign.notDigit
    rw [hzero] at hnone
    cases hnone
  have hkept : Fin.ofNat 65536 b.val ∈ withoutSpace (fileText raw) :=
    List.mem_filter.mpr ⟨htext, by rw [hforeign.notSpace]; rfl⟩
  have hleft := mem_dropHexPrefix hkept hzero hforeign.notPrefix
  unfold bytesOfFile
  simp only
  rw [if_neg]
  intro hhex
  obtain ⟨bytes, -, hdigits⟩ := isHexText_iff.mp hhex
  have hdigit := isNone_hexDigit?_bytesToHex
    (hdigits ▸ List.mem_map_of_mem (f := asciiLower) hleft)
  rw [hexDigit?_asciiLower, hforeign.notDigit] at hdigit
  cases hdigit

/-- **However it was saved, a file is read as the same bytes**: as they are or as hex, in any letter
case and layout, as long as the bytes themselves could not be hex. -/
theorem savedForms_read_alike {raw : Bytes} {text : JsString} {b : Byte} (hmem : b ∈ raw)
    (hforeign : IsForeign (Fin.ofNat 65536 b.val)) (hhex : IsHexOf (withoutSpace text) raw) :
    bytesOfFile raw = .ok raw ∧ bytesOfFile (textEncode text) = .ok raw :=
  ⟨bytesOfFile_of_foreign hmem hforeign, bytesOfFile_textEncode (List.ne_nil_of_mem hmem) hhex⟩

/-- Bytes of text, and their hex on two lines. -/
theorem savedForms_read_alike_two_lines :
    bytesOfFile (textEncode (js "0x6D\n69")) = .ok (textEncode (js "mi")) := by
  have hforeign : IsForeign (Fin.ofNat 65536 (0x6D : Byte).val) :=
    ⟨by decide, rfl, rfl, by decide⟩
  have halike : bytesOfFile (textEncode (js "mi")) = .ok (textEncode (js "mi")) ∧
      bytesOfFile (textEncode (js "0x6D\n69")) = .ok (textEncode (js "mi")) :=
    savedForms_read_alike (by decide) hforeign (Or.inr (by decide))
  exact halike.2

end MultiPartEvent
