import MultiPartEvent.Js.Text

/-!
# `TextEncoder` and `TextDecoder`

The UTF-8 encoder and decoder of the WHATWG Encoding Standard.  The encoder replaces lone
surrogates by U+FFFD.  The decoder is the standard's state machine with the error mode
"replacement": an unexpected byte emits U+FFFD and is read again from the initial state, and a
leading byte order mark is dropped.
-/

namespace MultiPartEvent

/-- A code unit that starts a surrogate pair. -/
def isHighSurrogate (u : CodeUnit) : Bool := 0xD800 ≤ u.val && u.val ≤ 0xDBFF

/-- A code unit that ends a surrogate pair. -/
def isLowSurrogate (u : CodeUnit) : Bool := 0xDC00 ≤ u.val && u.val ≤ 0xDFFF

/-- U+FFFD, the replacement character. -/
def replacementCodePoint : ℕ := 0xFFFD

/-- The scalar value of a code unit outside every pair. -/
def loneScalar (u : CodeUnit) : ℕ :=
  if isHighSurrogate u || isLowSurrogate u then replacementCodePoint else u.val

/-- The scalar values of a string, every lone surrogate replaced. -/
def scalarValues : JsString → List ℕ
  | [] => []
  | [u] => [loneScalar u]
  | u :: v :: rest =>
    if isHighSurrogate u && isLowSurrogate v then
      (0x10000 + (u.val - 0xD800) * 0x400 + (v.val - 0xDC00)) :: scalarValues rest
    else loneScalar u :: scalarValues (v :: rest)

/-- The UTF-8 bytes of a scalar value. -/
def utf8Encode (c : ℕ) : Bytes :=
  if c < 0x80 then [Fin.ofNat 256 c]
  else if c < 0x800 then [Fin.ofNat 256 (0xC0 + c / 0x40), Fin.ofNat 256 (0x80 + c % 0x40)]
  else if c < 0x10000 then
    [Fin.ofNat 256 (0xE0 + c / 0x1000), Fin.ofNat 256 (0x80 + c / 0x40 % 0x40),
      Fin.ofNat 256 (0x80 + c % 0x40)]
  else
    [Fin.ofNat 256 (0xF0 + c / 0x40000), Fin.ofNat 256 (0x80 + c / 0x1000 % 0x40),
      Fin.ofNat 256 (0x80 + c / 0x40 % 0x40), Fin.ofNat 256 (0x80 + c % 0x40)]

/-- `new TextEncoder().encode(text)`. -/
def textEncode (text : JsString) : Bytes := (scalarValues text).flatMap utf8Encode

/-- The code units of a scalar value. -/
def utf16Encode (c : ℕ) : JsString :=
  if c < 0x10000 then [Fin.ofNat 65536 c]
  else [Fin.ofNat 65536 (0xD800 + (c - 0x10000) / 0x400),
    Fin.ofNat 65536 (0xDC00 + (c - 0x10000) % 0x400)]

/-- The state of the UTF-8 decoder: the code point read so far, the continuation bytes still
needed and the bounds of the next one. -/
structure DecoderState where
  /-- The bits read so far. -/
  codePoint : ℕ
  /-- The continuation bytes still to come. -/
  needed : ℕ
  /-- The least continuation byte accepted next. -/
  lower : ℕ
  /-- The greatest continuation byte accepted next. -/
  upper : ℕ
  deriving DecidableEq

/-- The decoder between two characters. -/
def DecoderState.initial : DecoderState := ⟨0, 0, 0x80, 0xBF⟩

/-- A first byte: the next state and the code points it completes. -/
def decodeFirst (b : Byte) : DecoderState × List ℕ :=
  if b.val ≤ 0x7F then (.initial, [b.val])
  else if 0xC2 ≤ b.val ∧ b.val ≤ 0xDF then (⟨b.val - 0xC0, 1, 0x80, 0xBF⟩, [])
  else if 0xE0 ≤ b.val ∧ b.val ≤ 0xEF then
    (⟨b.val - 0xE0, 2, if b.val = 0xE0 then 0xA0 else 0x80,
      if b.val = 0xED then 0x9F else 0xBF⟩, [])
  else if 0xF0 ≤ b.val ∧ b.val ≤ 0xF4 then
    (⟨b.val - 0xF0, 3, if b.val = 0xF0 then 0x90 else 0x80,
      if b.val = 0xF4 then 0x8F else 0xBF⟩, [])
  else (.initial, [replacementCodePoint])

/-- One byte of input: the next state and the code points it completes. -/
def decodeByte (s : DecoderState) (b : Byte) : DecoderState × List ℕ :=
  if s.needed = 0 then decodeFirst b
  else if s.lower ≤ b.val ∧ b.val ≤ s.upper then
    let codePoint := s.codePoint * 0x40 + (b.val - 0x80)
    if s.needed = 1 then (.initial, [codePoint])
    else (⟨codePoint, s.needed - 1, 0x80, 0xBF⟩, [])
  else
    -- the unexpected byte ends the character and is read again as a first byte
    let again := decodeFirst b
    (again.1, replacementCodePoint :: again.2)

/-- The code points of a byte sequence from a decoder state. -/
def decodeFrom (s : DecoderState) : Bytes → List ℕ
  | [] => if s.needed = 0 then [] else [replacementCodePoint]
  | b :: rest => (decodeByte s b).2 ++ decodeFrom (decodeByte s b).1 rest

/-- The code points without a leading byte order mark. -/
def dropByteOrderMark : List ℕ → List ℕ
  | [] => []
  | c :: rest => if c = 0xFEFF then rest else c :: rest

/-- `new TextDecoder().decode(bytes)`. -/
def textDecode (bytes : Bytes) : JsString :=
  (dropByteOrderMark (decodeFrom .initial bytes)).flatMap utf16Encode

example : textDecode (textEncode (js "emitPart")) = js "emitPart" := by decide

end MultiPartEvent
