import MultiPartEvent.Js.StrictUtf8
import MultiPartEvent.Publisher.Parts

/-!
# The notices of the notice board

A notice is its length as four big-endian bytes, then the UTF-8 text, and zero padding behind it.
The board encodes and decodes notices, the deploy tools encode them as well.

The decoder reads the length, the padding and the text back exactly, but its text codec drops a
leading byte order mark.  A notice survives its package when its text does not begin with U+FEFF,
and a payload is the encoding of the notice it is read as when its text does not begin with the
byte order mark (`notice_round_trip_iff`).
-/

namespace MultiPartEvent

/-- `setUint32(0, n, false)`: the four bytes of a number, the highest first. -/
def uint32Bytes (n : ℕ) : Bytes :=
  [Fin.ofNat 256 (n / 0x1000000), Fin.ofNat 256 (n / 0x10000), Fin.ofNat 256 (n / 0x100),
    Fin.ofNat 256 n]

/-- `getUint32(0, false)`: the number in the first four bytes. -/
def getUint32 : Bytes → ℕ
  | b₀ :: b₁ :: b₂ :: b₃ :: _ => ((b₀.val * 256 + b₁.val) * 256 + b₂.val) * 256 + b₃.val
  | _ => 0

/-- Encode a notice in the board's format: u32 big-endian length, UTF-8 text. -/
def encodeNotice (text : JsString) : Bytes :=
  let body := textEncode text
  uint32Bytes body.length ++ body

/-- The deploy tools' notice in the notice board's format: u32 big-endian length, then the UTF-8
text. -/
def encodeNoticeText (text : JsString) : Bytes :=
  let body := textEncode text
  uint32Bytes body.length ++ body

/-- The text of a notice payload: the bytes its length counts. -/
def noticeBody (payload : Bytes) : Bytes := (payload.drop 4).take (getUint32 payload)

/-- Decode a merged package payload as a notice.  The padding after the text must be zero; a text
that is not UTF-8 throws the decoder's `TypeError`. -/
def decodeNotice (payload : Bytes) : Except JsError JsString :=
  if payload.length < 4 then .error (.rangeError (js "a notice needs its 4-byte length"))
  else
    let length := getUint32 payload
    if 4 + length > payload.length then
      .error (.rangeError (js "the notice is longer than its package"))
    else if (payload.drop (4 + length)).any (fun byte => byte ≠ 0) then
      .error (.rangeError (js "the notice's padding is not zero"))
    else
      match textDecodeFatal (noticeBody payload) with
      | none => .error (.error (js "The encoded data was not valid for encoding utf-8"))
      | some text => .ok text

/-! ### The length -/

/-- A length of four bytes is read back, whatever follows. -/
lemma getUint32_uint32Bytes {n : ℕ} (h : n < 2 ^ 32) (rest : Bytes) :
    getUint32 (uint32Bytes n ++ rest) = n := by
  simp only [uint32Bytes, List.cons_append, List.nil_append, getUint32]
  have hval : ∀ m, (Fin.ofNat 256 m : Byte).val = m % 256 := fun _ => rfl
  rw [hval, hval, hval, hval]
  omega

/-- The bytes of the length read are the first four bytes. -/
lemma uint32Bytes_getUint32 {payload : Bytes} (h : 4 ≤ payload.length) :
    uint32Bytes (getUint32 payload) = payload.take 4 := by
  have hbyte : ∀ (b : Byte) (n : ℕ), n % 256 = b.val → (Fin.ofNat 256 n : Byte) = b :=
    fun b n hn => Fin.ext hn
  rcases payload with _ | ⟨b₀, _ | ⟨b₁, _ | ⟨b₂, _ | ⟨b₃, rest⟩⟩⟩⟩
  · simp at h
  · simp at h
  · simp at h
  · simp at h
  · rw [getUint32, uint32Bytes, hbyte b₀ _ (by omega), hbyte b₁ _ (by omega),
      hbyte b₂ _ (by omega), hbyte b₃ _ (by omega)]
    rfl

/-- A length of four bytes is below 2^32. -/
lemma getUint32_lt (payload : Bytes) : getUint32 payload < 2 ^ 32 := by
  unfold getUint32
  split
  next => omega
  next => norm_num

@[simp] lemma length_uint32Bytes (n : ℕ) : (uint32Bytes n).length = 4 := rfl

/-! ### Accepted payloads -/

/-- A notice with this text behind its length, in a package. -/
def noticePayload (body : Bytes) (zeros : ℕ) : Bytes :=
  uint32Bytes body.length ++ body ++ List.replicate zeros 0

section Payload

variable {body : Bytes} {zeros : ℕ}

/-- The length of a notice in a package. -/
lemma getUint32_noticePayload (hbody : body.length < 2 ^ 32) :
    getUint32 (noticePayload body zeros) = body.length := by
  rw [noticePayload, List.append_assoc, getUint32_uint32Bytes hbody]

/-- The text of a notice in a package. -/
lemma noticeBody_noticePayload (hbody : body.length < 2 ^ 32) :
    noticeBody (noticePayload body zeros) = body := by
  rw [noticeBody, getUint32_noticePayload hbody, noticePayload, List.append_assoc,
    List.drop_left' (length_uint32Bytes _), List.take_left]

/-- A notice in a package is decoded as its text is. -/
lemma decodeNotice_noticePayload (hbody : body.length < 2 ^ 32) {text : JsString}
    (hdecoded : textDecodeFatal body = some text) :
    decodeNotice (noticePayload body zeros) = .ok text := by
  have hlength : (noticePayload body zeros).length = 4 + body.length + zeros := by
    simp [noticePayload, Nat.add_assoc]
  have hpadding : (noticePayload body zeros).drop (4 + body.length) = List.replicate zeros 0 := by
    apply List.drop_left'
    simp
  unfold decodeNotice
  rw [if_neg (by omega), getUint32_noticePayload hbody]
  simp only
  rw [if_neg (by omega), hpadding, if_neg (by simp), noticeBody_noticePayload hbody, hdecoded]

/-- **What the decoder accepts**: a length, as many bytes, and zeros; the notice is what these bytes
decode to. -/
lemma noticePayload_of_decodeNotice {payload : Bytes} {text : JsString}
    (h : decodeNotice payload = .ok text) :
    ∃ zeros, payload = noticePayload (noticeBody payload) zeros ∧
      (noticeBody payload).length < 2 ^ 32 ∧ textDecodeFatal (noticeBody payload) = some text := by
  unfold decodeNotice at h
  simp only at h
  split_ifs at h with hshort hlong hpadding
  have hlength : (noticeBody payload).length = getUint32 payload := by
    rw [noticeBody, List.length_take, List.length_drop]
    omega
  have hzeros : payload.drop (4 + getUint32 payload) =
      List.replicate (payload.length - (4 + getUint32 payload)) 0 := by
    rw [List.eq_replicate_iff, List.length_drop]
    refine ⟨rfl, ?_⟩
    intro byte hbyte
    rw [List.any_eq_true] at hpadding
    by_contra hne
    exact hpadding ⟨byte, hbyte, decide_eq_true hne⟩
  refine ⟨payload.length - (4 + getUint32 payload), ?_, ?_, ?_⟩
  · calc payload = payload.take 4 ++ payload.drop 4 := (List.take_append_drop 4 payload).symm
      _ = payload.take 4 ++ (noticeBody payload ++ (payload.drop 4).drop (getUint32 payload)) := by
          rw [noticeBody, List.take_append_drop (getUint32 payload)]
      _ = noticePayload (noticeBody payload) (payload.length - (4 + getUint32 payload)) := by
          rw [noticePayload, hlength, uint32Bytes_getUint32 (by omega), List.drop_drop, hzeros,
            List.append_assoc]
  · rw [hlength]
    exact getUint32_lt payload
  · split at h
    · cases h
    next decoded hdecoded =>
      cases h
      exact hdecoded

end Payload

/-- The encoding of a notice is its payload without padding. -/
lemma encodeNotice_append (text : JsString) (zeros : ℕ) :
    encodeNotice text ++ List.replicate zeros 0 = noticePayload (textEncode text) zeros := rfl

/-- **A notice survives its package**, but for a first U+FEFF. -/
lemma decodeNotice_encodeNotice {text : JsString} (htext : Paired text)
    (hlength : (textEncode text).length < 2 ^ 32) (zeros : ℕ) :
    decodeNotice (encodeNotice text ++ List.replicate zeros 0) =
      .ok (if text.head? = some byteOrderUnit then text.tail else text) := by
  rw [encodeNotice_append]
  exact decodeNotice_noticePayload hlength (textDecodeFatal_textEncode htext)

/-- A payload without a byte order mark is the encoding of its notice, one with it is not. -/
lemma eq_encodeNotice_iff {payload : Bytes} {text : JsString}
    (h : decodeNotice payload = .ok text) :
    (∃ zeros, payload = encodeNotice text ++ List.replicate zeros 0) ↔
      ¬byteOrderMark <+: noticeBody payload := by
  obtain ⟨zeros, hpayload, hlength, hdecoded⟩ := noticePayload_of_decodeNotice h
  constructor
  · intro hencoded hmark
    obtain ⟨zeros', hencoded⟩ := hencoded
    rcases textDecodeFatal_cases hdecoded with ⟨hplain, _⟩ | hbody
    · exact hplain hmark
    · -- the length of the payload counts the mark, that of the notice does not
      have hcounts := congrArg List.length hbody
      rw [List.length_append, show byteOrderMark.length = 3 from rfl] at hcounts
      have hsame : noticeBody payload = textEncode text := by
        rw [hencoded, encodeNotice_append]
        exact noticeBody_noticePayload (by omega)
      rw [hsame] at hcounts
      omega
  · intro hmark
    rcases textDecodeFatal_cases hdecoded with ⟨_, hbody⟩ | hbody
    · refine ⟨zeros, ?_⟩
      rw [encodeNotice_append, ← hbody]
      exact hpayload
    · rw [hbody] at hmark
      exact absurd (List.prefix_append _ _) hmark

/-- **When a notice round-trips**: the encoding of a notice, zero-padded, decodes to the notice
exactly when the notice does not begin with U+FEFF; the text and the bytes are encoded alike;
and an accepted payload is the padded encoding of its notice exactly when its body has no byte
order mark. -/
theorem notice_round_trip_iff (text : JsString) (payload : Bytes) :
    (Paired text → (textEncode text).length < 2 ^ 32 - 1 → ∀ zeros,
      (decodeNotice (encodeNotice text ++ List.replicate zeros 0) = .ok text ↔
        text.head? ≠ some byteOrderUnit)) ∧
    encodeNoticeText text = encodeNotice text ∧
    ∀ decoded, decodeNotice payload = .ok decoded →
      ((∃ zeros, payload = encodeNotice decoded ++ List.replicate zeros 0) ↔
        ¬byteOrderMark <+: noticeBody payload) := by
  refine ⟨?_, rfl, fun _ h => eq_encodeNotice_iff h⟩
  intro htext hlength zeros
  rw [decodeNotice_encodeNotice htext (by omega), Except.ok.injEq]
  constructor
  · intro hsame hmark
    rw [if_pos hmark] at hsame
    have hlengths := congrArg List.length hsame
    rw [eq_cons_of_head? hmark, List.tail_cons, List.length_cons] at hlengths
    omega
  · intro hmark
    rw [if_neg hmark]

/-- A notice of one U+FEFF decodes to the empty notice, and so does the empty notice. -/
theorem notice_byteOrderMark :
    encodeNotice [byteOrderUnit] = [0, 0, 0, 3, 0xEF, 0xBB, 0xBF] ∧
      decodeNotice (encodeNotice [byteOrderUnit] ++ List.replicate 249 0) = .ok [] ∧
      decodeNotice (encodeNotice [] ++ List.replicate 252 0) = .ok [] := by
  have hpaired : Paired [byteOrderUnit] := paired_literal rfl
  refine ⟨by rfl, ?_, ?_⟩
  · rw [decodeNotice_encodeNotice hpaired (by decide)]
    rfl
  · rw [decodeNotice_encodeNotice .nil (by decide)]
    rfl

end MultiPartEvent
