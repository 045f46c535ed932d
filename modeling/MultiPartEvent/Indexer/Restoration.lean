import MultiPartEvent.Indexer.Accounting
import MultiPartEvent.Indexer.HexText

/-!
# The ways a stored event value is restored

The ledger removes trailing zero bytes of a 288-byte event value, and its readers put them back
each in its own way: the transcript reader pads the cell (`decodeMiscValue`), the event reader pads
and splits the value (`splitEventValue`), and the indexer reader pads a name and a payload that were
split before or after the padding (`restoreIndexerMiscEvent`).  All of them find the same 288 bytes,
wherever the trimming stopped.
-/

namespace MultiPartEvent

section Trimmed

variable {name payload value : Bytes} {removed : ℕ}

/-- The value is a name and a payload of full width without some of their trailing zero bytes. -/
structure IsTrimmed (name payload value : Bytes) (removed : ℕ) : Prop where
  name_length : name.length = 32
  payload_length : payload.length = 256
  eq_append : name ++ payload = value ++ List.replicate removed 0

/-- A trimmed value has lost as many bytes as it lacks. -/
lemma IsTrimmed.length_add (h : IsTrimmed name payload value removed) :
    value.length + removed = 288 := by
  have hlength := congrArg List.length h.eq_append
  rw [List.length_append, List.length_append, List.length_replicate, h.name_length,
    h.payload_length] at hlength
  exact hlength.symm

/-- Padding a trimmed value restores it. -/
lemma IsTrimmed.zeroExtend_eq (h : IsTrimmed name payload value removed) :
    zeroExtend 288 value = name ++ payload := by
  have hlength := h.length_add
  rw [zeroExtend, h.eq_append, show 288 - value.length = removed by omega]

/-- The payload of a stored value is read alike before and after its width is restored. -/
lemma drop_zeroExtend {value : Bytes} (hlength : value.length ≤ 288) :
    (zeroExtend 288 value).drop 32 = zeroExtend 256 (value.drop 32) := by
  unfold zeroExtend
  rw [List.drop_append, List.drop_replicate, List.length_drop]
  congr 2
  omega

/-- The first 32 bytes of a trimmed value, padded, are the name. -/
lemma IsTrimmed.zeroExtend_take (h : IsTrimmed name payload value removed) :
    zeroExtend 32 (value.take 32) = name := by
  rw [← take_zeroExtend, h.zeroExtend_eq, List.take_left' h.name_length]

/-- The rest of a trimmed value, padded, is the payload. -/
lemma IsTrimmed.zeroExtend_drop (h : IsTrimmed name payload value removed) :
    zeroExtend 256 (value.drop 32) = payload := by
  have hlength := h.length_add
  rw [← drop_zeroExtend (by omega), h.zeroExtend_eq, List.drop_left' h.name_length]

end Trimmed

/-! ### The hex fields of the indexer -/

/-- The text is hex of whole bytes: digits of either case, an even number of them. -/
def IsEvenHex (text : JsString) : Prop :=
  text.length % 2 = 0 ∧ ∀ u ∈ text, (hexDigit? u).isSome = true

/-- Two digits a byte. -/
lemma length_hexPairs (text : JsString) : (hexPairs text).length = text.length / 2 := by
  induction text using hexPairs.induct with
  | case1 high low rest ih =>
    rw [hexPairs, List.length_cons, ih, List.length_cons, List.length_cons]
    omega
  | case2 text hshort =>
    rcases text with _ | ⟨u, _ | ⟨v, rest⟩⟩
    · rfl
    · simp [hexPairs]
    · exact absurd rfl (hshort u v rest)

/-- Strict decoding reads the digit pairs of whole bytes. -/
lemma hexToBytes_eq_ok_iff_isEvenHex {text : JsString} {bytes : Bytes} :
    hexToBytes text = .ok bytes ↔ IsEvenHex text ∧ bytes = hexPairs text := by
  unfold hexToBytes IsEvenHex
  split_ifs with hodd hother
  · simp [hodd]
  · obtain ⟨u, hu, hnone⟩ := List.any_eq_true.mp hother
    refine iff_of_false nofun ?_
    intro h
    have hsome := h.1.2 u hu
    rw [Option.isNone_iff_eq_none.mp hnone] at hsome
    cases hsome
  · rw [Bool.not_eq_true, List.any_eq_false] at hother
    rw [not_not] at hodd
    have hdigits : ∀ u ∈ text, (hexDigit? u).isSome = true := by
      intro u hu
      have hdigit := hother u hu
      rwa [Bool.not_eq_true, Option.isNone_eq_false_iff] at hdigit
    rw [Except.ok.injEq, eq_comm]
    exact ⟨fun h => ⟨⟨hodd, hdigits⟩, h⟩, fun h => h.2⟩

/-- The decoded fields `restoreIndexerMiscEvent` accepts: a name of at least one byte, both within
their widths, and no payload behind a short name. -/
def WidthsAllowed (nameBytes payloadBytes : ℕ) : Prop :=
  1 ≤ nameBytes ∧ nameBytes ≤ 32 ∧ payloadBytes ≤ 256 ∧ (payloadBytes = 0 ∨ nameBytes = 32)

/-- **What restoring an indexer event does.**  It pads the decoded fields, when their widths are
allowed. -/
lemma restoreIndexerMiscEvent_eq_ok_iff {fields : IndexerMiscFields} {restored : RestoredEvent} :
    restoreIndexerMiscEvent fields = .ok restored ↔
      ∃ name payload, hexToBytes fields.name = .ok name ∧ hexToBytes fields.payload = .ok payload ∧
        WidthsAllowed name.length payload.length ∧
        restored = ⟨zeroExtend 32 name, zeroExtend 256 payload⟩ := by
  unfold restoreIndexerMiscEvent
  simp only [bind_eq_ok_iff, throwIf_eq_ok_iff, exists_const]
  apply exists_congr
  intro name
  rw [← exists_and_left]
  apply exists_congr
  intro payload
  apply and_congr_right
  intro _
  apply and_congr_right
  intro _
  simp only [nameLength_eq, payloadLength_eq]
  constructor
  · intro h
    obtain ⟨hsome, hname, hpayload, hbehind, value, hvalue, hsplit⟩ := h
    have hfull : splitEventValue (zeroExtend 32 name ++ zeroExtend 256 payload) =
        .ok ⟨zeroExtend 32 name, zeroExtend 256 payload⟩ :=
      splitEventValue_append (length_zeroExtend (by omega)) (length_zeroExtend (by omega))
    simp only [eventValue, nameLength_eq, payloadLength_eq, hname, hpayload, if_false] at hvalue
    cases hvalue
    rw [hfull] at hsplit
    cases hsplit
    exact ⟨⟨by omega, by omega, by omega, by omega⟩, rfl⟩
  · intro h
    obtain ⟨⟨hsome, hname, hpayload, hbehind⟩, rfl⟩ := h
    refine ⟨by omega, by omega, by omega, by omega, _, ?_,
      splitEventValue_append (length_zeroExtend hname) (length_zeroExtend hpayload)⟩
    simp [eventValue, Nat.not_lt.mpr hname, Nat.not_lt.mpr hpayload]

/-- The fields of a trimmed value that was split as it is restore the name and the payload. -/
lemma IsTrimmed.restoreIndexerMiscEvent {name payload value : Bytes} {removed : ℕ}
    (h : IsTrimmed name payload value removed) (hvalue : value ≠ []) {fields : IndexerMiscFields}
    (hname : fields.name.map asciiLower = bytesToHex (value.take 32))
    (hpayload : fields.payload.map asciiLower = bytesToHex (value.drop 32)) :
    restoreIndexerMiscEvent fields = .ok ⟨name, payload⟩ := by
  rw [restoreIndexerMiscEvent_eq_ok_iff]
  refine ⟨_, _, hexToBytes_eq_ok_iff.mpr hname, hexToBytes_eq_ok_iff.mpr hpayload, ?_, ?_⟩
  · have hlength := h.length_add
    have hpositive := List.length_pos_iff.mpr hvalue
    rw [List.length_take, List.length_drop]
    exact ⟨by omega, by omega, by omega, by omega⟩
  · rw [h.zeroExtend_take, h.zeroExtend_drop]

/-- The fields `restoreIndexerMiscEvent` accepts, told from their texts. -/
lemma restoreIndexerMiscEvent_accepts_iff (fields : IndexerMiscFields) :
    (∃ restored, restoreIndexerMiscEvent fields = .ok restored) ↔
      IsEvenHex fields.name ∧ IsEvenHex fields.payload ∧
        WidthsAllowed (fields.name.length / 2) (fields.payload.length / 2) := by
  simp only [restoreIndexerMiscEvent_eq_ok_iff, hexToBytes_eq_ok_iff_isEvenHex,
    ← length_hexPairs]
  constructor
  · intro h
    obtain ⟨_, _, _, ⟨hname, rfl⟩, ⟨hpayload, rfl⟩, hwidths, _⟩ := h
    exact ⟨hname, hpayload, hwidths⟩
  · intro h
    obtain ⟨hname, hpayload, hwidths⟩ := h
    exact ⟨_, _, _, ⟨hname, rfl⟩, ⟨hpayload, rfl⟩, hwidths, rfl⟩

/-- **All width restorations agree.**  However many of its trailing zero bytes a value lost, every
reader finds the 288 bytes again: as a cell, as a value, split, and from the hex of either way to
split it.  The hex fields accepted are those of whole bytes whose widths are allowed. -/
theorem width_restorations_agree {name payload value : Bytes} {removed : ℕ}
    (h : IsTrimmed name payload value removed) :
    decodeMiscValue (.cell [.atom (.bytes 288)] [value]) = .ok (name ++ payload) ∧
      restoreEventValue value = .ok (name ++ payload) ∧
      splitEventValue value = .ok ⟨name, payload⟩ ∧
      (value ≠ [] → ∀ fields : IndexerMiscFields,
        fields.name.map asciiLower = bytesToHex (value.take 32) →
        fields.payload.map asciiLower = bytesToHex (value.drop 32) →
          restoreIndexerMiscEvent fields = .ok ⟨name, payload⟩) ∧
      (∀ fields : IndexerMiscFields, fields.name.map asciiLower = bytesToHex name →
        fields.payload.map asciiLower = bytesToHex payload →
          restoreIndexerMiscEvent fields = .ok ⟨name, payload⟩) ∧
      ∀ fields : IndexerMiscFields, (∃ restored, restoreIndexerMiscEvent fields = .ok restored) ↔
        IsEvenHex fields.name ∧ IsEvenHex fields.payload ∧
          WidthsAllowed (fields.name.length / 2) (fields.payload.length / 2) := by
  have hlength := h.length_add
  have hrestored : restoreEventValue value = .ok (name ++ payload) := by
    rw [restoreEventValue_ok (by omega), h.zeroExtend_eq]
  refine ⟨?_, hrestored, ?_, ?_, ?_, restoreIndexerMiscEvent_accepts_iff⟩
  · have hfits : ¬288 < value.length := by omega
    simp [decodeMiscValue, cellAtom, hfits, h.zeroExtend_eq, pure, Except.pure]
  · rw [splitEventValue, hrestored, ok_bind, nameLength_eq, List.take_left' h.name_length,
      List.drop_left' h.name_length]
    rfl
  · intro hvalue fields hname hpayload
    exact h.restoreIndexerMiscEvent hvalue hname hpayload
  · intro fields hname hpayload
    -- the value of full width is trimmed of nothing
    have hfull : IsTrimmed name payload (name ++ payload) 0 :=
      ⟨h.name_length, h.payload_length, by simp⟩
    have hne : name ++ payload ≠ [] := by
      rw [← List.length_pos_iff, List.length_append, h.name_length]
      omega
    apply hfull.restoreIndexerMiscEvent hne
    · rwa [List.take_left' h.name_length]
    · rwa [List.drop_left' h.name_length]

/-- A payload of one byte, of which all the zero bytes behind it were removed. -/
theorem width_restorations_agree_one_byte :
    let name : Bytes := List.replicate 32 78
    let payload : Bytes := 7 :: List.replicate 255 0
    let value : Bytes := List.replicate 32 78 ++ [7]
    IsTrimmed name payload value 255 ∧ splitEventValue value = .ok ⟨name, payload⟩ ∧
      restoreIndexerMiscEvent ⟨bytesToHex name, js "07"⟩ = .ok ⟨name, payload⟩ := by
  intro name payload value
  have hpayload : payload.length = 256 := by
    rw [List.length_cons, List.length_replicate]
  have htrimmed : IsTrimmed name payload value 255 :=
    ⟨List.length_replicate, hpayload, List.append_cons name 7 (List.replicate 255 0)⟩
  obtain ⟨_, _, hsplit, hfields, _, _⟩ := width_restorations_agree htrimmed
  refine ⟨htrimmed, hsplit, hfields (by simp [value]) _ ?_ (by rfl)⟩
  rw [map_asciiLower_bytesToHex]
  rfl

end MultiPartEvent
