import MultiPartEvent.Js.StrictUtf8

/-!
# Malformed sequences

What the replacing decoder reads, without the decoder: bytes fall into encodings of scalar values
and malformed sequences, and each malformed sequence stands for one U+FFFD.  A malformed sequence is
a byte that begins no character, or a character that is cut short: the beginning of one which the
next byte does not continue.

Bytes fall apart in one way only, and the decoder follows it (`decodeFrom_eq_iff_standFor`).  So the
texts that bytes can be confused with are told by their encodings alone (`textDecode_eq_iff_iff`).
-/

namespace MultiPartEvent

/-- The bytes begin the encoding of a scalar value. -/
def BeginsCharacter (bytes : Bytes) : Prop := ∃ c, IsScalar c ∧ bytes <+: utf8Encode c

/-- The bytes are a malformed sequence before the rest. -/
inductive IsMalformed : Bytes → Bytes → Prop where
  /-- A byte that begins no character. -/
  | byte {b : Byte} {rest : Bytes} (begins : ¬BeginsCharacter [b]) : IsMalformed [b] rest
  /-- The beginning of a character, without its end, which the next byte does not continue. -/
  | cut {piece rest : Bytes} (nonempty : piece ≠ []) (begins : BeginsCharacter piece)
      (incomplete : ∀ c, IsScalar c → piece ≠ utf8Encode c)
      (stops : ∀ b ∈ rest.head?, ¬BeginsCharacter (piece ++ [b])) : IsMalformed piece rest

/-- The bytes stand for the code points: each is encoded, or is U+FFFD in the place of a malformed
sequence. -/
inductive StandFor : Bytes → List ℕ → Prop where
  | nil : StandFor [] []
  | character {c : ℕ} {rest : Bytes} {cs : List ℕ} (scalar : IsScalar c)
      (more : StandFor rest cs) : StandFor (utf8Encode c ++ rest) (c :: cs)
  | malformed {piece rest : Bytes} {cs : List ℕ} (piece_malformed : IsMalformed piece rest)
      (more : StandFor rest cs) : StandFor (piece ++ rest) (replacementCodePoint :: cs)

/-! ### Inside a character -/

section Inside

variable {s : DecoderState} {b : Byte} {c : ℕ}

/-- A character can be completed after every byte it accepts. -/
lemma exists_awaits (hneeded : s.needed ≠ 0) (haccepted : s.lower ≤ b.val ∧ b.val ≤ s.upper) :
    ∃ bytes c, Awaits s (b :: bytes) c := by
  obtain ⟨n, hn⟩ := Nat.exists_eq_succ_of_ne_zero hneeded
  induction n generalizing s b with
  | zero => exact ⟨[], _, .last hn haccepted rfl⟩
  | succ n ih =>
    obtain ⟨bytes, c, hawaits⟩ := @ih ⟨s.codePoint * 0x40 + (b.val - 0x80), n + 1, 0x80, 0xBF⟩
      0x80 (Nat.succ_ne_zero n) ⟨le_refl _, (by decide : (0x80 : ℕ) ≤ 0xBF)⟩ rfl
    exact ⟨0x80 :: bytes, c, .next hn haccepted hawaits⟩

/-- After a first part of the bytes a character awaits, it awaits the rest. -/
lemma Awaits.split {front tail : Bytes} (h : Awaits s (front ++ b :: tail) c) :
    ∃ t : DecoderState, t.needed ≠ 0 ∧ Awaits t (b :: tail) c ∧
      (∀ rest, decodeFrom s (front ++ rest) = decodeFrom t rest) ∧
      ∀ bytes d, Awaits t bytes d → Awaits s (front ++ bytes) d := by
  induction front generalizing s with
  | nil =>
    have hneeded : s.needed ≠ 0 := by
      cases h with
      | last needed _ _ => omega
      | next needed _ _ => omega
    exact ⟨s, hneeded, h, fun _ => rfl, fun _ _ h => h⟩
  | cons a front ih =>
    rw [List.cons_append] at h
    generalize hbytes : front ++ b :: tail = bytes at h
    cases h with
    | last needed accepted completes => exact absurd hbytes (by simp)
    | @next _ _ _ _ n needed accepted more =>
      subst hbytes
      obtain ⟨t, hneeded, hawaits, hdecode, hback⟩ := ih more
      refine ⟨t, hneeded, hawaits, fun rest => ?_, fun bytes d hd => ?_⟩
      · rw [List.cons_append, decodeFrom, decodeByte, if_neg (by omega), if_pos accepted,
          if_neg (by omega), ← hdecode rest]
        simp [needed]
      · exact .next needed accepted (hback bytes d hd)

end Inside

/-- Inside a character some byte is accepted next. -/
lemma bounds_of_decodeFirst {s : DecoderState} {b : Byte} (h : decodeFirst b = (s, [])) :
    s.lower ≤ s.upper ∧ s.upper ≤ 0xBF := by
  by_cases hone : b.val ≤ 0x7F
  · rw [decodeFirst, if_pos hone] at h
    cases h
  by_cases htwo : 0xC2 ≤ b.val ∧ b.val ≤ 0xDF
  · rw [decodeFirst, if_neg hone, if_pos htwo] at h
    obtain rfl := (Prod.mk.inj h).1
    exact ⟨(by decide : (0x80 : ℕ) ≤ 0xBF), le_refl _⟩
  by_cases hthree : 0xE0 ≤ b.val ∧ b.val ≤ 0xEF
  · rw [decodeFirst, if_neg hone, if_neg htwo, if_pos hthree] at h
    obtain rfl := (Prod.mk.inj h).1
    dsimp only
    split_ifs <;> omega
  by_cases hfour : 0xF0 ≤ b.val ∧ b.val ≤ 0xF4
  · rw [decodeFirst, if_neg hone, if_neg htwo, if_neg hthree, if_pos hfour] at h
    obtain rfl := (Prod.mk.inj h).1
    dsimp only
    split_ifs <;> omega
  · rw [decodeFirst, if_neg hone, if_neg htwo, if_neg hthree, if_neg hfour] at h
    cases h

/-- A byte that begins no character is an error as a first byte. -/
lemma firstFails_of_not_begins {b : Byte} (h : ¬BeginsCharacter [b]) : firstFails b = true := by
  by_contra hfine
  rw [Bool.not_eq_true] at hfine
  apply h
  rcases decodeFirst_cases hfine with ⟨hone, -⟩ | ⟨s, hneeded, hfirst⟩
  · refine ⟨b.val, Or.inl (by omega), ?_⟩
    rw [utf8Encode, if_pos (by omega), ofNat_eq_of_val rfl]
  · obtain ⟨hlower, hupper⟩ := bounds_of_decodeFirst hfirst
    have haccepted : s.lower ≤ (⟨s.lower, by omega⟩ : Byte).val ∧
        (⟨s.lower, by omega⟩ : Byte).val ≤ s.upper := ⟨le_refl _, hlower⟩
    obtain ⟨bytes, c, hawaits⟩ := exists_awaits hneeded haccepted
    obtain ⟨hscalar, hencode⟩ := utf8Encode_of_awaits hfirst hawaits
    refine ⟨c, hscalar, ?_⟩
    rw [hencode]
    exact List.prefix_append [b] _

/-! ### What the decoder reads -/

/-- A malformed sequence is read as U+FFFD, and the decoder is between characters after it. -/
lemma decodeFrom_malformed {piece rest : Bytes} (h : IsMalformed piece rest) :
    decodeFrom .initial (piece ++ rest) = replacementCodePoint :: decodeFrom .initial rest := by
  cases h with
  | @byte b _ begins =>
    rw [List.singleton_append, decodeFrom, decodeByte_initial,
      decodeFirst_of_fails (firstFails_of_not_begins begins)]
    rfl
  | cut nonempty begins incomplete stops =>
    obtain ⟨c, hscalar, tail, hencode⟩ := begins
    obtain ⟨a, tail, rfl⟩ : ∃ a tail', tail = a :: tail' := by
      refine List.exists_cons_of_ne_nil ?_
      rintro rfl
      exact incomplete c hscalar (by rw [← hencode, List.append_nil])
    obtain ⟨first, front, rfl⟩ := List.exists_cons_of_ne_nil nonempty
    rcases utf8Encode_spec hscalar with ⟨b, hbytes, -⟩ | ⟨b, bytes, s, hbytes, hfirst, hawaits⟩
    · rw [hbytes] at hencode
      simp at hencode
    rw [hbytes, List.cons_append, List.cons.injEq] at hencode
    obtain ⟨rfl, rfl⟩ := hencode
    obtain ⟨t, hneeded, -, hdecode, hback⟩ := hawaits.split
    have hread : decodeFrom .initial ((first :: front) ++ rest) = decodeFrom t rest := by
      rw [List.cons_append, decodeFrom, decodeByte_initial, hfirst, hdecode, List.nil_append]
    rw [hread]
    cases rest with
    | nil =>
      rw [decodeFrom, if_neg hneeded]
      rfl
    | cons x rest =>
      have hrefused : ¬(t.lower ≤ x.val ∧ x.val ≤ t.upper) := by
        intro haccepted
        obtain ⟨bytes, d, hd⟩ := exists_awaits hneeded haccepted
        obtain ⟨hscalar', hencode'⟩ := utf8Encode_of_awaits hfirst (hback _ _ hd)
        refine stops x rfl ⟨d, hscalar', ?_⟩
        rw [hencode']
        exact ⟨bytes, by simp⟩
      rw [decodeFrom, decodeByte, if_neg hneeded, if_neg hrefused, decodeFrom, decodeByte_initial]
      rfl

/-- The decoder reads what the bytes stand for. -/
lemma StandFor.decodeFrom_eq {bytes : Bytes} {cs : List ℕ} (h : StandFor bytes cs) :
    decodeFrom .initial bytes = cs := by
  induction h with
  | nil => rfl
  | character scalar _ ih => rw [decodeFrom_utf8Encode scalar, ih]
  | malformed piece_malformed _ ih => rw [decodeFrom_malformed piece_malformed, ih]

/-- The beginning of a character is continued to its end, or to where it is cut short. -/
lemma exists_piece {front rest : Bytes} (hfront : front ≠ []) (hbegins : BeginsCharacter front) :
    ∃ piece rest', piece ≠ [] ∧ front ++ rest = piece ++ rest' ∧
      ((∃ c, IsScalar c ∧ piece = utf8Encode c) ∨ IsMalformed piece rest') := by
  induction rest generalizing front with
  | nil =>
    by_cases hcomplete : ∃ c, IsScalar c ∧ front = utf8Encode c
    · exact ⟨front, [], hfront, rfl, Or.inl hcomplete⟩
    · push Not at hcomplete
      exact ⟨front, [], hfront, rfl, Or.inr (.cut hfront hbegins hcomplete nofun)⟩
  | cons b rest ih =>
    by_cases hcomplete : ∃ c, IsScalar c ∧ front = utf8Encode c
    · exact ⟨front, b :: rest, hfront, rfl, Or.inl hcomplete⟩
    · by_cases hnext : BeginsCharacter (front ++ [b])
      · obtain ⟨piece, rest', hpiece, hbytes, hkind⟩ := ih (by simp) hnext
        exact ⟨piece, rest', hpiece, by rw [← hbytes]; simp, hkind⟩
      · push Not at hcomplete
        refine ⟨front, b :: rest, hfront, rfl, Or.inr (.cut hfront hbegins hcomplete ?_)⟩
        intro x hx
        cases hx
        exact hnext

/-- All bytes stand for some code points. -/
lemma exists_standFor (bytes : Bytes) : ∃ cs, StandFor bytes cs := by
  induction hlength : bytes.length using Nat.strong_induction_on generalizing bytes with
  | h n ih =>
    cases bytes with
    | nil => exact ⟨[], .nil⟩
    | cons b rest =>
      obtain ⟨piece, rest', hpiece, hbytes, hkind⟩ : ∃ piece rest', piece ≠ [] ∧
          b :: rest = piece ++ rest' ∧
            ((∃ c, IsScalar c ∧ piece = utf8Encode c) ∨ IsMalformed piece rest') := by
        by_cases hbegins : BeginsCharacter [b]
        · exact exists_piece (List.cons_ne_nil b []) hbegins
        · exact ⟨[b], rest, List.cons_ne_nil b [], rfl, Or.inr (.byte hbegins)⟩
      have hshorter : rest'.length < n := by
        have hpos := List.length_pos_iff.mpr hpiece
        rw [← hlength, hbytes, List.length_append]
        omega
      obtain ⟨cs, hcs⟩ := ih rest'.length hshorter rest' rfl
      rw [hbytes]
      rcases hkind with ⟨c, hscalar, rfl⟩ | hmalformed
      · exact ⟨c :: cs, .character hscalar hcs⟩
      · exact ⟨replacementCodePoint :: cs, .malformed hmalformed hcs⟩

/-- **What the replacing decoder reads**: the code points the bytes stand for. -/
theorem decodeFrom_eq_iff_standFor {bytes : Bytes} {cs : List ℕ} :
    decodeFrom .initial bytes = cs ↔ StandFor bytes cs := by
  refine ⟨fun h => ?_, StandFor.decodeFrom_eq⟩
  obtain ⟨cs', hcs'⟩ := exists_standFor bytes
  rwa [← h, hcs'.decodeFrom_eq]

example : StandFor [0x65, 0xE2, 0x82, 0xFF] [0x65, 0xFFFD, 0xFFFD] :=
  decodeFrom_eq_iff_standFor.mp (by decide)

/-- Bytes stand for a first U+FEFF when they begin with the byte order mark. -/
lemma StandFor.head?_eq_iff {bytes : Bytes} {cs : List ℕ} (h : StandFor bytes cs) :
    cs.head? = some 0xFEFF ↔ byteOrderMark <+: bytes := by
  constructor
  · intro hhead
    cases h with
    | nil => cases hhead
    | character scalar _ =>
      rw [List.head?_cons, Option.some.injEq] at hhead
      rw [hhead, utf8Encode_byteOrderMark]
      exact List.prefix_append _ _
    | malformed _ _ => exact absurd (Option.some.inj hhead) (by decide)
  · intro hmark
    obtain ⟨rest, rfl⟩ := hmark
    rw [← h.decodeFrom_eq, ← utf8Encode_byteOrderMark, decodeFrom_utf8Encode isScalar_byteOrderMark]
    rfl

/-! ### Exact reading -/

/-- The bytes behind a byte order mark, if they begin with one. -/
def withoutMark (bytes : Bytes) : Bytes :=
  if byteOrderMark <+: bytes then bytes.drop byteOrderMark.length else bytes

/-- **Which text bytes are read as**: the one they stand for, without a byte order mark. -/
lemma textDecode_eq_iff {bytes : Bytes} {text : JsString} (htext : Paired text) :
    textDecode bytes = text ↔ StandFor (withoutMark bytes) (scalarValues text) := by
  obtain ⟨cs, hcs⟩ := exists_standFor bytes
  have hscalars : ∀ c ∈ cs, IsScalar c := by
    have hsound : DecoderState.initial.Sound := fun h => absurd rfl h
    intro c hc
    rw [← hcs.decodeFrom_eq] at hc
    exact isScalar_of_mem_decodeFrom hsound hc
  have hdropped : dropByteOrderMark cs = decodeFrom .initial (withoutMark bytes) := by
    unfold withoutMark
    split_ifs with hmark
    · obtain ⟨rest, rfl⟩ := hmark
      rw [List.drop_left, ← hcs.decodeFrom_eq, ← utf8Encode_byteOrderMark,
        decodeFrom_utf8Encode isScalar_byteOrderMark]
      rfl
    · rw [dropByteOrderMark_of_head? (hcs.head?_eq_iff.not.mpr hmark), hcs.decodeFrom_eq]
  have hkept : ∀ c ∈ dropByteOrderMark cs, IsScalar c := fun c hc =>
    hscalars c (mem_of_mem_dropByteOrderMark hc)
  rw [textDecode, hcs.decodeFrom_eq, ← decodeFrom_eq_iff_standFor, ← hdropped]
  constructor
  · intro h
    rw [← h, scalarValues_flatMap_utf16Encode hkept]
  · intro h
    rw [h, flatMap_utf16Encode htext]

/-- The encoding of a text stands for its values. -/
lemma standFor_textEncode (text : JsString) : StandFor (textEncode text) (scalarValues text) :=
  decodeFrom_eq_iff_standFor.mp (decodeFrom_flatMap fun _ hc => isScalar_of_mem_scalarValues hc)

/-- The bytes are not confused with the encoding of the text. -/
structure ReadApart (bytes : Bytes) (text : JsString) : Prop where
  /-- Without a byte order mark, they are not its encoding with malformed sequences in the place of
  some U+FFFD. -/
  unmarked : ¬byteOrderMark <+: bytes → StandFor bytes (scalarValues text) →
    bytes = textEncode text
  /-- With one, they do not encode the text, nor stands what follows the mark for it. -/
  marked : ∀ rest, bytes = byteOrderMark ++ rest →
    bytes ≠ textEncode text ∧ ¬StandFor rest (scalarValues text)

/-- **When reading bytes as a text is exact.**  The replacing decoder reads bytes as a text just in
case they encode it, unless they are confused with its encoding. -/
theorem textDecode_eq_iff_iff (bytes : Bytes) {text : JsString} (htext : Paired text) :
    (textDecode bytes = text ↔ bytes = textEncode text) ↔ ReadApart bytes text := by
  rw [textDecode_eq_iff htext, withoutMark]
  split_ifs with hmark
  · obtain ⟨rest, rfl⟩ := hmark
    rw [List.drop_left]
    -- with the mark, bytes that encode the text stand for one value more
    have hnotBoth : ¬(StandFor rest (scalarValues text) ∧
        byteOrderMark ++ rest = textEncode text) := by
      rintro ⟨hstand, hencode⟩
      have hread := (standFor_textEncode text).decodeFrom_eq
      rw [← hencode, ← utf8Encode_byteOrderMark, decodeFrom_utf8Encode isScalar_byteOrderMark,
        hstand.decodeFrom_eq] at hread
      exact List.cons_ne_self _ _ hread
    constructor
    · intro hexact
      refine ⟨fun hunmarked => absurd (List.prefix_append _ _) hunmarked, fun rest' hrest => ?_⟩
      obtain rfl := List.append_cancel_left hrest
      exact ⟨fun hencode => hnotBoth ⟨hexact.mpr hencode, hencode⟩,
        fun hstand => hnotBoth ⟨hstand, hexact.mp hstand⟩⟩
    · intro h
      obtain ⟨hencode, hstand⟩ := h.marked rest rfl
      exact iff_of_false hstand hencode
  · constructor
    · intro hexact
      refine ⟨fun _ => hexact.mp, fun rest hrest => ?_⟩
      exact absurd (hrest ▸ List.prefix_append _ _) hmark
    · intro h
      refine ⟨h.unmarked hmark, ?_⟩
      rintro rfl
      exact standFor_textEncode text

/-- Bytes that are no UTF-8 are all kept apart from just the texts without U+FFFD. -/
lemma forall_readApart_iff {text : JsString} (htext : Paired text) :
    (∀ bytes, ¬IsUtf8 bytes → ReadApart bytes text) ↔ replacementUnit ∉ text := by
  rw [← exists_textDecode_iff htext, not_exists]
  refine forall_congr' fun bytes => ?_
  rw [not_and, ← textDecode_eq_iff_iff bytes htext]
  refine imp_congr_right fun hmalformed => ?_
  have hbytes : bytes ≠ textEncode text := by
    rintro rfl
    exact hmalformed ⟨scalarValues text, rfl, fun _ hc => isScalar_of_mem_scalarValues hc⟩
  exact iff_false_right hbytes

end MultiPartEvent
