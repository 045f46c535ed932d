import MultiPartEvent.Js.JsonParse

/-!
# Texts in files

A text is written to a file as UTF-8 and read back by `readFileSync(path, "utf8")`, which decodes as
`TextDecoder` does but keeps a byte order mark.  A text without lone surrogates comes back unchanged
(`fileText_textEncode`), and `JSON.stringify` writes no lone surrogates.  Of a file that was cut
short, a prefix of the text comes back, with a replacement character where the cut is inside a
character (`fileText_take`).
-/

namespace MultiPartEvent

/-- `readFileSync(path, "utf8")` of a file with these bytes. -/
def fileText (bytes : Bytes) : JsString := (decodeFrom .initial bytes).flatMap utf16Encode

/-! ### Texts without lone surrogates -/

/-- A text in which every surrogate is part of a pair. -/
inductive Paired : JsString → Prop
  | nil : Paired []
  | unit {u : CodeUnit} {rest : JsString}
      (hu : isHighSurrogate u = false ∧ isLowSurrogate u = false)
      (hrest : Paired rest) : Paired (u :: rest)
  | pair {u v : CodeUnit} {rest : JsString} (hu : isHighSurrogate u = true)
      (hv : isLowSurrogate v = true) (hrest : Paired rest) : Paired (u :: v :: rest)

/-- Texts are joined without making or breaking a pair. -/
lemma Paired.append {text rest : JsString} (h : Paired text) (hrest : Paired rest) :
    Paired (text ++ rest) := by
  induction h with
  | nil => exact hrest
  | unit hu _ ih => exact ih.unit hu
  | pair hu hv _ ih => exact ih.pair hu hv

/-- A text of units that are no surrogates. -/
lemma paired_of_forall {text : JsString}
    (h : ∀ u ∈ text, isHighSurrogate u = false ∧ isLowSurrogate u = false) : Paired text := by
  induction text with
  | nil => exact .nil
  | cons u text ih =>
    obtain ⟨hu, hrest⟩ := List.forall_mem_cons.mp h
    exact (ih hrest).unit hu

/-- A literal has no surrogate. -/
lemma paired_literal {text : JsString}
    (h : text.all (fun u => !isHighSurrogate u && !isLowSurrogate u) = true) : Paired text := by
  refine paired_of_forall fun u hu => ?_
  simpa using List.all_eq_true.mp h u hu

/-- The hex digits are no surrogates. -/
lemma hexUnit_not_surrogate : ∀ n < 16, isHighSurrogate (hexUnit n) = false ∧
    isLowSurrogate (hexUnit n) = false := by decide

/-- The escape of a unit has no surrogate. -/
lemma paired_escapeUnit (u : CodeUnit) : Paired (escapeUnit u) := by
  have hbackslash :
      isHighSurrogate backslashUnit = false ∧ isLowSurrogate backslashUnit = false := by
    decide
  unfold escapeUnit
  cases hletter : escapeLetter? u with
  | some letter =>
    have hplain : isHighSurrogate letter = false ∧ isLowSurrogate letter = false := by
      unfold escapeLetter? at hletter
      split_ifs at hletter <;> cases hletter <;> decide
    exact (Paired.nil.unit hplain).unit hbackslash
  | none =>
    simp only
    split_ifs with hescape
    · refine paired_of_forall ?_
      simp only [unicodeEscape, List.forall_mem_cons, List.not_mem_nil, false_imp_iff, implies_true,
        and_true]
      exact ⟨hbackslash, by decide, hexUnit_not_surrogate _ (by omega),
        hexUnit_not_surrogate _ (by omega), hexUnit_not_surrogate _ (by omega),
        hexUnit_not_surrogate _ (by omega)⟩
    · refine Paired.nil.unit ⟨?_, ?_⟩
      · cases hhigh : isHighSurrogate u with
        | false => rfl
        | true => simp [hhigh] at hescape
      · cases hlow : isLowSurrogate u with
        | false => rfl
        | true => simp [hlow] at hescape

/-- A quoted text has no lone surrogate. -/
lemma paired_quoteBody (s : JsString) : Paired (quoteBody s) := by
  induction s using quoteBody.induct with
  | case1 => exact .nil
  | case2 u => exact paired_escapeUnit u
  | case3 u v rest hpair ih =>
    rw [quoteBody, if_pos hpair]
    rw [Bool.and_eq_true] at hpair
    exact ih.pair hpair.1 hpair.2
  | case4 u v rest hpair ih =>
    rw [quoteBody, if_neg hpair]
    exact (paired_escapeUnit u).append ih

/-- A quoted string has no lone surrogate. -/
lemma paired_quote (s : JsString) : Paired (quote s) :=
  ((paired_quoteBody s).append (paired_literal rfl)).unit (by decide)

/-- Joined texts have no lone surrogate. -/
lemma paired_joinWith {separator : JsString} (hseparator : Paired separator) {texts : List JsString}
    (h : ∀ text ∈ texts, Paired text) : Paired (joinWith separator texts) := by
  induction texts with
  | nil => exact .nil
  | cons text texts ih =>
    obtain ⟨htext, hrest⟩ := List.forall_mem_cons.mp h
    cases texts with
    | nil => exact htext
    | cons next texts => exact (htext.append hseparator).append (ih hrest)

/-- An integer text has no surrogate. -/
lemma paired_integerText (z : ℤ) : Paired (integerText z) := by
  refine paired_of_forall fun u hu => ?_
  rcases mem_integerText hu with hdigit | rfl
  · simp only [isHighSurrogate, isLowSurrogate, Bool.and_eq_false_iff, decide_eq_false_iff_not]
    omega
  · decide

/-- The text of an object has no lone surrogate when those of its values have none. -/
lemma paired_stringify_object {members : List (JsString × Json)}
    (h : ∀ member ∈ members, Paired member.2.stringify) :
    Paired (Json.object members).stringify := by
  have hmember : ∀ text ∈ members.map memberText, Paired text := by
    intro text htext
    obtain ⟨member, hmember, rfl⟩ := List.mem_map.mp htext
    exact ((paired_quote _).append (paired_literal rfl)).append (h member hmember)
  rw [Json.stringify, stringifyMembers_eq_map]
  exact ((paired_literal rfl).append (paired_joinWith (paired_literal rfl) hmember)).append
    (paired_literal rfl)

/-! ### Characters -/

/-- A Unicode scalar value. -/
def IsScalar (c : ℕ) : Prop := c < 0xD800 ∨ 0xDFFF < c ∧ c < 0x110000

/-- The byte of a number. -/
lemma val_byte {n : ℕ} (h : n < 256) : (Fin.ofNat 256 n : Byte).val = n := Nat.mod_eq_of_lt h

/-- The decoder is inside a character, and exactly these bytes complete it. -/
inductive Awaits : DecoderState → Bytes → ℕ → Prop
  | last {s : DecoderState} {b : Byte} {c : ℕ} (needed : s.needed = 1)
      (accepted : s.lower ≤ b.val ∧ b.val ≤ s.upper)
      (completes : s.codePoint * 0x40 + (b.val - 0x80) = c) : Awaits s [b] c
  | next {s : DecoderState} {b : Byte} {bytes : Bytes} {c n : ℕ} (needed : s.needed = n + 2)
      (accepted : s.lower ≤ b.val ∧ b.val ≤ s.upper)
      (more : Awaits ⟨s.codePoint * 0x40 + (b.val - 0x80), n + 1, 0x80, 0xBF⟩ bytes c) :
      Awaits s (b :: bytes) c

/-- The awaited bytes complete the character, whatever follows. -/
lemma Awaits.decodeFrom_append {s : DecoderState} {bytes : Bytes} {c : ℕ} (h : Awaits s bytes c)
    (rest : Bytes) : decodeFrom s (bytes ++ rest) = c :: decodeFrom .initial rest := by
  induction h with
  | last needed accepted completes =>
    rw [List.singleton_append, decodeFrom, decodeByte, if_neg (by omega), if_pos accepted]
    simp only [needed, if_true, completes]
    rfl
  | next needed accepted _ ih =>
    rw [List.cons_append, decodeFrom, decodeByte, if_neg (by omega), if_pos accepted,
      if_neg (by omega)]
    simp only [needed, Nat.reduceSubDiff, List.nil_append]
    exact ih

/-- A character that is cut short is a replacement character. -/
lemma Awaits.decodeFrom_cut {s : DecoderState} {bytes : Bytes} {c : ℕ} (h : Awaits s bytes c)
    {part : Bytes} (hpart : part <+: bytes) (hcut : part ≠ bytes) :
    decodeFrom s part = [replacementCodePoint] := by
  induction h generalizing part with
  | last needed accepted completes =>
    have hnil : part = [] := by
      rcases List.prefix_cons_iff.mp hpart with hnil | ⟨t, rfl, ht⟩
      · exact hnil
      · rw [List.prefix_nil.mp ht] at hcut
        exact absurd rfl hcut
    rw [hnil, decodeFrom, if_neg (by omega)]
  | @next s b bytes c n needed accepted _ ih =>
    rcases List.prefix_cons_iff.mp hpart with rfl | ⟨t, rfl, ht⟩
    · rw [decodeFrom, if_neg (by omega)]
    · have hcut' : t ≠ bytes := by
        rintro rfl
        exact hcut rfl
      rw [decodeFrom, decodeByte, if_neg (by omega), if_pos accepted, if_neg (by omega)]
      simp only [needed, Nat.reduceSubDiff, List.nil_append]
      exact ih ht hcut'

/-- Between two characters a byte is a first byte. -/
lemma decodeByte_initial (b : Byte) : decodeByte .initial b = decodeFirst b := rfl

/-- The bytes of a character: one that stands for itself, or a first byte and the bytes it
awaits. -/
lemma utf8Encode_spec {c : ℕ} (hc : IsScalar c) :
    (∃ b, utf8Encode c = [b] ∧ decodeFirst b = (.initial, [c])) ∨
      ∃ b bytes s, utf8Encode c = b :: bytes ∧ decodeFirst b = (s, []) ∧ Awaits s bytes c := by
  unfold IsScalar at hc
  unfold utf8Encode
  split_ifs with h1 h2 h3
  · refine Or.inl ⟨_, rfl, ?_⟩
    rw [decodeFirst, val_byte (by omega), if_pos (by omega)]
  · refine Or.inr ⟨_, _, ⟨c / 0x40, 1, 0x80, 0xBF⟩, rfl, ?_, ?_⟩
    · rw [decodeFirst, val_byte (by omega), if_neg (by omega), if_pos (by omega)]
      simp
    · refine .last rfl ?_ ?_
      · rw [val_byte (by omega)]
        simp only
        omega
      · rw [val_byte (by omega)]
        simp only
        omega
  · refine Or.inr ⟨_, _, ⟨c / 0x1000, 2, if 0xE0 + c / 0x1000 = 0xE0 then 0xA0 else 0x80,
      if 0xE0 + c / 0x1000 = 0xED then 0x9F else 0xBF⟩, rfl, ?_, ?_⟩
    · rw [decodeFirst, val_byte (by omega), if_neg (by omega), if_neg (by omega), if_pos (by omega)]
      simp
    · have hlast : (Fin.ofNat 256 (0x80 + c % 0x40) : Byte).val = 0x80 + c % 0x40 :=
        val_byte (by omega)
      refine .next rfl ?_ (.last rfl ?_ ?_)
      · rw [val_byte (by omega)]
        simp only
        split_ifs <;> omega
      · rw [hlast]
        simp only
        omega
      · rw [val_byte (by omega), hlast]
        simp only
        omega
  · refine Or.inr ⟨_, _, ⟨c / 0x40000, 3, if 0xF0 + c / 0x40000 = 0xF0 then 0x90 else 0x80,
      if 0xF0 + c / 0x40000 = 0xF4 then 0x8F else 0xBF⟩, rfl, ?_, ?_⟩
    · rw [decodeFirst, val_byte (by omega), if_neg (by omega), if_neg (by omega), if_neg (by omega),
        if_pos (by omega)]
      simp
    · have hthird : (Fin.ofNat 256 (0x80 + c / 0x40 % 0x40) : Byte).val = 0x80 + c / 0x40 % 0x40 :=
        val_byte (by omega)
      have hlast : (Fin.ofNat 256 (0x80 + c % 0x40) : Byte).val = 0x80 + c % 0x40 :=
        val_byte (by omega)
      refine .next rfl ?_ (.next rfl ?_ (.last rfl ?_ ?_))
      · rw [val_byte (by omega)]
        simp only
        split_ifs <;> omega
      · rw [hthird]
        simp only
        omega
      · rw [hlast]
        simp only
        omega
      · rw [val_byte (by omega), hthird, hlast]
        simp only
        omega

/-- **A character is decoded from its bytes**, whatever follows. -/
lemma decodeFrom_utf8Encode {c : ℕ} (hc : IsScalar c) (rest : Bytes) :
    decodeFrom .initial (utf8Encode c ++ rest) = c :: decodeFrom .initial rest := by
  rcases utf8Encode_spec hc with ⟨b, hbytes, hfirst⟩ | ⟨b, bytes, s, hbytes, hfirst, hawaits⟩
  · rw [hbytes, List.singleton_append, decodeFrom, decodeByte_initial, hfirst]
    rfl
  · rw [hbytes, List.cons_append, decodeFrom, decodeByte_initial, hfirst]
    exact hawaits.decodeFrom_append rest

/-- A character that is cut short is decoded as a replacement character. -/
lemma decodeFrom_cut {c : ℕ} (hc : IsScalar c) {part : Bytes} (hpart : part <+: utf8Encode c)
    (hne : part ≠ []) (hcut : part ≠ utf8Encode c) :
    decodeFrom .initial part = [replacementCodePoint] := by
  rcases utf8Encode_spec hc with ⟨b, hbytes, hfirst⟩ | ⟨b, bytes, s, hbytes, hfirst, hawaits⟩
  · rw [hbytes] at hpart hcut
    rcases List.prefix_cons_iff.mp hpart with hnil | ⟨t, rfl, ht⟩
    · exact absurd hnil hne
    · rw [List.prefix_nil.mp ht] at hcut
      exact absurd rfl hcut
  · rw [hbytes] at hpart hcut
    rcases List.prefix_cons_iff.mp hpart with hnil | ⟨t, rfl, ht⟩
    · exact absurd hnil hne
    · have hcut' : t ≠ bytes := by
        rintro rfl
        exact hcut rfl
      rw [decodeFrom, decodeByte_initial, hfirst]
      exact hawaits.decodeFrom_cut ht hcut'

/-! ### Texts -/

/-- The scalar values of a text. -/
lemma isScalar_of_mem_scalarValues {text : JsString} {c : ℕ} (h : c ∈ scalarValues text) :
    IsScalar c := by
  have hlone : ∀ u : CodeUnit, IsScalar (loneScalar u) := by
    intro u
    unfold loneScalar
    split_ifs with hsurrogate
    · refine Or.inr ⟨?_, ?_⟩ <;> norm_num [replacementCodePoint]
    · unfold IsScalar
      simp only [isHighSurrogate, isLowSurrogate, Bool.or_eq_true, Bool.and_eq_true,
        decide_eq_true_eq] at hsurrogate
      have hu := u.isLt
      omega
  induction text using scalarValues.induct with
  | case1 => cases h
  | case2 u =>
    rw [scalarValues, List.mem_singleton] at h
    exact h ▸ hlone u
  | case3 u v rest hpair ih =>
    rw [scalarValues, if_pos hpair, List.mem_cons] at h
    rcases h with hc | h
    · simp only [isHighSurrogate, isLowSurrogate, Bool.and_eq_true, decide_eq_true_eq] at hpair
      unfold IsScalar
      omega
    · exact ih h
  | case4 u v rest hpair ih =>
    rw [scalarValues, if_neg hpair] at h
    rcases List.mem_cons.mp h with rfl | h
    · exact hlone u
    · exact ih h

/-- A unit that is no surrogate is a character. -/
lemma scalarValues_unit {u : CodeUnit} (hu : isHighSurrogate u = false ∧ isLowSurrogate u = false)
    (rest : JsString) : scalarValues (u :: rest) = u.val :: scalarValues rest := by
  have hlone : loneScalar u = u.val := by simp [loneScalar, hu]
  cases rest with
  | nil => simp only [scalarValues, hlone]
  | cons v rest => rw [scalarValues, if_neg (by simp [hu]), hlone]

/-- A pair of surrogates is a character. -/
lemma scalarValues_pair {u v : CodeUnit} (hu : isHighSurrogate u = true)
    (hv : isLowSurrogate v = true) (rest : JsString) : scalarValues (u :: v :: rest) =
      (0x10000 + (u.val - 0xD800) * 0x400 + (v.val - 0xDC00)) :: scalarValues rest := by
  rw [scalarValues, if_pos (by simp [hu, hv])]

/-- Texts are encoded one after the other. -/
lemma textEncode_append {text : JsString} (h : Paired text) (rest : JsString) :
    textEncode (text ++ rest) = textEncode text ++ textEncode rest := by
  have hvalues : scalarValues (text ++ rest) = scalarValues text ++ scalarValues rest := by
    induction h with
    | nil => simp [scalarValues]
    | unit hu _ ih =>
      rw [List.cons_append, scalarValues_unit hu, scalarValues_unit hu, ih, List.cons_append]
    | pair hu hv _ ih =>
      rw [List.cons_append, List.cons_append, scalarValues_pair hu hv, scalarValues_pair hu hv, ih,
        List.cons_append]
  rw [textEncode, hvalues, List.flatMap_append]
  rfl

/-- A text without lone surrogates is put together again from its characters. -/
lemma flatMap_utf16Encode {text : JsString} (h : Paired text) :
    (scalarValues text).flatMap utf16Encode = text := by
  induction h with
  | nil => rfl
  | @unit u rest hu _ ih =>
    have hunit : utf16Encode u.val = [u] := by
      rw [utf16Encode, if_pos u.isLt]
      exact congrArg (fun w => [w]) (Fin.ext (Nat.mod_eq_of_lt u.isLt))
    rw [scalarValues_unit hu, List.flatMap_cons, hunit, ih]
    rfl
  | @pair u v rest hu hv _ ih =>
    have hpair : utf16Encode (0x10000 + (u.val - 0xD800) * 0x400 + (v.val - 0xDC00)) = [u, v] := by
      simp only [isHighSurrogate, isLowSurrogate, Bool.and_eq_true, decide_eq_true_eq] at hu hv
      rw [utf16Encode, if_neg (by omega)]
      have hfirst :
          0xD800 + (0x10000 + (u.val - 0xD800) * 0x400 + (v.val - 0xDC00) - 0x10000) / 0x400 =
          u.val := by omega
      have hsecond :
          0xDC00 + (0x10000 + (u.val - 0xD800) * 0x400 + (v.val - 0xDC00) - 0x10000) % 0x400 =
          v.val := by omega
      have hu' : Fin.ofNat 65536 u.val = u := Fin.ext (Nat.mod_eq_of_lt u.isLt)
      have hv' : Fin.ofNat 65536 v.val = v := Fin.ext (Nat.mod_eq_of_lt v.isLt)
      rw [hfirst, hsecond, hu', hv']
    rw [scalarValues_pair hu hv, List.flatMap_cons, hpair, ih]
    rfl

/-- A character is one code unit, or a pair of surrogates. -/
lemma utf16Encode_cases {c : ℕ} (hc : IsScalar c) :
    (∃ u, utf16Encode c = [u] ∧ u.val = c ∧ isHighSurrogate u = false ∧ isLowSurrogate u = false) ∨
    ∃ u v, utf16Encode c = [u, v] ∧ isHighSurrogate u = true ∧ isLowSurrogate v = true ∧
      0x10000 + (u.val - 0xD800) * 0x400 + (v.val - 0xDC00) = c := by
  unfold IsScalar at hc
  unfold utf16Encode
  split_ifs with hsmall
  · have hval : (Fin.ofNat 65536 c : CodeUnit).val = c := Nat.mod_eq_of_lt hsmall
    refine Or.inl ⟨_, rfl, hval, ?_⟩
    simp only [isHighSurrogate, isLowSurrogate, hval, Bool.and_eq_false_iff,
      decide_eq_false_iff_not]
    omega
  · have hfirst : (Fin.ofNat 65536 (0xD800 + (c - 0x10000) / 0x400) : CodeUnit).val =
        0xD800 + (c - 0x10000) / 0x400 := Nat.mod_eq_of_lt (by omega)
    have hsecond : (Fin.ofNat 65536 (0xDC00 + (c - 0x10000) % 0x400) : CodeUnit).val =
        0xDC00 + (c - 0x10000) % 0x400 := Nat.mod_eq_of_lt (by omega)
    refine Or.inr ⟨_, _, rfl, ?_, ?_, ?_⟩
    · simp only [isHighSurrogate, hfirst, Bool.and_eq_true, decide_eq_true_eq]
      omega
    · simp only [isLowSurrogate, hsecond, Bool.and_eq_true, decide_eq_true_eq]
      omega
    · rw [hfirst, hsecond]
      omega

/-- Characters are recovered from their code units. -/
lemma scalarValues_flatMap_utf16Encode {cs : List ℕ} (h : ∀ c ∈ cs, IsScalar c) :
    scalarValues (cs.flatMap utf16Encode) = cs := by
  induction cs with
  | nil => rfl
  | cons c cs ih =>
    obtain ⟨hc, hrest⟩ := List.forall_mem_cons.mp h
    rw [List.flatMap_cons]
    rcases utf16Encode_cases hc with ⟨u, hunit, hval, hplain⟩ | ⟨u, v, hpair, hhigh, hlow, hval⟩
    · rw [hunit, List.singleton_append, scalarValues_unit hplain, hval, ih hrest]
    · rw [hpair, List.cons_append, List.singleton_append, scalarValues_pair hhigh hlow, hval,
        ih hrest]

/-- The bytes of characters are decoded one by one, whatever follows. -/
lemma decodeFrom_flatMap_append {cs : List ℕ} (h : ∀ c ∈ cs, IsScalar c) (rest : Bytes) :
    decodeFrom .initial (cs.flatMap utf8Encode ++ rest) = cs ++ decodeFrom .initial rest := by
  induction cs with
  | nil => rfl
  | cons c cs ih =>
    obtain ⟨hc, hrest⟩ := List.forall_mem_cons.mp h
    rw [List.flatMap_cons, List.append_assoc, decodeFrom_utf8Encode hc, ih hrest, List.cons_append]

/-- The bytes of characters are decoded as the characters. -/
lemma decodeFrom_flatMap {cs : List ℕ} (h : ∀ c ∈ cs, IsScalar c) :
    decodeFrom .initial (cs.flatMap utf8Encode) = cs := by
  have hread := decodeFrom_flatMap_append h []
  rwa [List.append_nil, show decodeFrom .initial [] = [] from rfl, List.append_nil] at hread

/-- **A text without lone surrogates is read back** from its file. -/
theorem fileText_textEncode {text : JsString} (h : Paired text) :
    fileText (textEncode text) = text := by
  rw [fileText, textEncode, decodeFrom_flatMap fun c hc => isScalar_of_mem_scalarValues hc,
    flatMap_utf16Encode h]

/-- The first bytes of characters are decoded as the characters they complete, and a replacement
character for one they leave incomplete. -/
lemma decodeFrom_take {cs : List ℕ} (h : ∀ c ∈ cs, IsScalar c) (n : ℕ) :
    ∃ front back, cs = front ++ back ∧
      (decodeFrom .initial ((cs.flatMap utf8Encode).take n) = front ∧
          (cs.flatMap utf8Encode).drop n = back.flatMap utf8Encode ∨
        decodeFrom .initial ((cs.flatMap utf8Encode).take n) = front ++
          [replacementCodePoint]) := by
  induction cs generalizing n with
  | nil => exact ⟨[], [], rfl, Or.inl ⟨by simp [decodeFrom, DecoderState.initial], by simp⟩⟩
  | cons c cs ih =>
    obtain ⟨hc, hrest⟩ := List.forall_mem_cons.mp h
    rw [List.flatMap_cons]
    by_cases hwhole : (utf8Encode c).length ≤ n
    · obtain ⟨front, back, rfl, hdecode⟩ := ih hrest (n - (utf8Encode c).length)
      refine ⟨c :: front, back, rfl, ?_⟩
      rw [List.take_append, List.take_of_length_le hwhole, List.drop_append,
        List.drop_of_length_le hwhole, decodeFrom_utf8Encode hc, List.nil_append]
      rcases hdecode with ⟨hfront, hback⟩ | hfront
      · exact Or.inl ⟨congrArg (c :: ·) hfront, hback⟩
      · exact Or.inr (congrArg (c :: ·) hfront)
    · refine ⟨[], c :: cs, rfl, ?_⟩
      rw [List.take_append_of_le_length (by omega)]
      rcases n with _ | n
      · exact Or.inl ⟨by simp [decodeFrom, DecoderState.initial], by simp⟩
      · refine Or.inr (decodeFrom_cut hc (List.take_prefix _ _) ?_ ?_)
        · intro hnil
          have hlength := congrArg List.length hnil
          rw [List.length_take, List.length_nil] at hlength
          omega
        · intro hall
          have hlength := congrArg List.length hall
          rw [List.length_take] at hlength
          omega

/-- **Of a file that was cut short** a prefix of the text is read, and a replacement character if
the cut is inside a character. -/
theorem fileText_take {text : JsString} (h : Paired text) (n : ℕ) :
    ∃ front back, text = front ++ back ∧
      (fileText ((textEncode text).take n) = front ∧ (textEncode text).drop n = textEncode back ∨
        fileText ((textEncode text).take n) = front ++ [Fin.ofNat 65536 replacementCodePoint]) := by
  have hscalar : ∀ c ∈ scalarValues text, IsScalar c := fun c hc => isScalar_of_mem_scalarValues hc
  obtain ⟨front, back, hsplit, hdecode⟩ := decodeFrom_take hscalar n
  have hback : ∀ c ∈ back, IsScalar c := fun c hc =>
    hscalar c (hsplit ▸ List.mem_append_right front hc)
  refine ⟨front.flatMap utf16Encode, back.flatMap utf16Encode, ?_, ?_⟩
  · rw [← List.flatMap_append, ← hsplit, flatMap_utf16Encode h]
  · rcases hdecode with ⟨hfront, hrest⟩ | hfront
    · refine Or.inl ⟨congrArg (List.flatMap utf16Encode) hfront, ?_⟩
      rw [textEncode, textEncode, scalarValues_flatMap_utf16Encode hback]
      exact hrest
    · refine Or.inr ?_
      rw [fileText, textEncode, hfront, List.flatMap_append]
      rfl

end MultiPartEvent
