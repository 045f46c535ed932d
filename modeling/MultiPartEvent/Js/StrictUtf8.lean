import MultiPartEvent.Js.FileText

/-!
# Strict UTF-8

The decoder of `Js/Utf8.lean` in the error mode "fatal": an unexpected byte or a cut character ends
the decoding.  What it accepts are exactly the encodings of scalar values
(`decodeStrict_eq_some_iff`); what it refuses the replacing decoder reads with a U+FFFD.

The decoder inside a character has read the first bytes of it, and whatever bytes complete the
character make up its encoding (`utf8Encode_of_awaits`).  That is the whole argument: a run of the
strict decoder falls into characters, each read from its own encoding.
-/

namespace MultiPartEvent

/-- The byte starts no character. -/
def firstFails (b : Byte) : Bool :=
  !(b.val ≤ 0x7F || (0xC2 ≤ b.val && b.val ≤ 0xDF) || (0xE0 ≤ b.val && b.val ≤ 0xEF) ||
    (0xF0 ≤ b.val && b.val ≤ 0xF4))

/-- The byte is an error of the decoder in this state. -/
def byteFails (s : DecoderState) (b : Byte) : Bool :=
  if s.needed = 0 then firstFails b else !(s.lower ≤ b.val && b.val ≤ s.upper)

/-- The code points of a byte sequence from a decoder state, unless it has an error. -/
def decodeStrict (s : DecoderState) : Bytes → Option (List ℕ)
  | [] => if s.needed = 0 then some [] else none
  | b :: rest =>
    if byteFails s b = true then none
    else (decodeStrict (decodeByte s b).1 rest).map fun cs => (decodeByte s b).2 ++ cs

/-- `new TextDecoder("utf-8", { fatal: true }).decode(bytes)`, unless it throws. -/
def textDecodeFatal (bytes : Bytes) : Option JsString :=
  (decodeStrict .initial bytes).map fun cs => (dropByteOrderMark cs).flatMap utf16Encode

/-! ### The two error modes -/

/-- A byte that starts no character is replaced. -/
lemma decodeFirst_of_fails {b : Byte} (h : firstFails b = true) :
    decodeFirst b = (.initial, [replacementCodePoint]) := by
  simp only [firstFails, Bool.not_eq_true', Bool.or_eq_false_iff, Bool.and_eq_false_iff,
    decide_eq_false_iff_not] at h
  unfold decodeFirst
  rw [if_neg (by omega), if_neg (by omega), if_neg (by omega), if_neg (by omega)]

/-- An error emits a replacement character. -/
lemma mem_decodeByte_of_fails {s : DecoderState} {b : Byte} (h : byteFails s b = true) :
    replacementCodePoint ∈ (decodeByte s b).2 := by
  unfold byteFails at h
  unfold decodeByte
  split_ifs at h ⊢ with hneeded hrange
  · rw [decodeFirst_of_fails h]
    exact List.mem_singleton_self _
  · simp [hrange] at h
  · simp [hrange] at h
  · exact List.mem_cons_self

/-- What the strict mode refuses the other mode reads with a replacement character. -/
lemma mem_decodeFrom_of_decodeStrict {s : DecoderState} {bytes : Bytes}
    (h : decodeStrict s bytes = none) : replacementCodePoint ∈ decodeFrom s bytes := by
  induction bytes generalizing s with
  | nil =>
    unfold decodeStrict at h
    split_ifs at h with hdone
    rw [decodeFrom, if_neg hdone]
    exact List.mem_singleton_self _
  | cons b rest ih =>
    unfold decodeStrict at h
    rw [decodeFrom, List.mem_append]
    split_ifs at h with hfails
    · exact Or.inl (mem_decodeByte_of_fails hfails)
    · exact Or.inr (ih (Option.map_eq_none_iff.mp h))

/-! ### Inside a character -/

/-- The awaited bytes are no error, and complete the character whatever follows. -/
lemma Awaits.decodeStrict_append {s : DecoderState} {bytes : Bytes} {c : ℕ} (h : Awaits s bytes c)
    (rest : Bytes) :
    decodeStrict s (bytes ++ rest) = (decodeStrict .initial rest).map fun cs => c :: cs := by
  induction h with
  | @last s b c needed accepted completes =>
    have hfine : byteFails s b = false := by simp [byteFails, needed, accepted]
    rw [List.singleton_append, decodeStrict, if_neg (by rw [hfine]; exact Bool.false_ne_true),
      decodeByte, if_neg (by omega), if_pos accepted]
    simp only [needed, if_true, completes]
    rfl
  | @next s b bytes c n needed accepted _ ih =>
    have hfine : byteFails s b = false := by simp [byteFails, needed, accepted]
    rw [List.cons_append, decodeStrict, if_neg (by rw [hfine]; exact Bool.false_ne_true),
      decodeByte, if_neg (by omega), if_pos accepted, if_neg (by omega)]
    simp only [needed, Nat.reduceSubDiff, List.nil_append, Option.map_id']
    exact ih

/-- A run from inside a character reads the bytes it awaits, then the rest. -/
lemma awaits_of_decodeStrict {s : DecoderState} {bytes : Bytes} {cs : List ℕ}
    (hneeded : s.needed ≠ 0) (h : decodeStrict s bytes = some cs) :
    ∃ front rest c more, bytes = front ++ rest ∧ Awaits s front c ∧
      decodeStrict .initial rest = some more ∧ cs = c :: more := by
  induction bytes generalizing s cs with
  | nil =>
    rw [decodeStrict, if_neg hneeded] at h
    cases h
  | cons b rest ih =>
    unfold decodeStrict at h
    split_ifs at h with hfails
    obtain ⟨more, hmore, rfl⟩ := Option.map_eq_some_iff.mp h
    have haccepted : s.lower ≤ b.val ∧ b.val ≤ s.upper := by
      simpa [byteFails, hneeded] using hfails
    rw [decodeByte, if_neg hneeded, if_pos haccepted] at hmore ⊢
    by_cases hlast : s.needed = 1
    · rw [if_pos hlast] at hmore ⊢
      exact ⟨[b], rest, _, more, rfl, .last hlast haccepted rfl, hmore, rfl⟩
    · rw [if_neg hlast] at hmore ⊢
      obtain ⟨front, tail, c, later, rfl, hawaits, hlater, rfl⟩ :=
        ih (show s.needed - 1 ≠ 0 by omega) hmore
      obtain ⟨n, hn⟩ : ∃ n, s.needed = n + 2 := ⟨s.needed - 2, by omega⟩
      refine ⟨b :: front, tail, c, later, rfl, .next hn haccepted ?_, hlater, rfl⟩
      rwa [show s.needed - 1 = n + 1 by omega] at hawaits

/-- A byte is the byte of its value. -/
lemma ofNat_eq_of_val {b : Byte} {n : ℕ} (h : b.val = n) : (Fin.ofNat 256 n : Byte) = b :=
  Fin.ext ((val_byte (h ▸ b.isLt)).trans h.symm)

section Awaits

variable {s : DecoderState} {bytes : Bytes} {c : ℕ}

/-- The last byte of a character. -/
lemma Awaits.one (h : Awaits s bytes c) (hneeded : s.needed = 1) :
    ∃ b₁ : Byte, bytes = [b₁] ∧ (s.lower ≤ b₁.val ∧ b₁.val ≤ s.upper) ∧
      c = s.codePoint * 0x40 + (b₁.val - 0x80) := by
  cases h with
  | @last _ b₁ _ _ accepted completes => exact ⟨b₁, rfl, accepted, completes.symm⟩
  | next needed _ _ => omega

/-- The last two bytes of a character. -/
lemma Awaits.two (h : Awaits s bytes c) (hneeded : s.needed = 2) :
    ∃ b₁ b₂ : Byte, bytes = [b₁, b₂] ∧ (s.lower ≤ b₁.val ∧ b₁.val ≤ s.upper) ∧
      (0x80 ≤ b₂.val ∧ b₂.val ≤ 0xBF) ∧
      c = (s.codePoint * 0x40 + (b₁.val - 0x80)) * 0x40 + (b₂.val - 0x80) := by
  cases h with
  | last needed _ _ => omega
  | @next _ b₁ _ _ n needed accepted more =>
    obtain ⟨b₂, hbytes, haccepted, hc⟩ := more.one (show n + 1 = 1 by omega)
    exact ⟨b₁, b₂, by rw [hbytes], accepted, haccepted, hc⟩

/-- The last three bytes of a character. -/
lemma Awaits.three (h : Awaits s bytes c) (hneeded : s.needed = 3) :
    ∃ b₁ b₂ b₃ : Byte, bytes = [b₁, b₂, b₃] ∧ (s.lower ≤ b₁.val ∧ b₁.val ≤ s.upper) ∧
      (0x80 ≤ b₂.val ∧ b₂.val ≤ 0xBF) ∧ (0x80 ≤ b₃.val ∧ b₃.val ≤ 0xBF) ∧
      c = ((s.codePoint * 0x40 + (b₁.val - 0x80)) * 0x40 + (b₂.val - 0x80)) * 0x40 +
        (b₃.val - 0x80) := by
  cases h with
  | last needed _ _ => omega
  | @next _ b₁ _ _ n needed accepted more =>
    obtain ⟨b₂, b₃, hbytes, haccepted, hlast, hc⟩ := more.two (show n + 1 = 2 by omega)
    exact ⟨b₁, b₂, b₃, by rw [hbytes], accepted, haccepted, hlast, hc⟩

/-- **A first byte and the bytes it awaits are the encoding of the character.**  The bounds of the
second byte exclude overlong forms, surrogates and what is beyond the last code point. -/
lemma utf8Encode_of_awaits {b : Byte} (hfirst : decodeFirst b = (s, []))
    (hawaits : Awaits s bytes c) : IsScalar c ∧ utf8Encode c = b :: bytes := by
  unfold IsScalar utf8Encode
  by_cases hone : b.val ≤ 0x7F
  · rw [decodeFirst, if_pos hone] at hfirst
    cases hfirst
  by_cases htwo : 0xC2 ≤ b.val ∧ b.val ≤ 0xDF
  · rw [decodeFirst, if_neg hone, if_pos htwo] at hfirst
    obtain rfl := (Prod.mk.inj hfirst).1
    obtain ⟨b₁, rfl, haccepted, hc⟩ := hawaits.one rfl
    simp only at haccepted hc
    refine ⟨by omega, ?_⟩
    rw [if_neg (by omega), if_pos (by omega)]
    rw [@ofNat_eq_of_val b (0xC0 + c / 0x40) (by omega),
      @ofNat_eq_of_val b₁ (0x80 + c % 0x40) (by omega)]
  by_cases hthree : 0xE0 ≤ b.val ∧ b.val ≤ 0xEF
  · rw [decodeFirst, if_neg hone, if_neg htwo, if_pos hthree] at hfirst
    obtain rfl := (Prod.mk.inj hfirst).1
    obtain ⟨b₁, b₂, rfl, haccepted, hlast, hc⟩ := hawaits.two rfl
    simp only at haccepted hc
    have hbounds : (b.val = 0xE0 → 0xA0 ≤ b₁.val) ∧ 0x80 ≤ b₁.val ∧
        (b.val = 0xED → b₁.val ≤ 0x9F) ∧ b₁.val ≤ 0xBF := by
      split_ifs at haccepted <;> omega
    refine ⟨by omega, ?_⟩
    rw [if_neg (by omega), if_neg (by omega), if_pos (by omega),
      @ofNat_eq_of_val b (0xE0 + c / 0x1000) (by omega),
      @ofNat_eq_of_val b₁ (0x80 + c / 0x40 % 0x40) (by omega),
      @ofNat_eq_of_val b₂ (0x80 + c % 0x40) (by omega)]
  by_cases hfour : 0xF0 ≤ b.val ∧ b.val ≤ 0xF4
  · rw [decodeFirst, if_neg hone, if_neg htwo, if_neg hthree, if_pos hfour] at hfirst
    obtain rfl := (Prod.mk.inj hfirst).1
    obtain ⟨b₁, b₂, b₃, rfl, haccepted, hthird, hlast, hc⟩ := hawaits.three rfl
    simp only at haccepted hc
    have hbounds : (b.val = 0xF0 → 0x90 ≤ b₁.val) ∧ 0x80 ≤ b₁.val ∧
        (b.val = 0xF4 → b₁.val ≤ 0x8F) ∧ b₁.val ≤ 0xBF := by
      split_ifs at haccepted <;> omega
    refine ⟨by omega, ?_⟩
    rw [if_neg (by omega), if_neg (by omega), if_neg (by omega),
      @ofNat_eq_of_val b (0xF0 + c / 0x40000) (by omega),
      @ofNat_eq_of_val b₁ (0x80 + c / 0x1000 % 0x40) (by omega),
      @ofNat_eq_of_val b₂ (0x80 + c / 0x40 % 0x40) (by omega),
      @ofNat_eq_of_val b₃ (0x80 + c % 0x40) (by omega)]
  · rw [decodeFirst, if_neg hone, if_neg htwo, if_neg hthree, if_neg hfour] at hfirst
    cases hfirst

end Awaits

/-! ### Whole runs -/

/-- A byte that starts a character is one, or awaits more bytes. -/
lemma decodeFirst_cases {b : Byte} (h : firstFails b = false) :
    (b.val ≤ 0x7F ∧ decodeFirst b = (.initial, [b.val])) ∨
      ∃ s : DecoderState, s.needed ≠ 0 ∧ decodeFirst b = (s, []) := by
  unfold decodeFirst
  by_cases hone : b.val ≤ 0x7F
  · exact Or.inl ⟨hone, if_pos hone⟩
  · right
    rw [if_neg hone]
    by_cases htwo : 0xC2 ≤ b.val ∧ b.val ≤ 0xDF
    · exact ⟨_, Nat.succ_ne_zero 0, if_pos htwo⟩
    · rw [if_neg htwo]
      by_cases hthree : 0xE0 ≤ b.val ∧ b.val ≤ 0xEF
      · exact ⟨_, Nat.succ_ne_zero 1, if_pos hthree⟩
      · rw [if_neg hthree]
        refine ⟨_, Nat.succ_ne_zero 2, if_pos ?_⟩
        simp only [firstFails, Bool.not_eq_false', Bool.or_eq_true, Bool.and_eq_true,
          decide_eq_true_eq] at h
        omega

/-- A first byte that is no error is followed by a run of the state after it. -/
lemma decodeStrict_cons {b : Byte} (h : firstFails b = false) (rest : Bytes) :
    decodeStrict .initial (b :: rest) =
      (decodeStrict (decodeFirst b).1 rest).map fun cs => (decodeFirst b).2 ++ cs := by
  have hfine : byteFails .initial b = false := h
  rw [decodeStrict, if_neg (by rw [hfine]; exact Bool.false_ne_true), decodeByte_initial]

/-- **A character is read from its bytes**, whatever follows. -/
lemma decodeStrict_utf8Encode {c : ℕ} (hc : IsScalar c) (rest : Bytes) :
    decodeStrict .initial (utf8Encode c ++ rest) =
      (decodeStrict .initial rest).map fun cs => c :: cs := by
  rcases utf8Encode_spec hc with ⟨b, hbytes, hfirst⟩ | ⟨b, bytes, s, hbytes, hfirst, hawaits⟩
  · have hfine : firstFails b = false := by
      by_contra hfails
      rw [Bool.not_eq_false] at hfails
      rw [decodeFirst_of_fails hfails] at hfirst
      -- the replacement character has three bytes
      obtain rfl : replacementCodePoint = c := by simpa using hfirst
      cases hbytes
    rw [hbytes, List.singleton_append, decodeStrict_cons hfine, hfirst]
    rfl
  · have hfine : firstFails b = false := by
      by_contra hfails
      rw [Bool.not_eq_false] at hfails
      rw [decodeFirst_of_fails hfails] at hfirst
      cases hfirst
    rw [hbytes, List.cons_append, decodeStrict_cons hfine, hfirst]
    simp only [List.nil_append, Option.map_id']
    exact hawaits.decodeStrict_append rest

/-- The encoding of scalar values is read as these values, whatever follows. -/
lemma decodeStrict_flatMap_append {cs : List ℕ} (h : ∀ c ∈ cs, IsScalar c) (rest : Bytes) :
    decodeStrict .initial (cs.flatMap utf8Encode ++ rest) =
      (decodeStrict .initial rest).map fun more => cs ++ more := by
  induction cs with
  | nil => simp
  | cons c cs ih =>
    obtain ⟨hc, hrest⟩ := List.forall_mem_cons.mp h
    rw [List.flatMap_cons, List.append_assoc, decodeStrict_utf8Encode hc, ih hrest, Option.map_map]
    rfl

/-- The encoding of scalar values is read as these values. -/
lemma decodeStrict_flatMap {cs : List ℕ} (h : ∀ c ∈ cs, IsScalar c) :
    decodeStrict .initial (cs.flatMap utf8Encode) = some cs := by
  have hread := decodeStrict_flatMap_append h []
  rwa [List.append_nil, show decodeStrict .initial [] = some [] from rfl, Option.map_some,
    List.append_nil] at hread

/-- What is read is an encoding of scalar values. -/
lemma flatMap_of_decodeStrict {bytes : Bytes} {cs : List ℕ}
    (h : decodeStrict .initial bytes = some cs) :
    bytes = cs.flatMap utf8Encode ∧ ∀ c ∈ cs, IsScalar c := by
  induction hlength : bytes.length using Nat.strong_induction_on generalizing bytes cs with
  | h n ih =>
    cases bytes with
    | nil =>
      cases h
      exact ⟨rfl, nofun⟩
    | cons b rest =>
      have hfine : firstFails b = false := by
        by_contra hfails
        rw [Bool.not_eq_false] at hfails
        have hbyte : byteFails .initial b = true := hfails
        rw [decodeStrict, if_pos hbyte] at h
        cases h
      rw [decodeStrict_cons hfine] at h
      obtain ⟨more, hmore, rfl⟩ := Option.map_eq_some_iff.mp h
      rcases decodeFirst_cases hfine with ⟨hone, hfirst⟩ | ⟨s, hneeded, hfirst⟩
      · rw [hfirst] at hmore ⊢
        obtain ⟨hrest, hscalars⟩ := ih rest.length (by rw [← hlength]; simp) hmore rfl
        constructor
        · rw [List.singleton_append, List.flatMap_cons, ← hrest, utf8Encode,
            if_pos (by omega), ofNat_eq_of_val rfl]
          rfl
        · intro c hc
          rcases List.mem_cons.mp hc with rfl | hmem
          · exact Or.inl (by omega)
          · exact hscalars c hmem
      · rw [hfirst] at hmore ⊢
        obtain ⟨front, tail, c, later, rfl, hawaits, hlater, rfl⟩ :=
          awaits_of_decodeStrict hneeded hmore
        obtain ⟨hscalar, hencode⟩ := utf8Encode_of_awaits hfirst hawaits
        obtain ⟨htail, hscalars⟩ := ih tail.length
          (by rw [← hlength, List.length_cons, List.length_append]; omega) hlater rfl
        constructor
        · rw [List.nil_append, List.flatMap_cons, ← htail, hencode]
          rfl
        · intro d hd
          rcases List.mem_cons.mp hd with rfl | hmem
          · exact hscalar
          · exact hscalars d hmem

/-- **What the strict mode accepts** are exactly the encodings of scalar values. -/
theorem decodeStrict_eq_some_iff {bytes : Bytes} {cs : List ℕ} :
    decodeStrict .initial bytes = some cs ↔
      bytes = cs.flatMap utf8Encode ∧ ∀ c ∈ cs, IsScalar c := by
  refine ⟨flatMap_of_decodeStrict, ?_⟩
  intro h
  obtain ⟨rfl, hscalars⟩ := h
  exact decodeStrict_flatMap hscalars

/-- The bytes are UTF-8: the encodings of scalar values. -/
def IsUtf8 (bytes : Bytes) : Prop :=
  ∃ cs : List ℕ, bytes = cs.flatMap utf8Encode ∧ ∀ c ∈ cs, IsScalar c

/-- The fatal decoder throws at just the bytes that are no UTF-8. -/
lemma textDecodeFatal_eq_none_iff {bytes : Bytes} :
    textDecodeFatal bytes = none ↔ ¬IsUtf8 bytes := by
  rw [textDecodeFatal, Option.map_eq_none_iff, Option.eq_none_iff_forall_ne_some, IsUtf8,
    not_exists]
  exact forall_congr' fun cs => decodeStrict_eq_some_iff.not

/-! ### The byte order mark -/

/-- U+FEFF as a code unit. -/
def byteOrderUnit : CodeUnit := 0xFEFF

/-- The encoding of U+FEFF. -/
def byteOrderMark : Bytes := [0xEF, 0xBB, 0xBF]

lemma utf8Encode_byteOrderMark : utf8Encode 0xFEFF = byteOrderMark := by decide

lemma isScalar_byteOrderMark : IsScalar 0xFEFF := by
  unfold IsScalar
  omega

/-- The values of a text begin with U+FEFF when the text does. -/
lemma head?_scalarValues {text : JsString} :
    (scalarValues text).head? = some 0xFEFF ↔ text.head? = some byteOrderUnit := by
  have hlone : ∀ u : CodeUnit, loneScalar u = 0xFEFF ↔ u = byteOrderUnit := by
    intro u
    unfold loneScalar
    split_ifs with hsurrogate
    · refine iff_of_false (by decide) ?_
      intro h
      rw [h] at hsurrogate
      revert hsurrogate
      decide
    · exact (@Fin.ext_iff _ u byteOrderUnit).symm
  induction text using scalarValues.induct with
  | case1 => simp [scalarValues]
  | case2 u => simp [scalarValues, hlone]
  | case3 u v rest hpair _ =>
    have hu : u ≠ byteOrderUnit := by
      intro h
      rw [h] at hpair
      revert hpair
      simp [byteOrderUnit, isHighSurrogate]
    rw [scalarValues, if_pos hpair]
    simp only [List.head?_cons, Option.some.injEq, hu, iff_false]
    omega
  | case4 u v rest hpair _ =>
    rw [scalarValues, if_neg hpair]
    simp [hlone]

/-- Encoded values begin with the byte order mark when the first value is U+FEFF. -/
lemma byteOrderMark_prefix_iff {cs : List ℕ} (h : ∀ c ∈ cs, IsScalar c) :
    byteOrderMark <+: cs.flatMap utf8Encode ↔ cs.head? = some 0xFEFF := by
  constructor
  · intro hprefix
    obtain ⟨rest, hrest⟩ := hprefix
    have hread := decodeStrict_flatMap h
    rw [← hrest, ← utf8Encode_byteOrderMark,
      decodeStrict_utf8Encode isScalar_byteOrderMark] at hread
    obtain ⟨more, _, rfl⟩ := Option.map_eq_some_iff.mp hread
    rfl
  · intro hhead
    cases cs with
    | nil => cases hhead
    | cons c cs =>
      rw [List.head?_cons, Option.some.injEq] at hhead
      rw [List.flatMap_cons, hhead, utf8Encode_byteOrderMark]
      exact List.prefix_append _ _

/-- Only a first U+FEFF is dropped. -/
lemma dropByteOrderMark_of_head? {cs : List ℕ} (h : cs.head? ≠ some 0xFEFF) :
    dropByteOrderMark cs = cs := by
  cases cs with
  | nil => rfl
  | cons c cs =>
    rw [List.head?_cons, ne_eq, Option.some.injEq] at h
    rw [dropByteOrderMark, if_neg h]

/-- What is left when a first U+FEFF is dropped was there. -/
lemma mem_of_mem_dropByteOrderMark {cs : List ℕ} {c : ℕ} (h : c ∈ dropByteOrderMark cs) :
    c ∈ cs := by
  cases cs with
  | nil => exact h
  | cons d rest =>
    rw [dropByteOrderMark] at h
    split_ifs at h
    · exact List.mem_cons_of_mem d h
    · exact h

/-- The values of a text that begins with U+FEFF, without it. -/
lemma dropByteOrderMark_scalarValues (rest : JsString) :
    dropByteOrderMark (scalarValues (byteOrderUnit :: rest)) = scalarValues rest := by
  rw [scalarValues_unit (by decide)]
  rfl

/-- What follows U+FEFF in a text without lone surrogates has none. -/
lemma Paired.of_byteOrderUnit {rest : JsString} (h : Paired (byteOrderUnit :: rest)) :
    Paired rest := by
  cases h with
  | unit _ hrest => exact hrest
  | pair hu _ _ => exact absurd hu (by decide)

/-- A text that begins with U+FEFF is that and its rest. -/
lemma eq_cons_of_head? {text : JsString} (h : text.head? = some byteOrderUnit) :
    text = byteOrderUnit :: text.tail := by
  cases text with
  | nil => cases h
  | cons u rest =>
    rw [List.head?_cons, Option.some.injEq] at h
    rw [h]
    rfl

/-- **What decoding its encoding makes of a text**: the text, without a first U+FEFF. -/
lemma textDecodeFatal_textEncode {text : JsString} (h : Paired text) :
    textDecodeFatal (textEncode text) =
      some (if text.head? = some byteOrderUnit then text.tail else text) := by
  have hscalars : ∀ c ∈ scalarValues text, IsScalar c := fun c hc => isScalar_of_mem_scalarValues hc
  rw [textDecodeFatal, textEncode, decodeStrict_flatMap hscalars, Option.map_some]
  split_ifs with hmark
  · have htext := eq_cons_of_head? hmark
    rw [htext] at h
    rw [htext, dropByteOrderMark_scalarValues, flatMap_utf16Encode h.of_byteOrderUnit]
    rfl
  · rw [dropByteOrderMark_of_head? (head?_scalarValues.not.mpr hmark), flatMap_utf16Encode h]

/-- **What a decoded text was decoded from**: its encoding, or the byte order mark and its
encoding. -/
lemma textDecodeFatal_cases {bytes : Bytes} {text : JsString}
    (h : textDecodeFatal bytes = some text) :
    (¬byteOrderMark <+: bytes ∧ bytes = textEncode text) ∨
      bytes = byteOrderMark ++ textEncode text := by
  obtain ⟨cs, hread, rfl⟩ := Option.map_eq_some_iff.mp h
  obtain ⟨rfl, hscalars⟩ := flatMap_of_decodeStrict hread
  by_cases hmark : cs.head? = some 0xFEFF
  · right
    cases cs with
    | nil => cases hmark
    | cons c rest =>
      rw [List.head?_cons, Option.some.injEq] at hmark
      subst hmark
      have hrest : ∀ d ∈ rest, IsScalar d := fun d hd => hscalars d (List.mem_cons_of_mem _ hd)
      rw [dropByteOrderMark, if_pos rfl, textEncode, scalarValues_flatMap_utf16Encode hrest,
        List.flatMap_cons, utf8Encode_byteOrderMark]
  · left
    rw [byteOrderMark_prefix_iff hscalars, dropByteOrderMark_of_head? hmark, textEncode,
      scalarValues_flatMap_utf16Encode hscalars]
    exact ⟨hmark, rfl⟩

/-! ### What the replacing mode reads -/

/-- The decoder is between characters, or inside one that is a scalar value. -/
def DecoderState.Sound (s : DecoderState) : Prop :=
  s.needed ≠ 0 → ∀ bytes c, Awaits s bytes c → IsScalar c

lemma isScalar_replacementCodePoint : IsScalar replacementCodePoint := by
  unfold IsScalar replacementCodePoint
  omega

/-- A first byte keeps the decoder sound and emits scalar values. -/
lemma sound_decodeFirst (b : Byte) :
    (decodeFirst b).1.Sound ∧ ∀ c ∈ (decodeFirst b).2, IsScalar c := by
  cases hfails : firstFails b with
  | true =>
    rw [decodeFirst_of_fails hfails]
    refine ⟨fun h => absurd rfl h, ?_⟩
    intro c hc
    rw [List.mem_singleton.mp hc]
    exact isScalar_replacementCodePoint
  | false =>
    rcases decodeFirst_cases hfails with ⟨hone, hfirst⟩ | ⟨s, _, hfirst⟩
    · rw [hfirst]
      refine ⟨fun h => absurd rfl h, ?_⟩
      intro c hc
      rw [List.mem_singleton.mp hc]
      exact Or.inl (by omega)
    · rw [hfirst]
      exact ⟨fun _ bytes c hawaits => (utf8Encode_of_awaits hfirst hawaits).1, nofun⟩

/-- Every byte keeps the decoder sound and emits scalar values. -/
lemma sound_decodeByte {s : DecoderState} (hs : s.Sound) (b : Byte) :
    (decodeByte s b).1.Sound ∧ ∀ c ∈ (decodeByte s b).2, IsScalar c := by
  unfold decodeByte
  by_cases hneeded : s.needed = 0
  · rw [if_pos hneeded]
    exact sound_decodeFirst b
  rw [if_neg hneeded]
  by_cases haccepted : s.lower ≤ b.val ∧ b.val ≤ s.upper
  · rw [if_pos haccepted]
    simp only
    by_cases hlast : s.needed = 1
    · rw [if_pos hlast]
      refine ⟨fun h => absurd rfl h, ?_⟩
      intro c hc
      rw [List.mem_singleton.mp hc]
      exact hs hneeded [b] _ (.last hlast haccepted rfl)
    · rw [if_neg hlast]
      refine ⟨?_, nofun⟩
      intro _ bytes c hawaits
      obtain ⟨n, hn⟩ : ∃ n, s.needed = n + 2 := ⟨s.needed - 2, by omega⟩
      rw [show s.needed - 1 = n + 1 by omega] at hawaits
      exact hs hneeded (b :: bytes) c (.next hn haccepted hawaits)
  · rw [if_neg haccepted]
    obtain ⟨hsound, hscalars⟩ := sound_decodeFirst b
    refine ⟨hsound, ?_⟩
    intro c hc
    rcases List.mem_cons.mp hc with rfl | hmem
    · exact isScalar_replacementCodePoint
    · exact hscalars c hmem

/-- Only scalar values are read from any bytes. -/
lemma isScalar_of_mem_decodeFrom {s : DecoderState} (hs : s.Sound) {bytes : Bytes} {c : ℕ}
    (hc : c ∈ decodeFrom s bytes) : IsScalar c := by
  induction bytes generalizing s with
  | nil =>
    rw [decodeFrom] at hc
    split_ifs at hc
    · cases hc
    · rw [List.mem_singleton.mp hc]
      exact isScalar_replacementCodePoint
  | cons b rest ih =>
    obtain ⟨hsound, hscalars⟩ := sound_decodeByte hs b
    rw [decodeFrom, List.mem_append] at hc
    rcases hc with hmem | hrest
    · exact hscalars c hmem
    · exact ih hsound hrest

/-! ### Bytes that are no UTF-8 -/

/-- U+FFFD as a code unit. -/
def replacementUnit : CodeUnit := 0xFFFD

/-- The unit U+FFFD of a text without lone surrogates is the character U+FFFD. -/
lemma mem_scalarValues_of_replacementUnit {text : JsString} (htext : Paired text)
    (h : replacementUnit ∈ text) : replacementCodePoint ∈ scalarValues text := by
  rw [← flatMap_utf16Encode htext] at h
  obtain ⟨c, hc, hunit⟩ := List.mem_flatMap.mp h
  rcases utf16Encode_cases (isScalar_of_mem_scalarValues hc) with
    ⟨u, hencoded, hval, -⟩ | ⟨u, v, hencoded, hhigh, hlow, -⟩
  · rw [hencoded, List.mem_singleton] at hunit
    rw [← hval, ← hunit] at hc
    exact hc
  · -- a surrogate is not U+FFFD
    rw [hencoded] at hunit
    rcases List.mem_cons.mp hunit with rfl | hsecond
    · exact absurd hhigh (by decide)
    · rw [← List.mem_singleton.mp hsecond] at hlow
      exact absurd hlow (by decide)

/-- Bytes that are no UTF-8 are read with a U+FFFD. -/
lemma replacementUnit_mem_textDecode {bytes : Bytes} (h : ¬IsUtf8 bytes) :
    replacementUnit ∈ textDecode bytes := by
  have hmem := mem_decodeFrom_of_decodeStrict
    (Option.map_eq_none_iff.mp (textDecodeFatal_eq_none_iff.mpr h))
  refine List.mem_flatMap.mpr ⟨replacementCodePoint, ?_, by decide⟩
  cases hread : decodeFrom .initial bytes with
  | nil =>
    rw [hread] at hmem
    cases hmem
  | cons c rest =>
    rw [hread] at hmem
    rw [dropByteOrderMark]
    split_ifs with hmark
    · rcases List.mem_cons.mp hmem with hfirst | hrest
      · exact absurd (hfirst.trans hmark) (by decide)
      · exact hrest
    · exact hmem

/-- **Which texts bytes that are no UTF-8 are read as**: those with a U+FFFD.  The byte FF, which
occurs in no encoding, is read as one, and a byte order mark put before keeps a U+FEFF the text
begins with. -/
theorem exists_textDecode_iff {text : JsString} (htext : Paired text) :
    (∃ bytes, ¬IsUtf8 bytes ∧ textDecode bytes = text) ↔ replacementUnit ∈ text := by
  constructor
  · intro h
    obtain ⟨bytes, hrefused, rfl⟩ := h
    exact replacementUnit_mem_textDecode hrefused
  · intro hunit
    obtain ⟨before, after, hsplit⟩ :=
      List.append_of_mem (mem_scalarValues_of_replacementUnit htext hunit)
    have hscalars : ∀ c ∈ before ++ replacementCodePoint :: after, IsScalar c := by
      intro c hc
      exact isScalar_of_mem_scalarValues (hsplit ▸ hc)
    have hbefore : ∀ c ∈ 0xFEFF :: before, IsScalar c := by
      refine List.forall_mem_cons.mpr ⟨isScalar_byteOrderMark, ?_⟩
      exact fun c hc => hscalars c (List.mem_append_left _ hc)
    have hafter : ∀ c ∈ after, IsScalar c := fun c hc =>
      hscalars c (List.mem_append_right _ (List.mem_cons_of_mem _ hc))
    have hfails : firstFails 0xFF = true := by decide
    refine ⟨(0xFEFF :: before).flatMap utf8Encode ++ 0xFF :: after.flatMap utf8Encode, ?_, ?_⟩
    · have hbyte : byteFails .initial 0xFF = true := hfails
      rw [← textDecodeFatal_eq_none_iff, textDecodeFatal, decodeStrict_flatMap_append hbefore,
        decodeStrict, if_pos hbyte]
      rfl
    · have hread : decodeFrom .initial (0xFF :: after.flatMap utf8Encode) =
          replacementCodePoint :: after := by
        rw [decodeFrom, decodeByte_initial, decodeFirst_of_fails hfails, decodeFrom_flatMap hafter]
        rfl
      rw [textDecode, decodeFrom_flatMap_append hbefore, hread, List.cons_append, ← hsplit,
        dropByteOrderMark, if_pos rfl, flatMap_utf16Encode htext]

end MultiPartEvent
