import MultiPartEvent.Js.Json

/-!
# Reading JSON texts

`JSON.parse`, on texts whose numbers are written as `String(n)` writes them.  A value that is
written and read again comes back unchanged, except that numbers that are not finite come back
as `null` (`parse_stringify`).
-/

namespace MultiPartEvent

/-! ### The parser -/

/-- JSON white space. -/
def isWhitespace (u : CodeUnit) : Bool := u = 0x20 || u = 0x09 || u = 0x0A || u = 0x0D

/-- The text after its leading white space. -/
def skipWhitespace (text : JsString) : JsString := text.dropWhile isWhitespace

/-- The natural number of a text of decimal digits. -/
def readNatural (text : JsString) : ℕ :=
  Nat.ofDigitChars 10 (text.map fun u => Char.ofNat u.val) 0

/-- The integer a text would be the decimal form of. -/
def readInteger (text : JsString) : ℤ :=
  if text.head? = some (charUnit '-') then -(readNatural text.tail : ℤ) else readNatural text

/-- The number of a token. -/
def readNumber (token : JsString) : Option JsNumber :=
  if integerText (readInteger token) = token then some (.int (readInteger token))
  else if h : isDecimalText token = true then some (.other ⟨token, Or.inl h⟩)
  else none

/-- Read a word or a number at the start of a text: the value and what follows it. -/
def parseScalar (text : JsString) : Option (Json × JsString) :=
  if (js "null").isPrefixOf text then some (.null, text.drop 4)
  else if (js "true").isPrefixOf text then some (.bool true, text.drop 4)
  else if (js "false").isPrefixOf text then some (.bool false, text.drop 5)
  else (readNumber (text.takeWhile isNumberUnit)).map fun n =>
    (.number n, text.dropWhile isNumberUnit)

/-- Read a quoted member name and the colon after it. -/
def parseKey (text : JsString) : Option (JsString × JsString) :=
  match skipWhitespace text with
  | [] => none
  | u :: rest =>
    if u ≠ quoteUnit then none
    else do
      let (key, rest) ← parseStringBody rest
      match skipWhitespace rest with
      | [] => none
      | v :: rest => if v = charUnit ':' then some (key, rest) else none

/-- Read an object member, with the reader of its value. -/
def parseMember (parse : JsString → Option (Json × JsString)) (text : JsString) :
    Option ((JsString × Json) × JsString) := do
  let (key, rest) ← parseKey text
  let (value, rest) ← parse rest
  return ((key, value), rest)

/-- Read a list of elements up to its closing unit, with the reader of one element.  The fuel
bounds the number of elements. -/
def parseElements {α : Type} (parseElement : JsString → Option (α × JsString))
    (closing : CodeUnit) :
    ℕ → JsString → Option (List α × JsString)
  | 0, _ => none
  | fuel + 1, text => do
    let (element, rest) ← parseElement text
    match skipWhitespace rest with
    | [] => none
    | u :: rest =>
      if u = closing then some ([element], rest)
      else if u = charUnit ',' then do
        let (elements, rest) ← parseElements parseElement closing fuel rest
        return (element :: elements, rest)
      else none

/-- Read a possibly empty list of elements up to its closing unit. -/
def parseList {α : Type} (parseElement : JsString → Option (α × JsString)) (closing : CodeUnit)
    (text : JsString) : Option (List α × JsString) :=
  match skipWhitespace text with
  | [] => none
  | u :: rest =>
    if u = closing then some ([], rest)
    else parseElements parseElement closing text.length (u :: rest)

/-- Read a value at the start of a text: the value and what follows it.  The fuel bounds the
nesting. -/
def parseValue : ℕ → JsString → Option (Json × JsString)
  | 0, _ => none
  | fuel + 1, text =>
    match skipWhitespace text with
    | [] => none
    | u :: rest =>
      if u = quoteUnit then (parseStringBody rest).map fun p => (.string p.1, p.2)
      else if u = charUnit '[' then
        (parseList (parseValue fuel) (charUnit ']') rest).map fun p => (.array p.1, p.2)
      else if u = charUnit '\x7b' then
        (parseList (parseMember (parseValue fuel)) (charUnit '\x7d') rest).map fun p =>
          (.object p.1, p.2)
      else parseScalar (u :: rest)

/-- `JSON.parse(text)`, when the text is a JSON text. -/
def Json.parse (text : JsString) : Option Json :=
  match parseValue text.length text with
  | some (value, rest) => if skipWhitespace rest = [] then some value else none
  | none => none

/-! ### What is read back -/

mutual

/-- A value as it is read back after it was written: numbers that are not finite are `null`. -/
def Json.reread : Json → Json
  | .null => .null
  | .bool b => .bool b
  | .number (.int z) => .number (.int z)
  | .number (.other t) => if t.text ∈ nonFiniteTexts then .null else .number (.other t)
  | .string s => .string s
  | .array items => .array (rereadItems items)
  | .object members => .object (rereadMembers members)

/-- The items of an array as they are read back. -/
def rereadItems : List Json → List Json
  | [] => []
  | item :: rest => item.reread :: rereadItems rest

/-- The members of an object as they are read back. -/
def rereadMembers : List (JsString × Json) → List (JsString × Json)
  | [] => []
  | (key, value) :: rest => (key, value.reread) :: rereadMembers rest

end

/-- The texts of the items are those of each item. -/
lemma stringifyItems_eq_map (items : List Json) :
    stringifyItems items = items.map Json.stringify := by
  induction items with
  | nil => rfl
  | cons item items ih => rw [stringifyItems, ih, List.map_cons]

/-- The text of an object member. -/
def memberText (member : JsString × Json) : JsString :=
  quote member.1 ++ js ":" ++ member.2.stringify

/-- The texts of the members are those of each member. -/
lemma stringifyMembers_eq_map (members : List (JsString × Json)) :
    stringifyMembers members = members.map memberText := by
  induction members with
  | nil => rfl
  | cons member members ih => rw [stringifyMembers, ih, List.map_cons, memberText]

/-- The items are read back one by one. -/
lemma rereadItems_eq_map (items : List Json) : rereadItems items = items.map Json.reread := by
  induction items with
  | nil => rfl
  | cons item items ih => rw [rereadItems, ih, List.map_cons]

/-- The members are read back one by one. -/
lemma rereadMembers_eq_map (members : List (JsString × Json)) :
    rereadMembers members = members.map fun member => (member.1, member.2.reread) := by
  induction members with
  | nil => rfl
  | cons member members ih => rw [rereadMembers, ih, List.map_cons]

/-! ### Numbers -/

/-- A natural number is read back from its decimal text. -/
@[simp] lemma readNatural_decimal (n : ℕ) : readNatural (decimal n) = n := by
  rw [readNatural, map_ofNat_decimal]
  simp

/-- The minus sign is not a digit. -/
lemma head?_decimal_ne (n : ℕ) : (decimal n).head? ≠ some (charUnit '-') := by
  intro h
  have hdigit := mem_decimal (List.mem_of_mem_head? h)
  exact absurd hdigit (by decide)

/-- An integer is read back from its text. -/
@[simp] lemma readInteger_integerText (z : ℤ) : readInteger (integerText z) = z := by
  cases z with
  | ofNat n =>
    rw [integerText, readInteger, if_neg (head?_decimal_ne n), readNatural_decimal]
    rfl
  | negSucc n =>
    have htail : (integerText (.negSucc n)).tail = decimal (n + 1) := rfl
    have hhead : (integerText (.negSucc n)).head? = some (charUnit '-') := rfl
    rw [readInteger, if_pos hhead, htail, readNatural_decimal]
    rfl

/-- The units of an integer text are digits, or the minus sign. -/
lemma mem_integerText {z : ℤ} {u : CodeUnit} (h : u ∈ integerText z) :
    (48 ≤ u.val ∧ u.val ≤ 57) ∨ u = charUnit '-' := by
  cases z with
  | ofNat n => exact Or.inl (mem_decimal h)
  | negSucc n =>
    rcases List.mem_append.mp h with hsign | hdigit
    · exact Or.inr (List.mem_singleton.mp hsign)
    · exact Or.inl (mem_decimal hdigit)

/-- The units of an integer text are units of numbers. -/
lemma all_isNumberUnit_integerText (z : ℤ) : (integerText z).all isNumberUnit = true := by
  rw [List.all_eq_true]
  intro u hu
  rcases mem_integerText hu with hdigit | rfl
  · simp [isNumberUnit, hdigit]
  · decide

/-- An integer text is not a decimal text. -/
lemma integerText_ne_decimalText {text : JsString} (h : isDecimalText text = true) (z : ℤ) :
    integerText z ≠ text := by
  rintro rfl
  simp only [isDecimalText, Bool.and_eq_true, List.any_eq_true] at h
  obtain ⟨-, u, hu, hmark⟩ := h
  rcases mem_integerText hu with hdigit | rfl
  · have hne : u ∉ js ".e" := by
      intro hmem
      rcases List.mem_cons.mp hmem with rfl | hmem
      · exact absurd hdigit (by decide)
      · rw [List.mem_singleton.mp hmem] at hdigit
        exact absurd hdigit (by decide)
    exact hne (List.contains_iff_mem.mp hmark)
  · exact absurd hmark (by decide)

/-- What follows a value does not continue a number. -/
def Ends (tail : JsString) : Prop := ∀ u ∈ tail.head?, isNumberUnit u = false

/-- A token ends where the units of numbers do. -/
lemma takeWhile_token {token tail : JsString} (htoken : token.all isNumberUnit = true)
    (htail : Ends tail) :
    (token ++ tail).takeWhile isNumberUnit = token ∧
      (token ++ tail).dropWhile isNumberUnit = tail := by
  have hall : ∀ u ∈ token, isNumberUnit u = true := List.all_eq_true.mp htoken
  rw [List.takeWhile_append_of_pos hall, List.dropWhile_append_of_pos hall]
  cases tail with
  | nil => simp
  | cons u tail =>
    have hu : isNumberUnit u = false := htail u rfl
    simp [hu]

/-- A word does not start with the unit of a number. -/
lemma isPrefixOf_eq_false {word text : JsString} {u v : CodeUnit} (hword : word.head? = some v)
    (htext : text.head? = some u) (hne : v ≠ u) : word.isPrefixOf text = false := by
  cases word with
  | nil => cases hword
  | cons w word =>
    cases text with
    | nil => cases htext
    | cons t text =>
      cases hword
      cases htext
      simp [List.isPrefixOf, hne]

/-- A number token is read as its number. -/
lemma parseScalar_token {token tail : JsString} {n : JsNumber} (hne : token ≠ [])
    (htoken : token.all isNumberUnit = true) (hread : readNumber token = some n)
    (htail : Ends tail) : parseScalar (token ++ tail) = some (.number n, tail) := by
  obtain ⟨u, rest, rfl⟩ := List.exists_cons_of_ne_nil hne
  have hu : isNumberUnit u = true := List.all_eq_true.mp htoken u List.mem_cons_self
  have hword : ∀ (word : JsString) v, word.head? = some v → isNumberUnit v = false →
      word.isPrefixOf (u :: rest ++ tail) = false := by
    intro word v hv hother
    refine isPrefixOf_eq_false hv rfl ?_
    rintro rfl
    simp [hu] at hother
  obtain ⟨htake, hdrop⟩ := takeWhile_token htoken htail
  rw [parseScalar, hword _ _ rfl (by decide), hword _ _ rfl (by decide),
    hword _ _ rfl (by decide), htake, hdrop, hread]
  rfl

/-- An integer is read back. -/
lemma readNumber_integerText (z : ℤ) : readNumber (integerText z) = some (.int z) := by
  rw [readNumber, readInteger_integerText, if_pos rfl]

/-- A decimal number is read back. -/
lemma readNumber_decimalText {t : NumberText} (h : isDecimalText t.text = true) :
    readNumber t.text = some (.other t) := by
  rw [readNumber, if_neg (integerText_ne_decimalText h _), dif_pos h]

/-! ### Lists of elements -/

/-- White space in front of a text that does not start with any is not there. -/
lemma skipWhitespace_cons {u : CodeUnit} (h : isWhitespace u = false) (text : JsString) :
    skipWhitespace (u :: text) = u :: text := by
  rw [skipWhitespace, List.dropWhile_cons_of_neg (by simp [h])]

/-- The closing unit of a list: it is not confused with anything that follows an element. -/
structure IsClosing (closing : CodeUnit) : Prop where
  whitespace : isWhitespace closing = false
  comma : closing ≠ charUnit ','
  number : isNumberUnit closing = false

/-- Neither the closing unit nor a comma continues a number. -/
lemma ends_of_closing {closing : CodeUnit} (h : IsClosing closing) (u : CodeUnit) (rest : JsString)
    (hu : u = closing ∨ u = charUnit ',') : Ends (u :: rest) := by
  intro v hv
  cases hv
  rcases hu with rfl | rfl
  · exact h.number
  · decide

/-- The texts of elements start with a unit that ends no list. -/
structure Starts (closing : CodeUnit) (text : JsString) : Prop where
  head : ∃ u rest, text = u :: rest ∧ isWhitespace u = false ∧ u ≠ closing

section Elements

variable {α β : Type} {parseElement : JsString → Option (β × JsString)} {write : α → JsString}
  {read : α → β} {closing : CodeUnit} {ends : JsString → Prop}

/-- A list of elements is read back element by element, when each of them is read back in front of
the closing unit and of a comma. -/
lemma parseElements_joinWith (hclosing : IsClosing closing)
    (hends : ∀ u rest, u = closing ∨ u = charUnit ',' → ends (u :: rest)) {l : List α}
    (hne : l ≠ [])
    (hread : ∀ a ∈ l, ∀ tail, ends tail → parseElement (write a ++ tail) = some (read a, tail))
    {fuel : ℕ} (hfuel : l.length ≤ fuel) (tail : JsString) :
    parseElements parseElement closing fuel
        (joinWith (js ",") (l.map write) ++ closing :: tail) = some (l.map read, tail) := by
  induction l generalizing fuel with
  | nil => exact absurd rfl hne
  | cons a l ih =>
    obtain ⟨fuel, rfl⟩ : ∃ n, fuel = n + 1 := ⟨fuel - 1, by simp at hfuel; omega⟩
    have ha := hread a List.mem_cons_self
    cases l with
    | nil =>
      have hskip : skipWhitespace (closing :: tail) = closing :: tail :=
        skipWhitespace_cons hclosing.whitespace tail
      simp only [List.map_cons, List.map_nil, joinWith, parseElements,
        ha _ (hends closing tail (Or.inl rfl)), Option.bind_eq_bind, Option.bind_some, hskip,
        if_true]
    | cons b l =>
      have hcomma :
          ∀ rest : JsString, skipWhitespace (charUnit ',' :: rest) = charUnit ',' :: rest :=
        skipWhitespace_cons (by decide)
      have hrest := ih (by simp) (fun c hc => hread c (List.mem_cons_of_mem _ hc))
        (Nat.le_of_succ_le_succ hfuel)
      have htext : joinWith (js ",") ((a :: b :: l).map write) ++ closing :: tail =
          write a ++ charUnit ',' ::
            (joinWith (js ",") ((b :: l).map write) ++ closing :: tail) := by
        simp only [List.map_cons, joinWith, List.append_assoc]
        rfl
      rw [htext]
      simp only [parseElements, ha _ (hends _ _ (Or.inr rfl)),
        Option.bind_eq_bind, Option.bind_some, hcomma, if_neg (Ne.symm hclosing.comma), if_true,
          hrest]
      rfl

/-- The text of a list is at least as long as the list. -/
lemma length_le_joinWith (write : α → JsString) (l : List α) (hwrite : ∀ a ∈ l, write a ≠ []) :
    l.length ≤ (joinWith (js ",") (l.map write)).length := by
  induction l with
  | nil => simp
  | cons a l ih =>
    have ha : 1 ≤ (write a).length :=
      List.length_pos_iff.mpr (hwrite a List.mem_cons_self)
    have hrest := ih fun b hb => hwrite b (List.mem_cons_of_mem _ hb)
    cases l with
    | nil => simpa [joinWith] using ha
    | cons b l =>
      simp only [List.map_cons, joinWith, List.length_append, List.length_cons] at hrest ⊢
      omega

/-- The text of an element is at most as long as the text of the list. -/
lemma length_write_le_joinWith (write : α → JsString) {l : List α} {a : α} (ha : a ∈ l) :
    (write a).length ≤ (joinWith (js ",") (l.map write)).length := by
  induction l with
  | nil => cases ha
  | cons b l ih =>
    cases l with
    | nil =>
      rw [List.mem_singleton.mp ha]
      exact le_rfl
    | cons c l =>
      simp only [List.map_cons, joinWith, List.length_append] at ih ⊢
      rcases List.mem_cons.mp ha with rfl | ha
      · omega
      · have hrest := ih ha
        omega

/-- A possibly empty list of elements is read back. -/
lemma parseList_joinWith (hclosing : IsClosing closing)
    (hends : ∀ u rest, u = closing ∨ u = charUnit ',' → ends (u :: rest)) {l : List α}
    (hread : ∀ a ∈ l, ∀ tail, ends tail → parseElement (write a ++ tail) = some (read a, tail))
    (hstarts : ∀ a ∈ l, Starts closing (write a)) (tail : JsString) :
    parseList parseElement closing (joinWith (js ",") (l.map write) ++ closing :: tail) =
      some (l.map read, tail) := by
  cases l with
  | nil =>
    simp only [List.map_nil, joinWith, List.nil_append, parseList,
      skipWhitespace_cons hclosing.whitespace, if_true]
  | cons a l =>
    obtain ⟨u, rest, htext, hspace, hother⟩ := (hstarts a List.mem_cons_self).head
    obtain ⟨rest', hjoin⟩ : ∃ rest', joinWith (js ",") ((a :: l).map write) = u :: rest' := by
      cases l <;> simp [joinWith, htext]
    have hlength : (a :: l).length ≤
        (joinWith (js ",") ((a :: l).map write) ++ closing :: tail).length := by
      have hle := length_le_joinWith write (a :: l) fun b hb => by
        obtain ⟨v, r, hb, -⟩ := (hstarts b hb).head
        simp [hb]
      rw [List.length_append]
      omega
    have helements := parseElements_joinWith hclosing hends (by simp) hread hlength tail
    rw [hjoin] at helements ⊢
    simp only [parseList, List.cons_append, skipWhitespace_cons hspace, if_neg hother]
    simpa using helements

end Elements

/-! ### Values -/

/-- The units of numbers are no white space. -/
lemma isWhitespace_of_isNumberUnit {u : CodeUnit} (hu : isNumberUnit u = true) :
    isWhitespace u = false := by
  rw [Bool.eq_false_iff]
  intro hspace
  simp only [isWhitespace, Bool.or_eq_true, decide_eq_true_eq] at hspace
  rcases hspace with ((rfl | rfl) | rfl) | rfl <;> exact absurd hu (by decide)

/-- The text of a value starts with a unit that is neither white space nor the end of a list. -/
lemma starts_stringify (v : Json) {closing : CodeUnit}
    (hclosing : closing = charUnit ']' ∨ closing = charUnit '\x7d') :
    Starts closing v.stringify := by
  have hnumber : ∀ text : JsString, text ≠ [] → text.all isNumberUnit = true →
      Starts closing text := by
    intro text hne hall
    obtain ⟨u, rest, rfl⟩ := List.exists_cons_of_ne_nil hne
    have hu : isNumberUnit u = true := List.all_eq_true.mp hall u List.mem_cons_self
    refine ⟨u, rest, rfl, isWhitespace_of_isNumberUnit hu, ?_⟩
    rintro rfl
    rcases hclosing with rfl | rfl <;> exact absurd hu (by decide)
  have hunit : ∀ (u : CodeUnit) (rest : JsString), isWhitespace u = false →
      u ≠ charUnit ']' → u ≠ charUnit '\x7d' → Starts closing (u :: rest) := by
    intro u rest hspace harray hobject
    refine ⟨u, rest, rfl, hspace, ?_⟩
    rintro rfl
    exact hclosing.elim harray hobject
  cases v with
  | null => exact hunit (charUnit 'n') (js "ull") (by decide) (by decide) (by decide)
  | bool b =>
    cases b with
    | true => exact hunit (charUnit 't') (js "rue") (by decide) (by decide) (by decide)
    | false => exact hunit (charUnit 'f') (js "alse") (by decide) (by decide) (by decide)
  | number n =>
    cases n with
    | int z =>
      refine hnumber _ ?_ (all_isNumberUnit_integerText z)
      cases z <;> simp [Json.stringify, integerText, decimal_ne_nil]
    | other t =>
      rw [Json.stringify]
      split_ifs with hfinite
      · exact hunit (charUnit 'n') (js "ull") (by decide) (by decide) (by decide)
      · have htext : isDecimalText t.text = true := t.valid.resolve_right hfinite
        rw [isDecimalText, Bool.and_eq_true] at htext
        refine hnumber _ ?_ htext.1
        intro hnil
        simp [hnil] at htext
  | string s => exact hunit quoteUnit _ (by decide) (by decide) (by decide)
  | array items =>
    rw [Json.stringify, List.append_assoc]
    exact hunit (charUnit '[') _ (by decide) (by decide) (by decide)
  | object members =>
    rw [Json.stringify, List.append_assoc]
    exact hunit (charUnit '\x7b') _ (by decide) (by decide) (by decide)

/-- The closing bracket of an array. -/
lemma isClosing_array : IsClosing (charUnit ']') := ⟨by decide, by decide, by decide⟩

/-- The closing brace of an object. -/
lemma isClosing_object : IsClosing (charUnit '\x7d') := ⟨by decide, by decide, by decide⟩

/-- A member name and its colon are read back. -/
lemma parseKey_quote (key tail : JsString) : parseKey (quote key ++ (js ":" ++ tail)) =
    some (key, tail) := by
  have htext : quote key ++ (js ":" ++ tail) =
      quoteUnit :: (quoteBody key ++ quoteUnit :: (charUnit ':' :: tail)) := by
    rw [quote, List.cons_append, List.append_assoc]
    rfl
  have hcolon : skipWhitespace (charUnit ':' :: tail) = charUnit ':' :: tail :=
    skipWhitespace_cons (by decide) tail
  rw [htext, parseKey, skipWhitespace_cons (by decide)]
  simp [parseStringBody_quoteBody, hcolon]

/-- The text of a member starts with a quotation mark. -/
lemma starts_memberText (member : JsString × Json) :
    Starts (charUnit '\x7d') (memberText member) := by
  rw [memberText, List.append_assoc, quote, List.cons_append]
  exact ⟨quoteUnit, _, rfl, by decide, by decide⟩

section Parsing

variable {fuel : ℕ} {tail : JsString}

/-- What starts like a word or a number is read as one. -/
lemma parseValue_scalar {u : CodeUnit} (rest : JsString) (hspace : isWhitespace u = false)
    (hquote : u ≠ quoteUnit) (harray : u ≠ charUnit '[') (hobject : u ≠ charUnit '\x7b') :
    parseValue (fuel + 1) (u :: rest) = parseScalar (u :: rest) := by
  simp only [parseValue, skipWhitespace_cons hspace, if_neg hquote, if_neg harray, if_neg hobject]

/-- `null` is read back. -/
lemma parseValue_null : parseValue (fuel + 1) (js "null" ++ tail) = some (.null, tail) :=
  parseValue_scalar (u := charUnit 'n') (js "ull" ++ tail) (by decide) (by decide) (by decide)
    (by decide)

/-- The text of a number is read back. -/
lemma parseValue_token {token : JsString} {n : JsNumber} (hne : token ≠ [])
    (hall : token.all isNumberUnit = true) (hread : readNumber token = some n) (htail : Ends tail) :
    parseValue (fuel + 1) (token ++ tail) = some (.number n, tail) := by
  rw [← parseScalar_token hne hall hread htail]
  obtain ⟨u, rest, rfl⟩ := List.exists_cons_of_ne_nil hne
  have hu : isNumberUnit u = true := List.all_eq_true.mp hall u List.mem_cons_self
  refine parseValue_scalar _ (isWhitespace_of_isNumberUnit hu) ?_ ?_ ?_
  all_goals
    rintro rfl
    exact absurd hu (by decide)

/-- A number is read back, or `null` if JSON cannot write it. -/
lemma parseValue_number (n : JsNumber) (htail : Ends tail) :
    parseValue (fuel + 1) ((Json.number n).stringify ++ tail) =
      some ((Json.number n).reread, tail) := by
  cases n with
  | int z =>
    refine parseValue_token ?_ (all_isNumberUnit_integerText z) (readNumber_integerText z) htail
    cases z <;> simp [Json.stringify, integerText, decimal_ne_nil]
  | other t =>
    rw [Json.stringify, Json.reread]
    split_ifs with hfinite
    · exact parseValue_null
    · have htext : isDecimalText t.text = true := t.valid.resolve_right hfinite
      have hunits := (Bool.and_eq_true _ _ ▸ htext)
      refine parseValue_token ?_ hunits.1 (readNumber_decimalText htext) htail
      intro hnil
      simp [hnil] at hunits

/-- An array is read back if its items are. -/
lemma parseValue_array {items : List Json}
    (hitems : ∀ item ∈ items, ∀ rest, Ends rest →
      parseValue fuel (item.stringify ++ rest) = some (item.reread, rest)) :
    parseValue (fuel + 1) ((Json.array items).stringify ++ tail) =
      some ((Json.array items).reread, tail) := by
  have hlist := parseList_joinWith isClosing_array (ends_of_closing isClosing_array) hitems
    (fun item _ => starts_stringify item (Or.inl rfl)) tail
  have htext : (Json.array items).stringify ++ tail = charUnit '[' ::
      (joinWith (js ",") (items.map Json.stringify) ++ charUnit ']' :: tail) := by
    rw [Json.stringify, stringifyItems_eq_map, List.append_assoc, List.append_assoc]
    rfl
  rw [htext, parseValue, skipWhitespace_cons (by decide)]
  simp only [if_neg (by decide : charUnit '[' ≠ quoteUnit), if_true, hlist, Json.reread,
    rereadItems_eq_map]
  rfl

/-- An object is read back if its values are. -/
lemma parseValue_object {members : List (JsString × Json)}
    (hvalues : ∀ member ∈ members, ∀ rest, Ends rest →
      parseValue fuel (member.2.stringify ++ rest) = some (member.2.reread, rest)) :
    parseValue (fuel + 1) ((Json.object members).stringify ++ tail) =
      some ((Json.object members).reread, tail) := by
  have hmembers : ∀ member ∈ members, ∀ rest, Ends rest →
      parseMember (parseValue fuel) (memberText member ++ rest) =
        some ((member.1, member.2.reread), rest) := by
    intro member hmember rest hrest
    rw [parseMember, memberText, List.append_assoc, List.append_assoc, parseKey_quote]
    simp only [Option.bind_eq_bind, Option.bind_some, hvalues member hmember rest hrest]
    rfl
  have hlist := parseList_joinWith isClosing_object (ends_of_closing isClosing_object) hmembers
    (fun member _ => starts_memberText member) tail
  have htext : (Json.object members).stringify ++ tail = charUnit '\x7b' ::
      (joinWith (js ",") (members.map memberText) ++ charUnit '\x7d' :: tail) := by
    rw [Json.stringify, stringifyMembers_eq_map, List.append_assoc, List.append_assoc]
    rfl
  rw [htext, parseValue, skipWhitespace_cons (by decide)]
  simp only [if_neg (by decide : charUnit '\x7b' ≠ quoteUnit),
    if_neg (by decide : charUnit '\x7b' ≠ charUnit '['), if_true, hlist, Json.reread,
    rereadMembers_eq_map]
  rfl

/-- **A value is read back from its text**, whatever follows it, up to what JSON cannot write.
The induction is on the fuel, which bounds the length of the text. -/
theorem parseValue_stringify {v : Json} (hfuel : v.stringify.length ≤ fuel) (htail : Ends tail) :
    parseValue fuel (v.stringify ++ tail) = some (v.reread, tail) := by
  induction fuel generalizing v tail with
  | zero =>
    obtain ⟨u, rest, htext, -, -⟩ := (starts_stringify v (Or.inl rfl)).head
    simp [htext] at hfuel
  | succ fuel ih =>
    cases v with
    | null => exact parseValue_null
    | bool b =>
      cases b with
      | true =>
        exact parseValue_scalar (u := charUnit 't') (js "rue" ++ tail) (by decide) (by decide)
          (by decide) (by decide)
      | false =>
        exact parseValue_scalar (u := charUnit 'f') (js "alse" ++ tail) (by decide) (by decide)
          (by decide) (by decide)
    | number n => exact parseValue_number n htail
    | string s =>
      rw [Json.stringify, quote, List.cons_append, List.append_assoc, parseValue,
        skipWhitespace_cons (by decide)]
      simp [parseStringBody_quoteBody, Json.reread]
    | array items =>
      refine parseValue_array fun item hitem rest hrest => ih ?_ hrest
      have hle := length_write_le_joinWith Json.stringify hitem
      rw [Json.stringify, stringifyItems_eq_map, List.length_append, List.length_append] at hfuel
      have hopen : (js "[").length = 1 := rfl
      omega
    | object members =>
      refine parseValue_object fun member hmember rest hrest => ih ?_ hrest
      have hle := length_write_le_joinWith memberText hmember
      rw [Json.stringify, stringifyMembers_eq_map, List.length_append, List.length_append] at hfuel
      rw [memberText, List.length_append] at hle
      have hopen : (js "\x7b").length = 1 := rfl
      omega

end Parsing

/-- **Writing and reading a value** gives the value back, up to what JSON cannot write. -/
theorem parse_stringify (v : Json) : Json.parse v.stringify = some v.reread := by
  have hvalue : parseValue v.stringify.length (v.stringify ++ []) = some (v.reread, []) :=
    parseValue_stringify le_rfl (by simp [Ends])
  rw [List.append_nil] at hvalue
  simp [Json.parse, hvalue, skipWhitespace]

end MultiPartEvent
