import MultiPartEvent.Js.JsonParse
import MultiPartEvent.Js.Numbers

/-!
# Reading any JSON text

`JSON.parse` on texts that anyone may have written: the number grammar of JSON, numbers kept by a
text of their value.  Every reader here consumes a part of the text and returns the rest, and what
follows the rest does not change what is read (`Reads`); so the text of an object does not go on
(`readJson_object_append`), and a file that is cut short is not the text of an object.
-/

namespace MultiPartEvent

/-! ### The reader -/

/-- A decimal digit. -/
def isDigitUnit (u : CodeUnit) : Bool := 48 ≤ u.val && u.val ≤ 57

/-- The units of JSON numbers. -/
def isTokenUnit (u : CodeUnit) : Bool := isNumberUnit u || u = charUnit 'E'

/-- At least one digit and nothing else. -/
def isDigits (text : JsString) : Bool := text ≠ [] && text.all isDigitUnit

/-- An exponent, or nothing. -/
def isExponent : JsString → Bool
  | [] => true
  | u :: rest =>
    (u = charUnit 'e' || u = charUnit 'E') &&
      isDigits (if rest.head? ∈ [some (charUnit '+'), some (charUnit '-')] then rest.tail else rest)

/-- What may follow the whole part of a number. -/
def isFraction : JsString → Bool
  | [] => true
  | u :: rest =>
    if u = charUnit '.' then
      isDigits (rest.takeWhile isDigitUnit) && isExponent (rest.dropWhile isDigitUnit)
    else isExponent (u :: rest)

/-- The grammar of JSON numbers. -/
def isJsonNumber (token : JsString) : Bool :=
  let unsigned := if token.head? = some (charUnit '-') then token.tail else token
  let whole := unsigned.takeWhile isDigitUnit
  isDigits whole && (whole.length = 1 || whole.head? ≠ some (charUnit '0')) &&
    isFraction (unsigned.dropWhile isDigitUnit)

/-- The number of a token, by a text of its value: the token with a lowercase exponent mark. -/
def readJsonNumber (token : JsString) : Option JsNumber :=
  let text := token.map fun u => if u = charUnit 'E' then charUnit 'e' else u
  if isJsonNumber token = false then none
  else if h : isDecimalText text = true then some (.other ⟨text, Or.inl h⟩)
  else some (.int (readInteger token))

/-- Read a word or a number at the start of a text. -/
def readScalar (text : JsString) : Option (Json × JsString) :=
  if (js "null").isPrefixOf text then some (.null, text.drop 4)
  else if (js "true").isPrefixOf text then some (.bool true, text.drop 4)
  else if (js "false").isPrefixOf text then some (.bool false, text.drop 5)
  else (readJsonNumber (text.takeWhile isTokenUnit)).map fun n =>
    (.number n, text.dropWhile isTokenUnit)

/-- Read a value at the start of a text: the value and what follows it.  The fuel bounds the
nesting. -/
def readValue : ℕ → JsString → Option (Json × JsString)
  | 0, _ => none
  | fuel + 1, text =>
    match skipWhitespace text with
    | [] => none
    | u :: rest =>
      if u = quoteUnit then (parseStringBody rest).map fun p => (.string p.1, p.2)
      else if u = charUnit '[' then
        (parseList (readValue fuel) (charUnit ']') rest).map fun p => (.array p.1, p.2)
      else if u = charUnit '\x7b' then
        (parseList (parseMember (readValue fuel)) (charUnit '\x7d') rest).map fun p =>
          (.object p.1, p.2)
      else readScalar (u :: rest)

/-- `JSON.parse(text)`, when the text is a JSON text. -/
def readJson (text : JsString) : Option Json :=
  match readValue text.length text with
  | some (value, rest) => if skipWhitespace rest = [] then some value else none
  | none => none

example : readJson (js "[-0.5E+3, 01]") = none := by decide

/-! ### What follows a text that has been read -/

/-- The rest is what the reader leaves of the text, and on a text that goes on after the rest it
reads the same. -/
structure Taken {α : Type} (parse : JsString → Option (α × JsString)) (text : JsString) (value : α)
    (rest : JsString) : Prop where
  suffix : rest <:+ text
  goesOn : ∀ tail, parse (text ++ tail) = some (value, rest ++ tail)

/-- What the first reader reads is read by the second on a text that goes on, if there is a rest: a
number is seen to end only by what follows it. -/
def Reads {α : Type} (parse parse' : JsString → Option (α × JsString)) : Prop :=
  ∀ text value rest, parse text = some (value, rest) →
    rest <:+ text ∧ (rest ≠ [] → ∀ tail, parse' (text ++ tail) = some (value, rest ++ tail))

/-- White space is skipped. -/
lemma skipWhitespace_suffix (text : JsString) : skipWhitespace text <:+ text :=
  List.dropWhile_suffix _

/-- White space is the same in front of what goes on. -/
lemma skipWhitespace_append {text rest : JsString} {u : CodeUnit}
    (h : skipWhitespace text = u :: rest)
    (tail : JsString) : skipWhitespace (text ++ tail) = u :: (rest ++ tail) := by
  unfold skipWhitespace at h ⊢
  rw [List.dropWhile_append, h]
  simp

/-- A text of white space goes on as what follows it. -/
lemma skipWhitespace_append_of_eq_nil {text : JsString} (h : skipWhitespace text = [])
    (tail : JsString) : skipWhitespace (text ++ tail) = skipWhitespace tail := by
  unfold skipWhitespace at h ⊢
  rw [List.dropWhile_append, h]
  simp

/-- A unit before the rest. -/
lemma suffix_cons {rest text : JsString} (h : rest <:+ text) (u : CodeUnit) : rest <:+ u :: text :=
  h.trans (List.suffix_cons u text)

/-- A string ends with its quotation mark. -/
lemma parseStringBody_taken {text rest s : JsString} (h : parseStringBody text = some (s, rest)) :
    Taken parseStringBody text s rest := by
  have hne : backslashUnit ≠ quoteUnit := by decide
  induction text using parseStringBody.induct generalizing s rest with
  | case1 => simp [parseStringBody] at h
  | case2 text =>
    rw [parseStringBody_quoteUnit] at h
    cases h
    exact ⟨List.suffix_cons _ _, fun tail => parseStringBody_quoteUnit _⟩
  | case3 => simp [parseStringBody, hne] at h
  | case4 a b c d text _ ih =>
    rw [parseStringBody.eq_def] at h
    simp only [if_neg hne, if_true, Option.bind_eq_bind, Option.bind_eq_some_iff] at h
    obtain ⟨v, hv, ⟨t, tail'⟩, ht, h⟩ := h
    cases h
    obtain ⟨hsuffix, hon⟩ := ih ht
    refine ⟨?_, ?_⟩
    · exact suffix_cons (suffix_cons (suffix_cons
        (suffix_cons (suffix_cons (suffix_cons hsuffix _) _) _) _) _) _
    · intro tail
      rw [parseStringBody.eq_def]
      simp only [List.cons_append, if_neg hne, if_true, hv, hon, Option.bind_eq_bind,
        Option.bind_some]
      rfl
  | case5 text hshort _ =>
    rw [parseStringBody.eq_def] at h
    simp only [if_neg hne, if_true] at h
    rcases text with _ | ⟨a, _ | ⟨b, _ | ⟨c, _ | ⟨d, text⟩⟩⟩⟩
    · simp at h
    · simp at h
    · simp at h
    · simp at h
    · exact absurd rfl (hshort a b c d text)
  | case6 letter text hletter _ ih =>
    rw [parseStringBody.eq_def] at h
    simp only [if_neg hne, if_true, if_neg hletter, Option.bind_eq_bind,
      Option.bind_eq_some_iff] at h
    obtain ⟨v, hv, ⟨t, tail'⟩, ht, h⟩ := h
    cases h
    obtain ⟨hsuffix, hon⟩ := ih ht
    refine ⟨suffix_cons (suffix_cons hsuffix _) _, ?_⟩
    intro tail
    rw [parseStringBody.eq_def]
    simp only [List.cons_append, if_neg hne, if_true, if_neg hletter, hv, hon, Option.bind_eq_bind,
      Option.bind_some]
    rfl
  | case7 u text hquote hback hcontrol =>
    rw [parseStringBody.eq_def] at h
    simp [hquote, hback, hcontrol] at h
  | case8 u text hquote hback hcontrol ih =>
    rw [parseStringBody_raw hquote hback hcontrol, Option.map_eq_some_iff] at h
    obtain ⟨⟨t, tail'⟩, ht, h⟩ := h
    cases h
    obtain ⟨hsuffix, hon⟩ := ih ht
    refine ⟨suffix_cons hsuffix _, ?_⟩
    intro tail
    rw [List.cons_append, parseStringBody_raw hquote hback hcontrol, hon]
    rfl

/-- A member name ends with its colon. -/
lemma parseKey_taken {text rest key : JsString} (h : parseKey text = some (key, rest)) :
    Taken parseKey text key rest := by
  unfold parseKey at h
  have hsuffix := skipWhitespace_suffix text
  cases hskip : skipWhitespace text with
  | nil => simp [hskip] at h
  | cons u body =>
    rw [hskip] at hsuffix
    by_cases hquote : u = quoteUnit
    · simp only [hskip, hquote, ne_eq, not_true_eq_false, if_false, Option.bind_eq_bind,
        Option.bind_eq_some_iff] at h
      obtain ⟨⟨key', after⟩, hbody, h⟩ := h
      obtain ⟨hbodySuffix, hbodyOn⟩ := parseStringBody_taken hbody
      have hafterSuffix := skipWhitespace_suffix after
      cases hcolon : skipWhitespace after with
      | nil => simp [hcolon] at h
      | cons v value =>
        rw [hcolon] at hafterSuffix
        simp only [hcolon, Option.ite_none_right_eq_some] at h
        obtain ⟨hv, h⟩ := h
        cases h
        refine ⟨?_, ?_⟩
        · exact ((List.suffix_cons _ _).trans hafterSuffix).trans
            (hbodySuffix.trans ((List.suffix_cons _ _).trans hsuffix))
        · intro tail
          simp only [parseKey, skipWhitespace_append hskip, hquote, ne_eq, not_true_eq_false,
            if_false,
            hbodyOn, Option.bind_eq_bind, Option.bind_some, skipWhitespace_append hcolon, hv,
              if_true]
    · simp [hskip, hquote] at h

section Elements

variable {α : Type} {parse parse' : JsString → Option (Json × JsString)}
  {parseElement parseElement' : JsString → Option (α × JsString)} {closing : CodeUnit}

/-- A member is read as its value is. -/
lemma Reads.parseMember (h : Reads parse parse') :
    Reads (parseMember parse) (MultiPartEvent.parseMember parse') := by
  intro text member rest hmember
  simp only [MultiPartEvent.parseMember, Option.bind_eq_bind, Option.bind_eq_some_iff] at hmember
  obtain ⟨⟨key, after⟩, hkey, ⟨value, rest'⟩, hvalue, hmember⟩ := hmember
  cases hmember
  obtain ⟨hkeySuffix, hkeyOn⟩ := parseKey_taken hkey
  obtain ⟨hvalueSuffix, hvalueOn⟩ := h _ _ _ hvalue
  refine ⟨hvalueSuffix.trans hkeySuffix, ?_⟩
  intro hne tail
  simp only [MultiPartEvent.parseMember, hkeyOn, hvalueOn hne, Option.bind_eq_bind,
    Option.bind_some]
  rfl

/-- The elements of a list end with its closing unit. -/
lemma parseElements_taken (h : Reads parseElement parseElement') {fuel fuel' : ℕ}
    (hfuel : fuel ≤ fuel') {text rest : JsString} {l : List α}
    (hparse : parseElements parseElement closing fuel text = some (l, rest)) :
    closing :: rest <:+ text ∧
      ∀ tail, parseElements parseElement' closing fuel' (text ++ tail) =
        some (l, rest ++ tail) := by
  induction fuel generalizing fuel' text l with
  | zero => simp [parseElements] at hparse
  | succ fuel ih =>
    obtain ⟨fuel', rfl⟩ : ∃ n, fuel' = n + 1 := ⟨fuel' - 1, by omega⟩
    simp only [parseElements, Option.bind_eq_bind, Option.bind_eq_some_iff] at hparse
    obtain ⟨⟨element, after⟩, helement, hparse⟩ := hparse
    obtain ⟨helementSuffix, helementOn⟩ := h _ _ _ helement
    have hskipSuffix := skipWhitespace_suffix after
    cases hskip : skipWhitespace after with
    | nil => simp [hskip] at hparse
    | cons u next =>
      rw [hskip] at hskipSuffix
      have hne : after ≠ [] := by
        rintro rfl
        simp [skipWhitespace] at hskip
      by_cases hclosing : u = closing
      · simp only [hskip, hclosing, if_true] at hparse
        cases hparse
        rw [hclosing] at hskipSuffix
        refine ⟨hskipSuffix.trans helementSuffix, ?_⟩
        intro tail
        simp only [parseElements, helementOn hne, Option.bind_eq_bind, Option.bind_some,
          skipWhitespace_append hskip, hclosing, if_true]
      · simp only [hskip, if_neg hclosing, Option.ite_none_right_eq_some, Option.bind_eq_some_iff]
          at hparse
        obtain ⟨hcomma, ⟨elements, rest'⟩, helements, hparse⟩ := hparse
        cases hparse
        obtain ⟨hrestSuffix, hrestOn⟩ := ih (Nat.le_of_succ_le_succ hfuel) helements
        refine ⟨hrestSuffix.trans ((List.suffix_cons _ _).trans (hskipSuffix.trans helementSuffix)),
          ?_⟩
        intro tail
        simp only [parseElements, helementOn hne, Option.bind_eq_bind, Option.bind_some,
          skipWhitespace_append hskip, if_neg hclosing, if_pos hcomma, hrestOn]
        rfl

/-- A list ends with its closing unit. -/
lemma parseList_taken (h : Reads parseElement parseElement') {text rest : JsString} {l : List α}
    (hparse : parseList parseElement closing text = some (l, rest)) :
    closing :: rest <:+ text ∧
      ∀ tail, parseList parseElement' closing (text ++ tail) = some (l, rest ++ tail) := by
  unfold parseList at hparse
  have hsuffix := skipWhitespace_suffix text
  cases hskip : skipWhitespace text with
  | nil => simp [hskip] at hparse
  | cons u next =>
    rw [hskip] at hsuffix
    by_cases hclosing : u = closing
    · simp only [hskip, hclosing, if_true] at hparse
      cases hparse
      rw [hclosing] at hsuffix
      refine ⟨hsuffix, ?_⟩
      intro tail
      simp only [parseList, skipWhitespace_append hskip, hclosing, if_true]
    · simp only [hskip, if_neg hclosing] at hparse
      have hlength : text.length ≤ (text ++ []).length := by simp
      obtain ⟨hrest, -⟩ := parseElements_taken h hlength hparse
      refine ⟨hrest.trans hsuffix, ?_⟩
      intro tail
      have hle : text.length ≤ (text ++ tail).length := by simp
      obtain ⟨-, hon⟩ := parseElements_taken h hle hparse
      simp only [parseList, skipWhitespace_append hskip, if_neg hclosing]
      exact hon tail

end Elements

/-- A word at the start of a text is one at the start of a text that goes on. -/
lemma isPrefixOf_append {word text : JsString} (h : word.isPrefixOf text = true) (tail : JsString) :
    word.isPrefixOf (text ++ tail) = true ∧
      (text ++ tail).drop word.length = text.drop word.length ++ tail := by
  rw [List.isPrefixOf_iff_prefix] at h ⊢
  refine ⟨h.trans (List.prefix_append _ _), ?_⟩
  exact List.drop_append_of_le_length h.length_le

/-- No word starts with a unit of numbers. -/
lemma isPrefixOf_eq_false_of_token {word text : JsString} {u : CodeUnit}
    (htext : text.head? = some u)
    (hu : isTokenUnit u = true) (hword : ∃ v, word.head? = some v ∧ isTokenUnit v = false) :
    word.isPrefixOf text = false := by
  obtain ⟨v, hv, hother⟩ := hword
  refine isPrefixOf_eq_false hv htext ?_
  rintro rfl
  rw [hu] at hother
  cases hother

/-- A word or a number followed by something else is read in front of everything. -/
lemma reads_readScalar : Reads readScalar readScalar := by
  intro text value rest h
  unfold readScalar at h
  by_cases hnull : (js "null").isPrefixOf text = true
  · rw [if_pos hnull] at h
    cases h
    refine ⟨List.drop_suffix _ _, fun _ tail => ?_⟩
    obtain ⟨hstart, hdrop⟩ := isPrefixOf_append hnull tail
    rw [readScalar, if_pos hstart]
    exact congrArg (fun r => some (Json.null, r)) hdrop
  rw [if_neg hnull] at h
  by_cases htrue : (js "true").isPrefixOf text = true
  · rw [if_pos htrue] at h
    cases h
    refine ⟨List.drop_suffix _ _, fun _ tail => ?_⟩
    obtain ⟨hstart, hdrop⟩ := isPrefixOf_append htrue tail
    have hhead : text.head? = some (charUnit 't') := by
      obtain ⟨t, rfl⟩ := List.isPrefixOf_iff_prefix.mp htrue
      rfl
    have hother : (js "null").isPrefixOf (text ++ tail) = false := by
      refine isPrefixOf_eq_false rfl ?_ (by decide : charUnit 'n' ≠ charUnit 't')
      rw [List.head?_append, hhead]
      rfl
    rw [readScalar, hother, if_pos hstart]
    exact congrArg (fun r => some (Json.bool true, r)) hdrop
  rw [if_neg htrue] at h
  by_cases hfalse : (js "false").isPrefixOf text = true
  · rw [if_pos hfalse] at h
    cases h
    refine ⟨List.drop_suffix _ _, fun _ tail => ?_⟩
    obtain ⟨hstart, hdrop⟩ := isPrefixOf_append hfalse tail
    have hhead : (text ++ tail).head? = some (charUnit 'f') := by
      obtain ⟨t, rfl⟩ := List.isPrefixOf_iff_prefix.mp hfalse
      rfl
    rw [readScalar, isPrefixOf_eq_false rfl hhead (by decide : charUnit 'n' ≠ charUnit 'f'),
      isPrefixOf_eq_false rfl hhead (by decide : charUnit 't' ≠ charUnit 'f'), if_pos hstart]
    exact congrArg (fun r => some (Json.bool false, r)) hdrop
  rw [if_neg hfalse, Option.map_eq_some_iff] at h
  obtain ⟨n, hn, h⟩ := h
  cases h
  refine ⟨List.dropWhile_suffix _, fun hne tail => ?_⟩
  -- the token is not empty, so its first unit starts the text
  obtain ⟨u, more, htext⟩ : ∃ u more, text = u :: more := by
    cases text with
    | nil => exact absurd rfl hne
    | cons u more => exact ⟨u, more, rfl⟩
  have hu : isTokenUnit u = true := by
    by_contra hnot
    have hnone : readJsonNumber [] = none := rfl
    rw [htext, List.takeWhile_cons_of_neg hnot, hnone] at hn
    cases hn
  have hhead : (text ++ tail).head? = some u := by
    rw [htext]
    rfl
  have htake : (text ++ tail).takeWhile isTokenUnit = text.takeWhile isTokenUnit ∧
      (text ++ tail).dropWhile isTokenUnit = text.dropWhile isTokenUnit ++ tail := by
    have hdrop : (text ++ tail).dropWhile isTokenUnit = text.dropWhile isTokenUnit ++ tail := by
      rw [List.dropWhile_append, if_neg (by simpa using hne)]
    refine ⟨?_, hdrop⟩
    have hsplit := List.takeWhile_append_dropWhile (p := isTokenUnit) (l := text ++ tail)
    rw [hdrop, ← List.append_assoc, List.append_left_inj] at hsplit
    have hsplit' := List.takeWhile_append_dropWhile (p := isTokenUnit) (l := text)
    exact List.append_cancel_right (hsplit.trans hsplit'.symm)
  rw [readScalar, isPrefixOf_eq_false_of_token hhead hu ⟨charUnit 'n', rfl, by decide⟩,
    isPrefixOf_eq_false_of_token hhead hu ⟨charUnit 't', rfl, by decide⟩,
    isPrefixOf_eq_false_of_token hhead hu ⟨charUnit 'f', rfl, by decide⟩, htake.1, htake.2, hn]
  rfl

/-- A word or a number is no object. -/
lemma readScalar_ne_object (text rest : JsString) (members : List (JsString × Json)) :
    readScalar text ≠ some (.object members, rest) := by
  unfold readScalar
  intro h
  split_ifs at h
  · cases h
  · cases h
  · cases h
  · rw [Option.map_eq_some_iff] at h
    obtain ⟨_, _, h⟩ := h
    cases h

/-- A value followed by something else is read in front of everything, with more fuel. -/
lemma reads_readValue {fuel fuel' : ℕ} (hfuel : fuel ≤ fuel') :
    Reads (readValue fuel) (readValue fuel') := by
  induction fuel generalizing fuel' with
  | zero =>
    intro text value rest h
    simp [readValue] at h
  | succ fuel ih =>
    obtain ⟨fuel', rfl⟩ : ∃ n, fuel' = n + 1 := ⟨fuel' - 1, by omega⟩
    have hinner := ih (Nat.le_of_succ_le_succ hfuel)
    intro text value rest h
    rw [readValue] at h
    have hsuffix := skipWhitespace_suffix text
    cases hskip : skipWhitespace text with
    | nil => simp [hskip] at h
    | cons u body =>
      rw [hskip] at hsuffix
      have hbody : body <:+ text := (List.suffix_cons _ _).trans hsuffix
      simp only [hskip] at h
      by_cases hquote : u = quoteUnit
      · rw [if_pos hquote, Option.map_eq_some_iff] at h
        obtain ⟨⟨s, rest'⟩, hs, h⟩ := h
        cases h
        obtain ⟨htaken, hon⟩ := parseStringBody_taken hs
        refine ⟨htaken.trans hbody, fun _ tail => ?_⟩
        rw [readValue, skipWhitespace_append hskip]
        simp only [if_pos hquote, hon, Option.map_some]
      rw [if_neg hquote] at h
      by_cases harray : u = charUnit '['
      · rw [if_pos harray, Option.map_eq_some_iff] at h
        obtain ⟨⟨items, rest'⟩, hitems, h⟩ := h
        cases h
        obtain ⟨htaken, hon⟩ := parseList_taken hinner hitems
        refine ⟨(List.suffix_cons _ _).trans (htaken.trans hbody), fun _ tail => ?_⟩
        rw [readValue, skipWhitespace_append hskip]
        simp only [if_neg hquote, if_pos harray, hon, Option.map_some]
      rw [if_neg harray] at h
      by_cases hobject : u = charUnit '\x7b'
      · rw [if_pos hobject, Option.map_eq_some_iff] at h
        obtain ⟨⟨members, rest'⟩, hmembers, h⟩ := h
        cases h
        obtain ⟨htaken, hon⟩ := parseList_taken hinner.parseMember hmembers
        refine ⟨(List.suffix_cons _ _).trans (htaken.trans hbody), fun _ tail => ?_⟩
        rw [readValue, skipWhitespace_append hskip]
        simp only [if_neg hquote, if_neg harray, if_pos hobject, hon, Option.map_some]
      rw [if_neg hobject] at h
      obtain ⟨htaken, hon⟩ := reads_readScalar _ _ _ h
      refine ⟨htaken.trans hsuffix, fun hne tail => ?_⟩
      rw [readValue, skipWhitespace_append hskip]
      simp only [if_neg hquote, if_neg harray, if_neg hobject]
      exact hon hne tail

/-- The reading of an object ends with its brace, with more fuel and whatever follows. -/
lemma readValue_object_taken {fuel : ℕ} {text rest : JsString} {members : List (JsString × Json)}
    (h : readValue fuel text = some (.object members, rest)) :
    charUnit '\x7d' :: rest <:+ text ∧ ∀ fuel' ≥ fuel, ∀ tail,
      readValue fuel' (text ++ tail) = some (.object members, rest ++ tail) := by
  cases fuel with
  | zero => simp [readValue] at h
  | succ fuel =>
    rw [readValue] at h
    have hsuffix := skipWhitespace_suffix text
    cases hskip : skipWhitespace text with
    | nil => simp [hskip] at h
    | cons u body =>
      rw [hskip] at hsuffix
      simp only [hskip] at h
      by_cases hquote : u = quoteUnit
      · rw [if_pos hquote, Option.map_eq_some_iff] at h
        obtain ⟨_, _, h⟩ := h
        cases h
      rw [if_neg hquote] at h
      by_cases harray : u = charUnit '['
      · rw [if_pos harray, Option.map_eq_some_iff] at h
        obtain ⟨_, _, h⟩ := h
        cases h
      rw [if_neg harray] at h
      by_cases hobject : u = charUnit '\x7b'
      · rw [if_pos hobject, Option.map_eq_some_iff] at h
        obtain ⟨⟨members', rest'⟩, hmembers, h⟩ := h
        cases h
        have hbody : body <:+ text := (List.suffix_cons _ _).trans hsuffix
        refine ⟨((parseList_taken (reads_readValue le_rfl).parseMember hmembers).1).trans hbody, ?_⟩
        intro fuel' hfuel tail
        obtain ⟨fuel', rfl⟩ : ∃ n, fuel' = n + 1 := ⟨fuel' - 1, by omega⟩
        have hinner := reads_readValue (Nat.le_of_succ_le_succ hfuel)
        rw [readValue, skipWhitespace_append hskip]
        simp only [if_neg hquote, if_neg harray, if_pos hobject,
          (parseList_taken hinner.parseMember hmembers).2, Option.map_some]
      rw [if_neg hobject] at h
      exact absurd h (readScalar_ne_object _ _ _)

/-- A text that is read as a value is the value and white space. -/
lemma readJson_eq_some_iff {text : JsString} {v : Json} : readJson text = some v ↔
    ∃ rest, readValue text.length text = some (v, rest) ∧ skipWhitespace rest = [] := by
  unfold readJson
  cases hread : readValue text.length text with
  | none => simp
  | some p =>
    obtain ⟨value, rest⟩ := p
    simp [and_comm]

/-- **The text of an object does not go on**: nothing but white space may follow it. -/
theorem readJson_object_append {text tail : JsString} {members : List (JsString × Json)} {v : Json}
    (h : readJson text = some (.object members)) (hon : readJson (text ++ tail) = some v) :
    skipWhitespace tail = [] := by
  obtain ⟨rest, hread, hrest⟩ := readJson_eq_some_iff.mp h
  obtain ⟨rest', hread', hrest'⟩ := readJson_eq_some_iff.mp hon
  have hlonger := (readValue_object_taken hread).2 (text ++ tail).length (by simp) tail
  rw [hlonger] at hread'
  cases hread'
  rwa [skipWhitespace_append_of_eq_nil hrest] at hrest'

/-- The text of an object ends with its brace or with white space. -/
lemma readJson_object_getLast {text : JsString} {members : List (JsString × Json)} {u : CodeUnit}
    (h : readJson (text ++ [u]) = some (.object members)) :
    u = charUnit '\x7d' ∨ isWhitespace u = true := by
  obtain ⟨rest, hread, hrest⟩ := readJson_eq_some_iff.mp h
  obtain ⟨taken, htaken⟩ := (readValue_object_taken hread).1
  rcases List.eq_nil_or_concat rest with rfl | ⟨front, w, rfl⟩
  · have hlast := List.append_inj_right' htaken.symm rfl
    exact Or.inl (List.cons.inj hlast).1
  · have hsame : taken ++ charUnit '\x7d' :: front ++ [w] = text ++ [u] := by
      rw [← htaken]
      simp
    have hlast := List.append_inj_right' hsame.symm rfl
    have hu : u = w := (List.cons.inj hlast).1
    rw [skipWhitespace, List.dropWhile_eq_nil_iff] at hrest
    exact Or.inr (hu ▸ hrest w (by simp))

/-! ### Reading flat objects back -/

/-- A value that is read back from its text: a string, or an integer whose text is a JSON number. -/
def Json.IsPlain : Json → Prop
  | .string _ => True
  | .number (.int z) => readJsonNumber (integerText z) = some (.int z)
  | _ => False

/-- What follows a number does not continue it. -/
def EndsToken (tail : JsString) : Prop := ∀ u ∈ tail.head?, isTokenUnit u = false

/-- An integer is read back in front of what does not continue it. -/
lemma readScalar_integerText {z : ℤ} (hz : readJsonNumber (integerText z) = some (.int z))
    {tail : JsString} (htail : EndsToken tail) :
    readScalar (integerText z ++ tail) = some (.number (.int z), tail) := by
  have hunits : ∀ u ∈ integerText z, isTokenUnit u = true := by
    intro u hu
    have hall := List.all_eq_true.mp (all_isNumberUnit_integerText z) u hu
    simp [isTokenUnit, hall]
  obtain ⟨u, rest, htext⟩ : ∃ u rest, integerText z = u :: rest := by
    cases htext : integerText z with
    | nil =>
      have hnone : readJsonNumber [] = none := rfl
      rw [htext, hnone] at hz
      cases hz
    | cons u rest => exact ⟨u, rest, rfl⟩
  have hu : isTokenUnit u = true := hunits u (htext ▸ List.mem_cons_self)
  have hhead : (integerText z ++ tail).head? = some u := by
    rw [htext]
    rfl
  have htake : (integerText z ++ tail).takeWhile isTokenUnit = integerText z ∧
      (integerText z ++ tail).dropWhile isTokenUnit = tail := by
    rw [List.takeWhile_append_of_pos hunits, List.dropWhile_append_of_pos hunits]
    cases tail with
    | nil => simp
    | cons v tail =>
      have hv : isTokenUnit v = false := htail v rfl
      simp [hv]
  rw [readScalar, isPrefixOf_eq_false_of_token hhead hu ⟨charUnit 'n', rfl, by decide⟩,
    isPrefixOf_eq_false_of_token hhead hu ⟨charUnit 't', rfl, by decide⟩,
    isPrefixOf_eq_false_of_token hhead hu ⟨charUnit 'f', rfl, by decide⟩, htake.1, htake.2, hz]
  rfl

/-- A plain value is read back. -/
lemma readValue_plain {v : Json} (hv : v.IsPlain) (fuel : ℕ) {tail : JsString}
    (htail : EndsToken tail) : readValue (fuel + 1) (v.stringify ++ tail) = some (v, tail) := by
  cases v with
  | string s =>
    rw [Json.stringify, quote, List.cons_append, List.append_assoc, readValue,
      skipWhitespace_cons (by decide)]
    simp [parseStringBody_quoteBody]
  | number n =>
    cases n with
    | other t => exact absurd hv id
    | int z =>
      have hscalar := readScalar_integerText hv htail
      obtain ⟨u, rest, htext, hspace, -⟩ := (starts_stringify (.number (.int z)) (Or.inl rfl)).head
      have hunit : isNumberUnit u = true := by
        have hmem : u ∈ integerText z := by
          rw [Json.stringify] at htext
          rw [htext]
          exact List.mem_cons_self
        exact List.all_eq_true.mp (all_isNumberUnit_integerText z) u hmem
      have hother : ∀ w : CodeUnit, isNumberUnit w = false → u ≠ w := by
        intro w hw
        rintro rfl
        rw [hunit] at hw
        cases hw
      rw [Json.stringify] at htext ⊢
      rw [← hscalar, htext, List.cons_append, readValue, skipWhitespace_cons hspace]
      simp only [if_neg (hother quoteUnit (by decide)), if_neg (hother (charUnit '[') (by decide)),
        if_neg (hother (charUnit '\x7b') (by decide))]
  | null => exact absurd hv id
  | bool b => exact absurd hv id
  | array items => exact absurd hv id
  | object members => exact absurd hv id

/-- **A flat object is read back** from its text and the white space after it. -/
theorem readJson_stringify {members : List (JsString × Json)}
    (h : ∀ member ∈ members, member.2.IsPlain)
    {space : JsString} (hspace : skipWhitespace space = []) :
    readJson ((Json.object members).stringify ++ space) = some (.object members) := by
  rw [readJson_eq_some_iff]
  refine ⟨space, ?_, hspace⟩
  have htext : (Json.object members).stringify ++ space = charUnit '\x7b' ::
      (joinWith (js ",") (members.map memberText) ++ charUnit '\x7d' :: space) := by
    rw [Json.stringify, stringifyMembers_eq_map, List.append_assoc, List.append_assoc]
    rfl
  rw [htext]
  obtain ⟨fuel, hfuel⟩ : ∃ fuel, (charUnit '\x7b' ::
      (joinWith (js ",") (members.map memberText) ++ charUnit '\x7d' :: space)).length =
        fuel + 2 := by
    simp only [List.length_cons, List.length_append]
    exact ⟨_, rfl⟩
  have hmembers : ∀ member ∈ members, ∀ rest, EndsToken rest →
      parseMember (readValue (fuel + 1)) (memberText member ++ rest) = some (member, rest) := by
    intro member hmember rest hrest
    rw [parseMember, memberText, List.append_assoc, List.append_assoc, parseKey_quote]
    simp only [Option.bind_eq_bind, Option.bind_some, readValue_plain (h member hmember) fuel hrest]
    rfl
  have hends : ∀ u rest, u = charUnit '\x7d' ∨ u = charUnit ',' → EndsToken (u :: rest) := by
    intro u rest hu v hv
    cases hv
    rcases hu with rfl | rfl <;> decide
  have hlist : parseList (parseMember (readValue (fuel + 1))) (charUnit '\x7d')
      (joinWith (js ",") (members.map memberText) ++ charUnit '\x7d' :: space) =
        some (members.map id, space) :=
    parseList_joinWith isClosing_object hends hmembers
      (fun member _ => starts_memberText member) space
  rw [hfuel, readValue, skipWhitespace_cons (by decide)]
  simp only [if_neg (by decide : charUnit '\x7b' ≠ quoteUnit),
    if_neg (by decide : charUnit '\x7b' ≠ charUnit '['), if_true, hlist, List.map_id,
      Option.map_some]

end MultiPartEvent
