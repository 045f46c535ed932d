import MultiPartEvent.Js.Utf8

/-!
# JSON texts

`JSON.stringify` without indentation, on the values the program writes: strings are quoted as
`QuoteJSONString` does (two-character escapes, `\u` escapes for the other control characters
and for lone surrogates), arrays and objects list their members in order.

`parseStringBody` reads a quoted string back; `parseStringBody_quoteBody` is the round trip,
from which quoting is injective also in front of any continuation.
-/

namespace MultiPartEvent

/-- A JSON value, object members in order. -/
inductive Json where
  | null
  | bool (value : Bool)
  | number (value : JsNumber)
  | string (value : JsString)
  | array (items : List Json)
  | object (members : List (JsString × Json))

/-- The quotation mark. -/
def quoteUnit : CodeUnit := 0x22

/-- The backslash. -/
def backslashUnit : CodeUnit := 0x5C

/-- The `\u` escape of a code unit. -/
def unicodeEscape (u : CodeUnit) : JsString :=
  [backslashUnit, 0x75, hexUnit (u.val / 4096), hexUnit (u.val / 256 % 16),
    hexUnit (u.val / 16 % 16), hexUnit (u.val % 16)]

/-- The letter of a two-character escape. -/
def escapeLetter? (u : CodeUnit) : Option CodeUnit :=
  if u = 0x08 then some 0x62
  else if u = 0x09 then some 0x74
  else if u = 0x0A then some 0x6E
  else if u = 0x0C then some 0x66
  else if u = 0x0D then some 0x72
  else if u = quoteUnit then some quoteUnit
  else if u = backslashUnit then some backslashUnit
  else none

/-- The text of a code unit that is not part of a surrogate pair. -/
def escapeUnit (u : CodeUnit) : JsString :=
  match escapeLetter? u with
  | some letter => [backslashUnit, letter]
  | none =>
    if u.val < 0x20 || isHighSurrogate u || isLowSurrogate u then unicodeEscape u else [u]

/-- The text between the quotation marks of a JSON string. -/
def quoteBody : JsString → JsString
  | [] => []
  | [u] => escapeUnit u
  | u :: v :: rest =>
    if isHighSurrogate u && isLowSurrogate v then u :: v :: quoteBody rest
    else escapeUnit u ++ quoteBody (v :: rest)

/-- A string in JSON quotation marks. -/
def quote (s : JsString) : JsString := quoteUnit :: (quoteBody s ++ [quoteUnit])

/-- The values of a list with a separator between them. -/
def joinWith (separator : JsString) : List JsString → JsString
  | [] => []
  | [t] => t
  | t :: rest => t ++ separator ++ joinWith separator rest

mutual

/-- `JSON.stringify(value)`. -/
def Json.stringify : Json → JsString
  | .null => js "null"
  | .bool true => js "true"
  | .bool false => js "false"
  | .number (.int z) => integerText z
  | .number (.other t) =>
    -- a number that is not finite is written as `null`
    if t.text ∈ nonFiniteTexts then js "null" else t.text
  | .string s => quote s
  | .array items => js "[" ++ joinWith (js ",") (stringifyItems items) ++ js "]"
  | .object members => js "\x7b" ++ joinWith (js ",") (stringifyMembers members) ++ js "\x7d"

/-- The texts of the items of an array. -/
def stringifyItems : List Json → List JsString
  | [] => []
  | item :: rest => item.stringify :: stringifyItems rest

/-- The texts of the members of an object. -/
def stringifyMembers : List (JsString × Json) → List JsString
  | [] => []
  | (key, value) :: rest => (quote key ++ js ":" ++ value.stringify) :: stringifyMembers rest

end

/-! ### Reading a quoted string -/

/-- The code unit a two-character escape stands for. -/
def unescapeLetter? (u : CodeUnit) : Option CodeUnit :=
  if u = 0x62 then some 0x08
  else if u = 0x74 then some 0x09
  else if u = 0x6E then some 0x0A
  else if u = 0x66 then some 0x0C
  else if u = 0x72 then some 0x0D
  else if u = quoteUnit ∨ u = backslashUnit ∨ u = 0x2F then some u
  else none

/-- The code unit of four hex digits. -/
def hex4? (a b c d : CodeUnit) : Option CodeUnit := do
  return Fin.ofNat 65536
    ((← hexDigit? a) * 4096 + (← hexDigit? b) * 256 + (← hexDigit? c) * 16 + (← hexDigit? d))

/-- Read a JSON string after its opening quotation mark: the string and what follows it. -/
def parseStringBody : JsString → Option (JsString × JsString)
  | [] => none
  | u :: rest =>
    if u = quoteUnit then some ([], rest)
    else if u = backslashUnit then
      match rest with
      | [] => none
      | letter :: rest =>
        if letter = 0x75 then
          match rest with
          | a :: b :: c :: d :: rest => do
            let v ← hex4? a b c d
            let (s, tail) ← parseStringBody rest
            return (v :: s, tail)
          | _ => none
        else do
          let v ← unescapeLetter? letter
          let (s, tail) ← parseStringBody rest
          return (v :: s, tail)
    else if u.val < 0x20 then none
    else do
      let (s, tail) ← parseStringBody rest
      return (u :: s, tail)

/-- A two-character escape is read back, and is not a `\u` escape. -/
lemma unescapeLetter?_escapeLetter? {u letter : CodeUnit} (h : escapeLetter? u = some letter) :
    unescapeLetter? letter = some u ∧ letter ≠ 0x75 := by
  unfold escapeLetter? at h
  split_ifs at h <;> cases h <;> subst_vars <;> decide

/-- The four hex digits of a code unit are read back. -/
lemma hex4?_unicodeEscape (u : CodeUnit) :
    hex4? (hexUnit (u.val / 4096)) (hexUnit (u.val / 256 % 16)) (hexUnit (u.val / 16 % 16))
      (hexUnit (u.val % 16)) = some u := by
  unfold hex4?
  rw [hexDigit?_hexUnit _ (by omega), hexDigit?_hexUnit _ (by omega),
    hexDigit?_hexUnit _ (by omega), hexDigit?_hexUnit _ (by omega)]
  have hdigits : u.val / 4096 * 4096 + u.val / 256 % 16 * 256 + u.val / 16 % 16 * 16 +
      u.val % 16 = u.val := by omega
  simp [hdigits]

/-- A code unit that needs no escape is neither a quotation mark nor a backslash. -/
lemma ne_of_escapeLetter?_eq_none {u : CodeUnit} (h : escapeLetter? u = none) :
    u ≠ quoteUnit ∧ u ≠ backslashUnit := by
  constructor <;> rintro rfl <;> exact absurd h (by decide)

/-- A surrogate is neither a quotation mark, a backslash nor a control character. -/
lemma surrogate_facts {u : CodeUnit} (h : isHighSurrogate u = true ∨ isLowSurrogate u = true) :
    u ≠ quoteUnit ∧ u ≠ backslashUnit ∧ ¬u.val < 0x20 := by
  simp only [isHighSurrogate, isLowSurrogate, Bool.and_eq_true, decide_eq_true_eq] at h
  refine ⟨?_, ?_, by omega⟩ <;> rintro rfl <;> revert h <;> decide

/-- The closing quotation mark ends the string. -/
lemma parseStringBody_quoteUnit (tail : JsString) :
    parseStringBody (quoteUnit :: tail) = some ([], tail) := by
  rw [parseStringBody.eq_def]
  simp

/-- A code unit written as it is, is read as it is. -/
lemma parseStringBody_raw {u : CodeUnit} (hquote : u ≠ quoteUnit) (hback : u ≠ backslashUnit)
    (hcontrol : ¬u.val < 0x20) (tail : JsString) :
    parseStringBody (u :: tail) = (parseStringBody tail).map (fun p => (u :: p.1, p.2)) := by
  rw [parseStringBody.eq_def]
  simp only [if_neg hquote, if_neg hback, if_neg hcontrol]
  cases parseStringBody tail <;> rfl

/-- The text of a code unit is read back as the unit. -/
lemma parseStringBody_escapeUnit (u : CodeUnit) (tail : JsString) :
    parseStringBody (escapeUnit u ++ tail) =
      (parseStringBody tail).map (fun p => (u :: p.1, p.2)) := by
  have hne : backslashUnit ≠ quoteUnit := by decide
  unfold escapeUnit
  cases hletter : escapeLetter? u with
  | some letter =>
    obtain ⟨hread, hletter⟩ := unescapeLetter?_escapeLetter? hletter
    simp only [List.cons_append, List.nil_append]
    rw [parseStringBody.eq_def]
    simp only [if_neg hne, if_pos, if_neg hletter, hread]
    cases parseStringBody tail <;> rfl
  | none =>
    obtain ⟨hquote, hback⟩ := ne_of_escapeLetter?_eq_none hletter
    simp only
    split_ifs with hescape
    · simp only [unicodeEscape, List.cons_append, List.nil_append]
      rw [parseStringBody.eq_def]
      simp only [if_neg hne, if_pos, hex4?_unicodeEscape]
      cases parseStringBody tail <;> rfl
    · have hcontrol : ¬u.val < 0x20 := by
        intro h
        exact hescape (by simp [h])
      exact parseStringBody_raw hquote hback hcontrol tail

/-- A quoted string is read back, whatever follows it. -/
theorem parseStringBody_quoteBody (s tail : JsString) :
    parseStringBody (quoteBody s ++ quoteUnit :: tail) = some (s, tail) := by
  induction s using quoteBody.induct with
  | case1 => rw [quoteBody, List.nil_append, parseStringBody_quoteUnit]
  | case2 u =>
    rw [quoteBody, parseStringBody_escapeUnit, parseStringBody_quoteUnit]
    rfl
  | case3 u v rest hpair ih =>
    rw [quoteBody, if_pos hpair]
    rw [Bool.and_eq_true] at hpair
    obtain ⟨hu, hub, huc⟩ := surrogate_facts (Or.inl hpair.1)
    obtain ⟨hv, hvb, hvc⟩ := surrogate_facts (Or.inr hpair.2)
    rw [List.cons_append, List.cons_append, parseStringBody_raw hu hub huc,
      parseStringBody_raw hv hvb hvc, ih]
    rfl
  | case4 u v rest hpair ih =>
    rw [quoteBody, if_neg hpair, List.append_assoc, parseStringBody_escapeUnit, ih]
    rfl

/-- Quoting is injective in front of any continuation. -/
theorem quote_append_inj {s t r r' : JsString} (h : quote s ++ r = quote t ++ r') :
    s = t ∧ r = r' := by
  simp only [quote, List.cons_append, List.append_assoc, List.nil_append, List.cons.injEq,
    true_and] at h
  have hread := parseStringBody_quoteBody s r
  rw [h, parseStringBody_quoteBody] at hread
  simpa [eq_comm] using hread

end MultiPartEvent
