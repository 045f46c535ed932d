import MultiPartEvent.Js.JsonReader

/-!
# JSON values in expressions

What the language makes of a value that was read from a JSON text where the program expects another
one: the properties it has, the text `join` writes for it, and how it compares with zero.  None of
its objects has a method, so an object is written as `[object Object]`, and not at all when it has a
member `toString`, which hides the method of all objects.
-/

namespace MultiPartEvent

/-! ### Properties -/

/-- The members of an object that was read from a text. -/
abbrev Members := List (JsString × Json)

/-- `object[key]`: of several members with the name, the last one stays. -/
def member? (members : Members) (key : JsString) : Option Json :=
  (members.reverse.find? fun member => member.1 = key).map Prod.snd

/-- `value[key]` of a value other than `null`, for a key that no kind of value has of its own. -/
def Json.property (key : JsString) : Json → Option Json
  | .object members => member? members key
  | _ => none

/-! ### Texts -/

mutual

/-- What `join` writes for an item, or nothing where it throws. -/
def Json.joinText : Json → Option JsString
  | .null => some []
  | .bool true => some (js "true")
  | .bool false => some (js "false")
  | .number n => some n.text
  | .string s => some s
  | .array items => (joinTexts items).map (joinWith (js ","))
  | .object members =>
    if (member? members (js "toString")).isSome then none else some (js "[object Object]")

/-- What `join` writes for each of the items. -/
def joinTexts : List Json → Option (List JsString)
  | [] => some []
  | item :: rest => do
    let text ← item.joinText
    let texts ← joinTexts rest
    return text :: texts

end

/-- A list is joined exactly when each of its items is. -/
lemma isSome_joinTexts {items : List Json} :
    (joinTexts items).isSome = true ↔ ∀ item ∈ items, item.joinText.isSome = true := by
  induction items with
  | nil => simp [joinTexts]
  | cons item items ih =>
    rw [List.forall_mem_cons, ← ih, joinTexts]
    cases item.joinText with
    | none => simp
    | some text => cases joinTexts items <;> simp

/-- The exception where a value has no text. -/
def noPrimitive : JsString := js "Cannot convert object to primitive value"

/-- `items.join(separator)`. -/
def joinItems (separator : JsString) (items : List Json) : Except JsString JsString :=
  match joinTexts items with
  | some texts => .ok (joinWith separator texts)
  | none => .error noPrimitive

/-! ### Comparisons with zero -/

/-- `n > 0`. -/
def JsNumber.isPositive (n : JsNumber) : Bool :=
  match n.finite? with
  | some value => 0 < value
  | none => n.text = js "Infinity"

/-- The grammar of decimal literals without a sign. -/
def isDecimalLiteral (text : JsString) : Bool :=
  let whole := text.takeWhile isDigitUnit
  let rest := text.dropWhile isDigitUnit
  if rest.head? = some (charUnit '.') then
    let fraction := rest.tail.takeWhile isDigitUnit
    (whole ≠ [] || fraction ≠ []) && isExponent (rest.tail.dropWhile isDigitUnit)
  else whole ≠ [] && isExponent rest

/-- A text is a positive number in hexadecimal, octal or binary digits. -/
def isPositiveLiteral (text : JsString) : Bool :=
  let digits := text.drop 2
  let written := fun (mark : Char) (allowed : JsString) =>
    text.take 2 ∈ [[charUnit '0', charUnit mark], [charUnit '0', charUnit mark.toUpper]] &&
      digits.all (allowed.contains ·) && digits.any (· ≠ charUnit '0')
  written 'x' (js "0123456789abcdefABCDEF") || written 'o' (js "01234567") || written 'b' (js "01")

/-- `Number(text) > 0`.  The number is the double next to the value of the text, so that up to
2^-1075 it is zero. -/
def isPositiveText (text : JsString) : Bool :=
  let trimmed := trimText text
  let unsigned := if trimmed.head? = some (charUnit '+') then trimmed.tail else trimmed
  let decimalText := unsigned.map fun u => if u = charUnit 'E' then charUnit 'e' else u
  unsigned = js "Infinity" || isPositiveLiteral trimmed ||
    isDecimalLiteral unsigned && (1 / 2 ^ 1075 : ℚ) < decimalValue decimalText

/-- `value > 0`. -/
def Json.isPositive : Json → Except JsString Bool
  | .null => .ok false
  | .bool value => .ok value
  | .number n => .ok n.isPositive
  | .string s => .ok (isPositiveText s)
  | .array items => (joinItems (js ",") items).map isPositiveText
  | .object members => (joinItems [] [.object members]).map isPositiveText

example : (Json.array [.string (js " +2.5e0 ")]).isPositive = .ok true := by decide +kernel

example : (Json.object [(js "length", .bool true)]).isPositive = .ok false := by decide +kernel

end MultiPartEvent
