import MultiPartEvent.Js.Text

/-!
# Values of numbers

A number that is no plain integer is known by its text.  Here is the value the text stands for,
as far as the program compares numbers with integers.  The text of a double and the double itself
lie on the same side of every integer below 2^53, so these comparisons are the source's own.
-/

namespace MultiPartEvent

/-- The number of a text of decimal digits. -/
def digitsNumber (digits : JsString) : ℕ := digits.foldl (fun n u => n * 10 + (u.val - 48)) 0

/-- The number of an exponent: digits with a sign, or none. -/
def exponentNumber : JsString → ℤ
  | [] => 0
  | u :: digits =>
    if u = charUnit '-' then -digitsNumber digits
    else if u = charUnit '+' then digitsNumber digits
    else digitsNumber (u :: digits)

/-- The value of the text of a finite number. -/
def decimalValue (text : JsString) : ℚ :=
  let negative := text.head? = some (charUnit '-')
  let unsigned := if negative then text.tail else text
  let mantissa := unsigned.takeWhile (· ≠ charUnit 'e')
  let exponent := (unsigned.dropWhile (· ≠ charUnit 'e')).tail
  let whole := mantissa.takeWhile (· ≠ charUnit '.')
  let fraction := (mantissa.dropWhile (· ≠ charUnit '.')).tail
  let magnitude : ℚ :=
    digitsNumber (whole ++ fraction) * 10 ^ (exponentNumber exponent - fraction.length)
  if negative then -magnitude else magnitude

/-- The value of a number, unless it is not finite. -/
def JsNumber.finite? : JsNumber → Option ℚ
  | .int z => some z
  | .other t => if t.text ∈ nonFiniteTexts then none else some (decimalValue t.text)

/-- `n > limit` for a natural number `n`. -/
def JsNumber.below (limit : JsNumber) (n : ℕ) : Bool :=
  match limit.finite? with
  | some value => value < n
  | none => limit.text = js "-Infinity"

/-- `value > limit` for a finite value. -/
def JsNumber.exceededBy (limit : JsNumber) (value : ℚ) : Bool :=
  match limit.finite? with
  | some most => most < value
  | none => limit.text = js "-Infinity"

/-- An integer is below a natural number when it is less. -/
@[simp] lemma JsNumber.below_int {z : ℤ} {n : ℕ} : (JsNumber.int z).below n = true ↔ z < n := by
  simp only [below, finite?, decide_eq_true_eq]
  exact_mod_cast Iff.rfl

/-- What exceeds a limit is exceeded by nothing smaller that does not. -/
lemma JsNumber.below_mono {limit : JsNumber} {m n : ℕ} (hle : m ≤ n) (h : limit.below m = true) :
    limit.below n = true := by
  unfold below at h ⊢
  cases hvalue : limit.finite? with
  | none => simpa [hvalue] using h
  | some value =>
    simp only [hvalue, decide_eq_true_eq] at h ⊢
    have hcast : (m : ℚ) ≤ n := by exact_mod_cast hle
    exact lt_of_lt_of_le h hcast

example : decimalValue (js "-1.5e-7") = -15 / 100000000 := by decide +kernel

end MultiPartEvent
