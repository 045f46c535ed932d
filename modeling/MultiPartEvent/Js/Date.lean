import MultiPartEvent.Errors

/-!
# Dates

A `Date` is a number of milliseconds since the Unix epoch, or an invalid date: the language
represents 8.64 · 10^15 milliseconds on either side of the epoch.  The program builds dates
after the epoch only and writes them with `toISOString`.
-/

namespace MultiPartEvent

/-- A `Date` at or after the Unix epoch. -/
structure JsDate where
  /-- Milliseconds since the Unix epoch; none for an invalid date. -/
  time : Option ℕ
  deriving DecidableEq

/-- The largest time a `Date` represents, in milliseconds. -/
def maxTime : ℕ := 8640000000000000

/-- `new Date(milliseconds)`.  The source computes the argument in floating point, which is exact
for every time a `Date` represents and stays above them beyond. -/
def JsDate.ofMilliseconds (milliseconds : ℕ) : JsDate :=
  ⟨if milliseconds ≤ maxTime then some milliseconds else none⟩

/-- A date of the Gregorian calendar. -/
structure CivilDate where
  year : ℕ
  month : ℕ
  day : ℕ
  deriving DecidableEq

/-- The Gregorian date of a number of days since the Unix epoch.  Years are counted from March,
so that the leap day ends a year. -/
def civilDate (days : ℕ) : CivilDate :=
  let shifted := days + 719468
  let era := shifted / 146097
  let dayOfEra := shifted % 146097
  let yearOfEra := (dayOfEra - dayOfEra / 1460 + dayOfEra / 36524 - dayOfEra / 146096) / 365
  let dayOfYear := dayOfEra - (365 * yearOfEra + yearOfEra / 4 - yearOfEra / 100)
  let fromMarch := (5 * dayOfYear + 2) / 153
  let month := if fromMarch < 10 then fromMarch + 3 else fromMarch - 9
  { year := yearOfEra + era * 400 + (if month ≤ 2 then 1 else 0)
    month := month
    day := dayOfYear - (153 * fromMarch + 2) / 5 + 1 }

/-- `String(n).padStart(width, "0")`. -/
def padded (width n : ℕ) : JsString :=
  List.replicate (width - (decimal n).length) (charUnit '0') ++ decimal n

/-- A year as `toISOString` writes it: four digits, or a sign and six. -/
def yearText (year : ℕ) : JsString :=
  if year ≤ 9999 then padded 4 year else js "+" ++ padded 6 year

/-- `date.toISOString()`. -/
def JsDate.toISOString (date : JsDate) : Except JsError JsString :=
  match date.time with
  | none => .error (.rangeError (js "Invalid time value"))
  | some time =>
    let civil := civilDate (time / 86400000)
    let inDay := time % 86400000
    .ok (yearText civil.year ++ js "-" ++ padded 2 civil.month ++ js "-" ++ padded 2 civil.day ++
      js "T" ++ padded 2 (inDay / 3600000) ++ js ":" ++ padded 2 (inDay / 60000 % 60) ++
      js ":" ++ padded 2 (inDay / 1000 % 60) ++ js "." ++ padded 3 (inDay % 1000) ++ js "Z")

example : (JsDate.ofMilliseconds 1709164800001).toISOString =
  .ok (js "2024-02-29T00:00:00.001Z") := by
  decide +kernel

end MultiPartEvent
