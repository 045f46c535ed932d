import Mathlib

/-!
# Strings and numbers of the source language

A JavaScript string is a list of 16-bit code units, lone surrogates included, so that the
order of `compareCodeUnits` and the domain of every text are the source's own.  A number is
an integer or one of the values that are not plain integers (`JsNumber`); the checks of the
source (`Number.isInteger`, `Number.isSafeInteger`) separate the two.

`js` reads a literal of the source, `decimal` is `String(n)` of a natural number.
-/

namespace MultiPartEvent

/-- One UTF-16 code unit. -/
abbrev CodeUnit := Fin 65536

instance neZero_codeUnits : NeZero 65536 := ⟨by decide⟩

/-- A string of the source language: its code units in order. -/
abbrev JsString := List CodeUnit

instance lawfulBEq_jsString : LawfulBEq JsString := inferInstance

/-- One byte of a `Uint8Array`. -/
abbrev Byte := Fin 256

instance neZero_bytes : NeZero 256 := ⟨by decide⟩

/-- The contents of a `Uint8Array`. -/
abbrev Bytes := List Byte

/-- The code unit of a character of the basic multilingual plane. -/
def charUnit (c : Char) : CodeUnit := Fin.ofNat 65536 c.toNat

/-- A literal of the source (every one is ASCII, so one code unit a character). -/
def js (s : String) : JsString := s.toList.map charUnit

/-- `String(n)` of a natural number. -/
def decimal (n : ℕ) : JsString := (Nat.toDigits 10 n).map charUnit

/-- `String(z)` of an integer that prints in plain decimal. -/
def integerText : ℤ → JsString
  | .ofNat n => decimal n
  | .negSucc n => js "-" ++ decimal (n + 1)

/-! ### Decimal text -/

/-- A character of the basic multilingual plane is recovered from its code unit. -/
lemma ofNat_charUnit {c : Char} (hc : c.toNat < 65536) : Char.ofNat (charUnit c).val = c := by
  have hval : (charUnit c).val = c.toNat := Nat.mod_eq_of_lt hc
  rw [hval, Char.ofNat_toNat]

/-- A decimal digit is an ASCII character. -/
lemma toNat_of_isDigit {c : Char} (h : c.isDigit = true) : 48 ≤ c.toNat ∧ c.toNat ≤ 57 := by
  simp only [Char.isDigit, Bool.and_eq_true, decide_eq_true_eq] at h
  exact ⟨h.1, h.2⟩

/-- Every digit of the decimal text is between `'0'` and `'9'`. -/
lemma isDigit_of_mem_digits {n : ℕ} {c : Char} (h : c ∈ Nat.toDigits 10 n) :
    c.isDigit = true :=
  Nat.isDigit_of_mem_toDigits (by decide) (by decide) h

/-- The code units of a decimal text are those of the digits. -/
lemma mem_decimal {n : ℕ} {u : CodeUnit} (h : u ∈ decimal n) : 48 ≤ u.val ∧ u.val ≤ 57 := by
  obtain ⟨c, hc, rfl⟩ := List.mem_map.mp h
  have hdigit := toNat_of_isDigit (isDigit_of_mem_digits hc)
  have hval : (charUnit c).val = c.toNat := Nat.mod_eq_of_lt (by omega)
  rw [hval]
  exact hdigit

/-- A decimal text is not empty. -/
lemma decimal_ne_nil (n : ℕ) : decimal n ≠ [] := by
  simp [decimal, Nat.toDigits_ne_nil]

/-- The digits are recovered from the decimal text. -/
lemma map_ofNat_decimal (n : ℕ) :
    (decimal n).map (fun u => Char.ofNat u.val) = Nat.toDigits 10 n := by
  rw [decimal, List.map_map]
  conv_rhs => rw [← List.map_id (Nat.toDigits 10 n)]
  refine List.map_congr_left fun c hc => ?_
  have hdigit := toNat_of_isDigit (isDigit_of_mem_digits hc)
  exact ofNat_charUnit (by omega)

/-- The decimal text determines the number. -/
lemma decimal_injective : Function.Injective decimal := by
  intro m n h
  have hdigits : Nat.toDigits 10 m = Nat.toDigits 10 n := by
    rw [← map_ofNat_decimal m, ← map_ofNat_decimal n, h]
  have hval := congrArg (fun l => Nat.ofDigitChars 10 l 0) hdigits
  simpa using hval

/-! ### Hex digits -/

/-- The sixteen lowercase hex digits. -/
def hexDigits : JsString := js "0123456789abcdef"

/-- The code unit of one hex digit. -/
def hexUnit (n : ℕ) : CodeUnit := hexDigits.getD n 0

/-- The value of a hex digit of either case. -/
def hexDigit? (u : CodeUnit) : Option ℕ :=
  if 48 ≤ u.val ∧ u.val ≤ 57 then some (u.val - 48)
  else if 97 ≤ u.val ∧ u.val ≤ 102 then some (u.val - 87)
  else if 65 ≤ u.val ∧ u.val ≤ 70 then some (u.val - 55)
  else none

/-- Reading a lowercase digit recovers its value. -/
lemma hexDigit?_hexUnit : ∀ n < 16, hexDigit? (hexUnit n) = some n := by decide

/-- The digits keep the order of their values. -/
lemma hexUnit_lt_iff : ∀ m < 16, ∀ n < 16, hexUnit m < hexUnit n ↔ m < n := by decide

/-- Different values have different digits. -/
lemma hexUnit_inj : ∀ m < 16, ∀ n < 16, hexUnit m = hexUnit n ↔ m = n := by decide

/-! ### Numbers -/

/-- The code units of the text of a finite number. -/
def isNumberUnit (u : CodeUnit) : Bool :=
  (48 ≤ u.val && u.val ≤ 57) || (js "+-.e").contains u

/-- The text of a finite number that has a fraction or an exponent. -/
def isDecimalText (text : JsString) : Bool :=
  text.all isNumberUnit && text.any (fun u => (js ".e").contains u)

/-- The texts of the numbers that are not finite. -/
def nonFiniteTexts : List JsString := [js "NaN", js "Infinity", js "-Infinity"]

/-- The text of a number that does not print as a plain integer. -/
structure NumberText where
  text : JsString
  valid : isDecimalText text = true ∨ text ∈ nonFiniteTexts
  deriving DecidableEq

/-- A number of the source language: an integer that prints as one (every safe integer does), or
another value with its text.  Equality is the `SameValueZero` equality of `Map` and `Set`
keys. -/
inductive JsNumber where
  | int (value : ℤ)
  | other (text : NumberText)
  deriving DecidableEq

/-- `Number.MAX_SAFE_INTEGER`. -/
def maxSafeInteger : ℕ := 2 ^ 53 - 1

/-- `String(n)`. -/
def JsNumber.text : JsNumber → JsString
  | .int z => integerText z
  | .other t => t.text

/-- The value of a number that is an integer of `low..high`, as the source's range checks
(`Number.isInteger(n) && n >= low && n <= high`) accept it. -/
def JsNumber.inRange (low high : ℕ) : JsNumber → Option ℕ
  | .int (.ofNat n) => if low ≤ n ∧ n ≤ high then some n else none
  | _ => none

/-- A number passes a range check exactly when it is an integer of the range. -/
lemma JsNumber.inRange_eq_some {low high : ℕ} {n : JsNumber} {k : ℕ} :
    n.inRange low high = some k ↔ n = .int k ∧ low ≤ k ∧ k ≤ high := by
  cases n with
  | other t => simp [inRange]
  | int z =>
    cases z with
    | negSucc m =>
      simp only [inRange, int.injEq, reduceCtorEq, false_iff]
      rintro ⟨hneg, -⟩
      exact hneg
    | ofNat m =>
      simp only [inRange, Option.ite_none_right_eq_some, Option.some.injEq, int.injEq]
      constructor
      · rintro ⟨hm, rfl⟩
        exact ⟨rfl, hm⟩
      · rintro ⟨hm, hk⟩
        have hmk : m = k := Int.ofNat.inj hm
        subst hmk
        exact ⟨hk, rfl⟩

/-- An integer of the range passes the range check. -/
@[simp] lemma JsNumber.inRange_int {low high k : ℕ} (hlow : low ≤ k) (hhigh : k ≤ high) :
    (JsNumber.int k).inRange low high = some k :=
  JsNumber.inRange_eq_some.mpr ⟨rfl, hlow, hhigh⟩

/-! ### White space -/

/-- The white space and line ends of the language. -/
def trimmedUnits : List CodeUnit :=
  [0x09, 0x0A, 0x0B, 0x0C, 0x0D, 0x20, 0xA0, 0x1680, 0x2000, 0x2001, 0x2002, 0x2003, 0x2004, 0x2005,
    0x2006, 0x2007, 0x2008, 0x2009, 0x200A, 0x2028, 0x2029, 0x202F, 0x205F, 0x3000, 0xFEFF]

/-- `text.trim()`. -/
def trimText (text : JsString) : JsString :=
  ((text.dropWhile (trimmedUnits.contains ·)).reverse.dropWhile (trimmedUnits.contains ·)).reverse

/-! ### Code-unit order -/

/-- `compareCodeUnits`: code-unit string order, independent of locale. -/
def compareCodeUnits (left right : JsString) : Ordering :=
  if left < right then .lt else if right < left then .gt else .eq

/-- Two strict comparisons decide as `cmp` does, whatever decides them. -/
lemma ite_lt_eq_cmp {α : Type*} [LinearOrder α] (a b : α) [Decidable (a < b)]
    [Decidable (b < a)] :
    (if a < b then Ordering.lt else if b < a then .gt else .eq) = cmp a b := by
  unfold cmp cmpUsing
  congr

/-! ### Stable sorting -/

/-- `Array.prototype.sort` with a comparison function: the stable sort. -/
def sortBy {α : Type*} (compare : α → α → Ordering) (l : List α) : List α :=
  l.insertionSort (fun a b => compare a b ≠ .gt)

/-- Sorting by a comparison that agrees with a linear order of keys is sorting by the keys. -/
lemma pairwise_sortBy {α κ : Type*} [LinearOrder κ] {compare : α → α → Ordering} {key : α → κ}
    (hcompare : ∀ a b, compare a b = cmp (key a) (key b)) (l : List α) :
    (sortBy compare l).Pairwise (fun a b => key a ≤ key b) := by
  have hrel : ∀ a b, compare a b ≠ .gt ↔ key a ≤ key b := by
    intro a b
    rw [hcompare, ne_eq, cmp_eq_gt_iff, not_lt]
  have htotal : Std.Total (fun a b => compare a b ≠ .gt) :=
    ⟨fun a b => by rw [hrel, hrel]; exact le_total _ _⟩
  have htrans : IsTrans α (fun a b => compare a b ≠ .gt) :=
    ⟨fun a b c => by rw [hrel, hrel, hrel]; exact le_trans⟩
  exact (List.pairwise_insertionSort _ l).imp (fun {a b} hab => (hrel a b).mp hab)

/-- Sorting permutes. -/
lemma sortBy_perm {α : Type*} (compare : α → α → Ordering) (l : List α) :
    List.Perm (sortBy compare l) l :=
  List.perm_insertionSort _ l

/-- Sorting keeps the members. -/
@[simp] lemma mem_sortBy {α : Type*} {compare : α → α → Ordering} {l : List α} {a : α} :
    a ∈ sortBy compare l ↔ a ∈ l :=
  (sortBy_perm compare l).mem_iff

/-- Sorting two permutations of one list gives one result when the keys tell its elements
apart. -/
lemma sortBy_eq_of_perm {α κ : Type*} [LinearOrder κ] {compare : α → α → Ordering} {key : α → κ}
    (hcompare : ∀ a b, compare a b = cmp (key a) (key b)) {l l' : List α} (hperm : l.Perm l')
    (hinj : ∀ a ∈ l, ∀ b ∈ l, key a = key b → a = b) : sortBy compare l = sortBy compare l' := by
  refine List.Perm.eq_of_pairwise ?_ (pairwise_sortBy hcompare l) (pairwise_sortBy hcompare l')
    (((sortBy_perm compare l).trans hperm).trans (sortBy_perm compare l').symm)
  intro a b ha hb hab hba
  exact hinj a (mem_sortBy.mp ha) b (hperm.mem_iff.mpr (mem_sortBy.mp hb)) (le_antisymm hab hba)

/-- Sorting commutes with a map that keeps the comparison. -/
lemma map_sortBy {α β : Type*} (compare : α → α → Ordering) (compare' : β → β → Ordering)
    (f : α → β) (hf : ∀ a b, compare a b = compare' (f a) (f b)) (l : List α) :
    (sortBy compare l).map f = sortBy compare' (l.map f) :=
  List.map_insertionSort _ _ f l fun a _ b _ => by rw [hf]

/-- Sorting a list without repetitions by a linear order gives a strictly increasing list. -/
lemma sortBy_pairwise_lt {α κ : Type*} [LinearOrder κ] {compare : α → α → Ordering} {key : α → κ}
    (hcompare : ∀ a b, compare a b = cmp (key a) (key b)) {l : List α} (hnodup : l.Nodup)
    (hinj : ∀ a ∈ l, ∀ b ∈ l, key a = key b → a = b) :
    (sortBy compare l).Pairwise (fun a b => key a < key b) := by
  have hne : (sortBy compare l).Pairwise (· ≠ ·) := (sortBy_perm compare l).nodup_iff.mpr hnodup
  refine (List.Pairwise.and hne (pairwise_sortBy hcompare l)).imp_of_mem ?_
  intro a b ha hb hab
  refine lt_of_le_of_ne hab.2 fun hkey => hab.1 ?_
  exact hinj a (mem_sortBy.mp ha) b (mem_sortBy.mp hb) hkey

end MultiPartEvent
