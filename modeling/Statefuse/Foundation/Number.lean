import Mathlib

/-!
# Numbers of the host language

The host language writes three kinds of numbers into JSON, booleans, unbounded
integers and binary floating point numbers, and compares them by value:
`True == 1 == 1.0`.  A float is identified with its shortest decimal text, the
one the language writes and reads back; `PyFloat.value` is the exact value of the
binary64 number that the text denotes.
-/

namespace Foundation

/-- The integer nearest to a nonnegative rational, ties going to the even one. -/
def roundHalfEven (scaled : ℚ) : Int :=
  let below := scaled.floor
  let excess := scaled - below
  if excess < 1 / 2 then below
  else if 1 / 2 < excess then below + 1
  else if below % 2 = 0 then below else below + 1

/-- A power of two with an integer exponent. -/
def twoPower (exponent : Int) : ℚ :=
  if 0 ≤ exponent then 2 ^ exponent.toNat else 1 / 2 ^ (-exponent).toNat

/-- The exponent of the greatest power of two below a positive rational. -/
def binaryExponent (size : ℚ) : Int :=
  let guess : Int := Nat.log2 size.num.natAbs - Nat.log2 size.den
  if size < twoPower guess then guess - 1 else guess

/-- The binary64 number nearest to a rational: 53 significant bits, with the
subnormal numbers below the least normal exponent. -/
def binary64 (exact : ℚ) : ℚ :=
  if exact = 0 then 0
  else
    let ulp := twoPower (max (binaryExponent |exact| - 52) (-1074))
    let rounded := roundHalfEven (|exact| / ulp) * ulp
    if exact < 0 then -rounded else rounded

/-- A finite float, as its decimal text spells it. -/
structure PyFloat where
  negative : Bool
  whole : Nat
  fraction : List (Fin 10)
  exponent : Option Int
  written : fraction ≠ [] ∨ exponent.isSome = true
  deriving DecidableEq

namespace PyFloat

/-- The rational the decimal text spells. -/
def decimal (number : PyFloat) : ℚ :=
  let digits := number.fraction.foldl (fun sum digit => sum * 10 + digit.val) number.whole
  let exponent := number.exponent.getD 0
  let scale : ℚ := if 0 ≤ exponent then 10 ^ exponent.toNat else 1 / 10 ^ (-exponent).toNat
  let magnitude := (digits : ℚ) / 10 ^ number.fraction.length * scale
  if number.negative then -magnitude else magnitude

/-- The value of the binary64 number. -/
def value (number : PyFloat) : ℚ := binary64 number.decimal

/-- `float(n)` for an integer: the text has one zero after the point. -/
def ofInt (number : Int) : PyFloat where
  negative := decide (number < 0)
  whole := number.natAbs
  fraction := [0]
  exponent := none
  written := Or.inl (by decide)

theorem ofInt_zero_value : (ofInt 0).value = 0 := by decide +kernel

theorem ofInt_one_value : (ofInt 1).value = 1 := by decide +kernel

end PyFloat

/-- A number of the host language. -/
inductive PyNumber where
  | bool (value : Bool)
  | int (value : Int)
  | float (value : PyFloat)
  deriving DecidableEq

namespace PyNumber

/-- The value by which numbers of all kinds are compared. -/
def value : PyNumber → ℚ
  | .bool flag => if flag then 1 else 0
  | .int number => number
  | .float number => number.value

/-- `float(x)`. -/
def toFloat : PyNumber → PyFloat
  | .bool flag => PyFloat.ofInt (if flag then 1 else 0)
  | .int number => PyFloat.ofInt number
  | .float number => number

@[simp] theorem toFloat_float (number : PyFloat) : (float number).toFloat = number := rfl

/-- Conversion to a float keeps the value of every number between zero and one. -/
theorem toFloat_value (number : PyNumber) (lower : 0 ≤ number.value) (upper : number.value ≤ 1) :
    number.toFloat.value = number.value := by
  cases number with
  | bool flag =>
      cases flag with
      | false => exact PyFloat.ofInt_zero_value
      | true => exact PyFloat.ofInt_one_value
  | int number =>
      have lowerInt : 0 ≤ number := Int.cast_nonneg_iff.mp lower
      have upperInt : number ≤ 1 := by
        have cast : ((number : Int) : ℚ) ≤ ((1 : Int) : ℚ) := by simpa [value] using upper
        exact Int.cast_le.mp cast
      have eitherOne : number = 0 ∨ number = 1 := by omega
      rcases eitherOne with rfl | rfl
      · simpa [value, toFloat] using PyFloat.ofInt_zero_value
      · simpa [value, toFloat] using PyFloat.ofInt_one_value
  | float number => rfl

example : binary64 (1 / 10) = 3602879701896397 / 36028797018963968 := by decide +kernel

end PyNumber

end Foundation
