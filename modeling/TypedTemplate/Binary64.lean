/-!
# Binary floating point in 64 bits

A number of the format `binary64` is its word of 64 bits. Every finite one is a whole number of
*units* of `2⁻¹⁰⁷⁴`, so arithmetic is exact arithmetic on integers followed by one rounding.

* `units`: the value of a finite number, as an integer; an infinity gets an integer beyond all of
  them, so `units` also orders everything but the numbers that are not a number.
* `ofUnits`: the nearest number to a ratio of units, ties to the even significand.
* `add`, `sub`, `mul`, `div`, `rem`: the exact result, rounded once.
* `floor`, `ceil`, `round`: the integer below, above, nearest (a half goes away from zero).
* `compare?`: the order of the values, undecided when one is not a number.
-/

namespace TypedTemplate

/-- A word of the IEEE 754 format `binary64`. -/
structure Binary64 where
  bits : UInt64
  deriving DecidableEq

namespace Binary64

/-! ## Fields -/

/-- How many units make `1`. -/
def unitsPerOne : Nat := Nat.pow 2 1074

/-- The word as a natural number. -/
def word (x : Binary64) : Nat := x.bits.toNat

/-- The sign bit is set. -/
def isNegative (x : Binary64) : Bool := Nat.pow 2 63 ≤ x.word

/-- The biased exponent, between `0` and `2047`. -/
def exponentField (x : Binary64) : Nat := x.word / Nat.pow 2 52 % Nat.pow 2 11

/-- The 52 low bits. -/
def fraction (x : Binary64) : Nat := x.word % Nat.pow 2 52

/-- Neither an infinity nor a NaN. -/
def isFinite (x : Binary64) : Bool := x.exponentField < 2047

/-- Not a number. -/
def isNaN (x : Binary64) : Bool := !x.isFinite && x.fraction ≠ 0

/-- One of the two infinities. -/
def isInfinite (x : Binary64) : Bool := !x.isFinite && x.fraction = 0

/-- The significand with its hidden bit. -/
def significand (x : Binary64) : Nat :=
  if x.exponentField = 0 then x.fraction else Nat.pow 2 52 + x.fraction

/-- The power of two that scales the significand to units. -/
def shift (x : Binary64) : Nat := x.exponentField - 1

/-- The magnitude in units. -/
def magnitude (x : Binary64) : Nat := x.significand * Nat.pow 2 x.shift

/-- The value in units. -/
def units (x : Binary64) : Int := if x.isNegative then -(x.magnitude : Int) else x.magnitude

/-! ## Building words -/

/-- The word with the given sign and low 63 bits. -/
def ofWord (negative : Bool) (low : Nat) : Binary64 :=
  ⟨UInt64.ofNat (low + if negative then Nat.pow 2 63 else 0)⟩

/-- The zero of the given sign. -/
def zero (negative : Bool) : Binary64 := ofWord negative 0

/-- The infinity of the given sign. -/
def infinity (negative : Bool) : Binary64 := ofWord negative (2047 * Nat.pow 2 52)

/-- A quiet NaN. -/
def nan : Binary64 := ofWord false (2047 * Nat.pow 2 52 + Nat.pow 2 51)

/-- The nearest integer to a ratio, a half going to the even neighbour. -/
def roundNearest (num den : Nat) : Nat :=
  let floor := num / den
  let twice := 2 * (num % den)
  if twice < den then floor
  else if den < twice then floor + 1
  else floor + floor % 2

/-- The number nearest to `num / den` units, with the given sign. A significand that rounds up to
the next power of two carries into the exponent by itself, and past the last exponent lies the
infinity. -/
def ofUnits (negative : Bool) (num den : Nat) : Binary64 :=
  let shift := Nat.log2 (num / den) - 52
  let low := shift * Nat.pow 2 52 + roundNearest num (den * Nat.pow 2 shift)
  ofWord negative (min low (2047 * Nat.pow 2 52))

/-- The number nearest to an integer. -/
def ofInt (n : Int) : Binary64 := ofUnits (n < 0) (n.natAbs * unitsPerOne) 1

/-- The number nearest to the decimal whose digits, read as an integer, are scaled by a power of
ten. Far outside the range the power is not computed: at `10³¹⁰` every nonzero integer is beyond the
largest finite number, and below `10⁻⁴⁰⁰` every value is below half a unit. -/
def ofDecimal (negative : Bool) (digits : List Char) (exponent : Int) : Binary64 :=
  let significand := Nat.ofDigitChars 10 digits 0
  if significand = 0 then zero negative
  else if 310 < exponent then infinity negative
  else if exponent + digits.length < -400 then zero negative
  else if 0 ≤ exponent then
    ofUnits negative (significand * Nat.pow 10 exponent.toNat * unitsPerOne) 1
  else ofUnits negative (significand * unitsPerOne) (Nat.pow 10 (-exponent).toNat)

/-! ## Signs -/

/-- The number with its sign bit turned. -/
def neg (x : Binary64) : Binary64 := ofWord (!x.isNegative) (x.word % Nat.pow 2 63)

/-- The number with its sign bit cleared. -/
def abs (x : Binary64) : Binary64 := ofWord false (x.word % Nat.pow 2 63)

/-! ## Arithmetic -/

/-- A sum of units with a positive zero wherever the terms cancel. -/
private def ofSum (negativeZero : Bool) (sum : Int) : Binary64 :=
  ofUnits (if sum = 0 then negativeZero else sum < 0) sum.natAbs 1

/-- The sum. -/
def add (x y : Binary64) : Binary64 :=
  if x.isNaN || y.isNaN then nan
  else if x.isInfinite then
    if y.isInfinite && x.isNegative != y.isNegative then nan else x
  else if y.isInfinite then y
  else ofSum (x.isNegative && y.isNegative) (x.units + y.units)

/-- The difference. -/
def sub (x y : Binary64) : Binary64 := add x y.neg

/-- The product. -/
def mul (x y : Binary64) : Binary64 :=
  let negative := x.isNegative != y.isNegative
  if x.isNaN || y.isNaN then nan
  else if x.isInfinite || y.isInfinite then
    if x.magnitude = 0 || y.magnitude = 0 then nan else infinity negative
  else ofUnits negative (x.magnitude * y.magnitude) unitsPerOne

/-- The quotient. -/
def div (x y : Binary64) : Binary64 :=
  let negative := x.isNegative != y.isNegative
  if x.isNaN || y.isNaN then nan
  else if x.isInfinite then if y.isInfinite then nan else infinity negative
  else if y.isInfinite then zero negative
  else if y.magnitude = 0 then if x.magnitude = 0 then nan else infinity negative
  else ofUnits negative (x.magnitude * unitsPerOne) y.magnitude

/-- The remainder of the division towards zero, with the sign of the dividend. -/
def rem (x y : Binary64) : Binary64 :=
  if x.isNaN || y.isNaN || x.isInfinite || y.magnitude = 0 then nan
  else if y.isInfinite then x
  else ofUnits x.isNegative (x.magnitude % y.magnitude) 1

/-! ## Integers -/

/-- The number is a whole number. -/
def isWhole (x : Binary64) : Bool := x.isFinite && x.magnitude % unitsPerOne = 0

/-- The whole part of a finite number, towards zero. -/
def truncate (x : Binary64) : Int := x.units.tdiv unitsPerOne

/-- Replace the magnitude of a finite number by a whole number; what is not finite stays. -/
private def withWhole (x : Binary64) (whole : Nat) : Binary64 :=
  if x.isFinite then ofUnits x.isNegative (whole * unitsPerOne) 1 else x

/-- The greatest whole number that is no greater. -/
def floor (x : Binary64) : Binary64 := x.withWhole (x.units.fdiv unitsPerOne).natAbs

/-- The least whole number that is no less. -/
def ceil (x : Binary64) : Binary64 := x.withWhole ((-x.units).fdiv unitsPerOne).natAbs

/-- The nearest whole number, a half going away from zero. -/
def round (x : Binary64) : Binary64 :=
  x.withWhole ((2 * x.magnitude + unitsPerOne) / (2 * unitsPerOne))

/-! ## Order -/

/-- The order of the values; a NaN has none. -/
def compare? (x y : Binary64) : Option Ordering :=
  if x.isNaN || y.isNaN then none
  else if x.units < y.units then some .lt
  else if x.units = y.units then some .eq
  else some .gt

/-- The values are the same: a NaN equals nothing, and the two zeros are equal. -/
def equals (x y : Binary64) : Bool := !x.isNaN && !y.isNaN && x.units = y.units

end Binary64

end TypedTemplate
