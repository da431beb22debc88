import TypedTemplate.Decimal.Shortest

/-!
# Writing decimals

A *layout* says how the digits of a shortest decimal are arranged: in which range the point is
placed among the digits, and how an exponent is written outside of it.

* `Layout.plain`: always positional, a whole number without a point.
* `Layout.shown`: positional from `10⁻⁴` up to `10¹⁶`, a whole number with `.0`.
* `Layout.json`: positional from `10⁻⁵` up to `10¹⁶`, exponents with a sign.
* `Layout.write`: a finite number under a layout.
-/

namespace TypedTemplate.Decimal

/-- The decisions of one written form. -/
structure Layout where
  /-- Of two equally near shortest decimals, the one to write. -/
  tie : Tie
  /-- The exponents of the leading digit for which the point is placed among the digits. -/
  positional : Int → Bool
  /-- A whole number in positional form ends in `.0`. -/
  pointZero : Bool
  /-- An exponent that is not negative gets a plus sign. -/
  plusSign : Bool

/-- Positional whatever the size. -/
def Layout.plain : Layout := ⟨.up, fun _ => true, false, false⟩

/-- Positional from `10⁻⁴` up to `10¹⁶`. -/
def Layout.shown : Layout := ⟨.up, fun e => -4 ≤ e && e < 16, true, false⟩

/-- Positional from `10⁻⁵` up to `10¹⁶`, exponents with a sign. -/
def Layout.json : Layout := ⟨.toEven, fun e => -5 ≤ e && e < 16, true, true⟩

/-- The digits with the point placed by the power of ten that scales them. -/
def placePoint (pointZero : Bool) (digits : List Char) (power : Int) : List Char :=
  if 0 ≤ power then
    digits ++ List.replicate power.toNat '0' ++ (if pointZero then ['.', '0'] else [])
  else
    let places := (-power).toNat
    if places < digits.length then
      digits.take (digits.length - places) ++ '.' :: digits.drop (digits.length - places)
    else '0' :: '.' :: List.replicate (places - digits.length) '0' ++ digits

/-- One digit before the point, and the exponent of that digit. -/
def withExponent (plusSign : Bool) (digits : List Char) (exponent : Int) : List Char :=
  let mantissa := match digits with
    | d :: e :: rest => d :: '.' :: e :: rest
    | short => short
  let sign := if exponent < 0 then ['-'] else if plusSign then ['+'] else []
  mantissa ++ 'e' :: sign ++ Nat.toDigits 10 exponent.natAbs

/-- The exponent of the leading digit. -/
def leadingExponent (digits : List Char) (power : Int) : Int := digits.length + power - 1

/-- A finite number as text. -/
def Layout.write (l : Layout) (x : Binary64) : List Char :=
  let (digits, power) := shortest l.tie x
  let ds := Nat.toDigits 10 digits
  let body :=
    if l.positional (leadingExponent ds power) then placePoint l.pointZero ds power
    else withExponent l.plusSign ds (leadingExponent ds power)
  if x.isNegative then '-' :: body else body

end TypedTemplate.Decimal
