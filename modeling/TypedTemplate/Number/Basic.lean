import TypedTemplate.Binary64

/-!
# Numbers

An integer keeps its exact value in 64 bits, without a sign or with one; every other number is
floating point. Equality and order are those of the values, whatever the form.

* `Number.integer?`: the exact value of the two integer forms.
* `Number.equals`, `Number.compare?`: integers of one form are compared exactly, and so is the
  equality of any two integers; everything else is compared as floating point.
* `Number.normalize`: a floating point number that is a whole number of at most `2⁵³` becomes an
  integer.
-/

namespace TypedTemplate

/-- A number in one of its three forms. -/
inductive Number where
  | uint (n : UInt64)
  | int (n : Int64)
  | float (f : Binary64)
  deriving DecidableEq

namespace Number

/-! ## Conversions -/

/-- A signed integer, without a sign where it needs none. -/
def ofInt64 (n : Int64) : Number := if 0 ≤ n.toInt then .uint n.toUInt64 else .int n

/-- The integer fits 64 bits with a sign. -/
def isSigned64 (n : Int) : Bool := Int64.minValue.toInt ≤ n && n ≤ Int64.maxValue.toInt

/-- An integer that fits one of the two integer forms, without a sign where it needs none. -/
def ofInt? (n : Int) : Option Number :=
  if 0 ≤ n then if n < UInt64.size then some (.uint (UInt64.ofNat n.toNat)) else none
  else if isSigned64 n then some (.int (Int64.ofInt n)) else none

/-- A count. -/
def ofNat (n : Nat) : Number := .uint (UInt64.ofNat n)

/-- The exact value of an integer form. -/
def integer? : Number → Option Int
  | .uint n => some n.toNat
  | .int n => some n.toInt
  | .float _ => none

/-- The nearest floating point number. -/
def toBinary64 : Number → Binary64
  | .uint n => .ofInt n.toNat
  | .int n => .ofInt n.toInt
  | .float f => f

/-- A whole number of at most `2⁵³`, the range in which every integer is exact. -/
def isSafeWhole (f : Binary64) : Bool :=
  f.isWhole && f.magnitude ≤ Nat.pow 2 53 * Binary64.unitsPerOne

/-- The value as a signed integer of 64 bits. -/
def toInt64? : Number → Option Int64
  | .uint n => if isSigned64 n.toNat then some n.toInt64 else none
  | .int n => some n
  | .float f => if isSafeWhole f then some (Int64.ofInt f.truncate) else none

/-- The value as an integer of 64 bits without a sign. -/
def toUInt64? : Number → Option UInt64
  | .uint n => some n
  | .int n => if 0 ≤ n.toInt then some n.toUInt64 else none
  | .float f =>
    if isSafeWhole f && 0 ≤ f.units then some (UInt64.ofNat f.truncate.toNat) else none

/-! ## Properties -/

/-- The value is a whole number. -/
def isInteger : Number → Bool
  | .uint _ | .int _ => true
  | .float f => f.isWhole

/-- The value is zero. -/
def isZero (n : Number) : Bool := n.toBinary64.equals (.zero false)

/-- A whole number within the exact range takes an integer form. -/
def normalize : Number → Number
  | .float f =>
    if isSafeWhole f then
      if 0 ≤ f.units then .uint (UInt64.ofNat f.truncate.toNat)
      else .int (Int64.ofInt f.truncate)
    else .float f
  | n => n

/-! ## Comparison -/

/-- The values are the same. -/
def equals (a b : Number) : Bool :=
  match a.integer?, b.integer? with
  | some m, some n => m = n
  | _, _ => a.toBinary64.equals b.toBinary64

/-- The order of two exact integers. -/
def compareInt (m n : Int) : Ordering := if m < n then .lt else if m = n then .eq else .gt

/-- The order of the values. -/
def compare? : Number → Number → Option Ordering
  | .uint a, .uint b => some (compareInt a.toNat b.toNat)
  | .int a, .int b => some (compareInt a.toInt b.toInt)
  | a, b => a.toBinary64.compare? b.toBinary64

end Number

end TypedTemplate
