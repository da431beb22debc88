import TypedTemplate.Decimal.Layout
import TypedTemplate.Decimal.Numeral
import TypedTemplate.Number.Basic

/-!
# Numbers as text

* `Number.text`: the form a number takes in rendered output, never with an exponent.
* `Number.shown`: the form that tells a floating point number from an integer.
* `Number.jsonLiteral?`: the JSON form of the normalized number, missing for what JSON cannot say.
* `Number.ofText?`: the number that a text spells, exact where it is an integer of 64 bits.
* `Number.ofJsonLiteral?`, `Number.ofNumeral`: the number that a JSON literal spells.
-/

namespace TypedTemplate.Number

/-! ## Writing -/

/-- A natural number in decimal. -/
def natChars (n : Nat) : List Char := Nat.toDigits 10 n

/-- An integer in decimal. -/
def intChars (n : Int) : List Char :=
  if n < 0 then '-' :: natChars n.natAbs else natChars n.natAbs

/-- The rendered form: whole numbers within the exact range lose their point. -/
def chars : Number → List Char
  | .uint n => natChars n.toNat
  | .int n => intChars n.toInt
  | .float f =>
    if f.isNaN then "NaN".toList
    else if f.isInfinite then if f.isNegative then "-Infinity".toList else "Infinity".toList
    else if isSafeWhole f then intChars f.truncate
    else Decimal.Layout.plain.write f

/-- The rendered form as a string. -/
def text (n : Number) : String := String.ofList n.chars

/-- The form that tells a floating point number from an integer. -/
def shown : Number → String
  | .float f =>
    if f.isNaN then "NaN"
    else if f.isInfinite then if f.isNegative then "-inf" else "inf"
    else String.ofList (Decimal.Layout.shown.write f)
  | n => n.text

/-- The JSON form of the normalized number; an infinity or a NaN has none. -/
def jsonLiteral? (n : Number) : Option String :=
  match n.normalize with
  | .float f => if f.isFinite then some (String.ofList (Decimal.Layout.json.write f)) else none
  | m => some m.text

/-! ## Reading -/

/-- The value of a text of digits. -/
def digits? (cs : List Char) : Option Nat :=
  if !cs.isEmpty && cs.all Char.isDigit then some (Nat.ofDigitChars 10 cs 0) else none

/-- An integer of 64 bits without a sign; a plus sign may stand in front. -/
def unsigned? (cs : List Char) : Option UInt64 :=
  let digits := match cs with
    | '+' :: rest => rest
    | _ => cs
  match digits? digits with
  | some n => if n < UInt64.size then some (UInt64.ofNat n) else none
  | none => none

/-- An integer of 64 bits behind an optional sign. -/
def signed? (cs : List Char) : Option Int64 :=
  let (negative, digits) := Decimal.Numeral.scanSign cs
  match digits? digits with
  | some n =>
    let value : Int := if negative then -n else n
    if isSigned64 value then some (Int64.ofInt value) else none
  | none => none

/-- A finite floating point number. -/
def finite? (cs : List Char) : Option Binary64 :=
  match Decimal.Numeral.ofText? cs with
  | some n => if n.nearest.isFinite then some n.nearest else none
  | none => none

/-- The number that a text spells: an integer where one of 64 bits can hold it, and otherwise a
finite floating point number. -/
def ofText? (cs : List Char) : Option Number :=
  match unsigned? cs with
  | some n => some (.uint n)
  | none =>
    match signed? cs with
    | some n => some (.int n)
    | none => (finite? cs).map .float

/-- What is said of a text that spells no number. -/
def invalidText (s : String) : String := "invalid number `" ++ s ++ "`"

/-! ## JSON literals -/

/-- The integer that a numeral spells, where one of 64 bits can hold it. A zero with a minus sign
is no integer. -/
def integerOfNumeral? (n : Decimal.Numeral) : Option Number :=
  if n.isInteger && !(n.negative && n.wholeValue = 0) then
    ofInt? (if n.negative then -(n.wholeValue : Int) else n.wholeValue)
  else none

/-- The number nearest to a numeral. -/
def ofNumeral (n : Decimal.Numeral) : Number :=
  (integerOfNumeral? n).getD (.float n.nearest)

/-- The number that a JSON literal is read as, refused beyond the range of floating point. -/
def ofJsonLiteral? (literal : String) : Option Number :=
  match Decimal.Numeral.ofText? literal.toList with
  | none => none
  | some n =>
    match integerOfNumeral? n with
    | some m => some m
    | none => n.stepwise?.map .float

end TypedTemplate.Number
