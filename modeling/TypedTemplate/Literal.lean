import TypedTemplate.Number.Text
import TypedTemplate.Text.Blank
import TypedTemplate.Value.Basic

/-!
# Literals in rendered text

Rendering always produces text. Where a program is in effect one block or one call, text that
spells a scalar of JSON is turned back into it. The grammar of numbers is narrow on purpose: an
optional minus sign, digits, and an optional fraction.

* `isNumberLiteral`: the grammar of numbers.
* `category?`: which kind of scalar a text spells.
* `coerce`: the scalar that a text spells once trimmed, or the text itself.
-/

namespace TypedTemplate.Literal

/-- A kind of scalar. -/
inductive Category where
  | number
  | boolean
  | null
  deriving DecidableEq

/-- Digits, and at least one. -/
def allDigits (cs : List Char) : Bool := !cs.isEmpty && cs.all Char.isDigit

/-- Digits, or digits on both sides of a point. -/
def isUnsignedLiteral (cs : List Char) : Bool :=
  match cs.span (· ≠ '.') with
  | (whole, []) => allDigits whole
  | (whole, _ :: fraction) => allDigits whole && allDigits fraction

/-- A number as literals spell it. -/
def isNumberLiteral : List Char → Bool
  | '-' :: rest => isUnsignedLiteral rest
  | cs => isUnsignedLiteral cs

/-- The kind of scalar that a text spells. -/
def category? (cs : List Char) : Option Category :=
  if cs = ['t', 'r', 'u', 'e'] || cs = ['f', 'a', 'l', 's', 'e'] then some .boolean
  else if cs = ['n', 'u', 'l', 'l'] then some .null
  else if isNumberLiteral cs then some .number
  else none

/-- The scalar that a rendered text spells once trimmed. A text that spells none is kept as it is,
and so is a number that no finite number stands for. -/
def coerce (raw : String) : Value :=
  let trimmed := Text.trim raw.toList
  match category? trimmed with
  | some .boolean => .bool (trimmed = ['t', 'r', 'u', 'e'])
  | some .null => .null
  | some .number =>
    match Number.ofText? trimmed with
    | some n => .number n
    | none => .string raw
  | none => .string raw

end TypedTemplate.Literal
