import TypedTemplate.Dict
import TypedTemplate.Json.Basic
import TypedTemplate.Number.Text

/-!
# Values

Template data is JSON, with a mark for what is not there. The members of an object are in key
order.

* `Value.equals`: equality, numbers by value.
* `Value.isTruthy`: what a condition takes as true.
* `Value.toJson`: the value as a JSON text.
* `Value.render`: the text a value becomes in rendered output.
* `Value.item`, `Value.member`: element and member access, absence being `undefined`.
-/

namespace TypedTemplate

/-- A piece of template data. -/
inductive Value where
  | null
  | bool (b : Bool)
  | number (n : Number)
  | string (s : String)
  | array (items : List Value)
  | object (members : List (String × Value))
  /-- Nothing is there. -/
  | undefined

namespace Value

/-! ## Equality -/

mutual

/-- The values are the same, numbers being compared by value. -/
def equals : Value → Value → Bool
  | .null, .null => true
  | .undefined, .undefined => true
  | .bool a, .bool b => a = b
  | .number a, .number b => a.equals b
  | .string a, .string b => a = b
  | .array as, .array bs => equalsItems as bs
  | .object as, .object bs => equalsMembers as bs
  | _, _ => false
termination_by structural v => v

/-- The elements are the same, one by one. -/
def equalsItems : List Value → List Value → Bool
  | [], [] => true
  | a :: as, b :: bs => equals a b && equalsItems as bs
  | _, _ => false
termination_by structural items => items

/-- The members are the same, one by one. -/
def equalsMembers : List (String × Value) → List (String × Value) → Bool
  | [], [] => true
  | (k, a) :: as, (l, b) :: bs => k = l && equals a b && equalsMembers as bs
  | _, _ => false
termination_by structural members => members

end

/-! ## Kinds -/

/-- The name of the kind of a value, as messages use it. -/
def typeName : Value → String
  | .null => "null"
  | .bool _ => "boolean"
  | .number _ => "number"
  | .string _ => "string"
  | .array _ => "array"
  | .object _ => "object"
  | .undefined => "undefined"

/-- Nothing is there. -/
def isUndefined : Value → Bool
  | .undefined => true
  | _ => false

/-- Null, or nothing there. -/
def isNullish : Value → Bool
  | .null | .undefined => true
  | _ => false

/-- What a condition takes as true: not null, false, zero, NaN, an empty text or an empty array. -/
def isTruthy : Value → Bool
  | .null | .undefined => false
  | .bool b => b
  | .number n => !n.isZero && !n.toBinary64.isNaN
  | .string s => !s.isEmpty
  | .array items => !items.isEmpty
  | .object _ => true

/-- What is said of a value that is not a number. -/
def notANumber : String := "not a number"

/-- What is said of a value that is not an array. -/
def notAnArray : String := "not an array"

/-- What is said of a value that is not an object. -/
def notAnObject : String := "not an object"

/-- The number, where the value is one. -/
def number? : Value → Option Number
  | .number n => some n
  | _ => none

/-- The elements, where the value is an array. -/
def items? : Value → Option (List Value)
  | .array items => some items
  | _ => none

/-- The members, where the value is an object. -/
def members? : Value → Option (Dict Value)
  | .object members => some members
  | _ => none

/-! ## Access -/

/-- The element at an index. -/
def item (v : Value) (index : Nat) : Value :=
  match v with
  | .array items => items[index]?.getD .undefined
  | _ => .undefined

/-- The member of a name. -/
def member (v : Value) (key : String) : Value :=
  match v with
  | .object members => (Dict.get? key members).getD .undefined
  | _ => .undefined

/-! ## Text -/

mutual

/-- The value as JSON; what is not there, like a number JSON cannot say, is null. -/
def toJson : Value → Json
  | .null | .undefined => .null
  | .bool b => .bool b
  | .number n =>
    match n.jsonLiteral? with
    | some literal => .number literal
    | none => .null
  | .string s => .string s
  | .array items => .array (toJsonItems items)
  | .object members => .object (toJsonMembers members)
termination_by structural v => v

/-- The elements as JSON. -/
def toJsonItems : List Value → List Json
  | [] => []
  | v :: rest => toJson v :: toJsonItems rest
termination_by structural items => items

/-- The members as JSON. -/
def toJsonMembers : List (String × Value) → List (String × Json)
  | [] => []
  | (k, v) :: rest => (k, toJson v) :: toJsonMembers rest
termination_by structural members => members

end

/-- The JSON text of a value. -/
def jsonText (v : Value) : String := v.toJson.print

mutual

/-- The characters a value becomes in rendered output: nothing for null, elements behind one
another with commas between, objects as JSON. -/
def renderChars : Value → List Char
  | .null | .undefined => []
  | .bool true => ['t', 'r', 'u', 'e']
  | .bool false => ['f', 'a', 'l', 's', 'e']
  | .number n => n.chars
  | .string s => s.toList
  | .array [] => []
  | .array (v :: rest) => renderChars v ++ renderItems rest
  | .object members => (toJson (.object members)).chars
termination_by structural v => v

/-- Further elements, each behind a comma. -/
def renderItems : List Value → List Char
  | [] => []
  | v :: rest => ',' :: renderChars v ++ renderItems rest
termination_by structural items => items

end

/-- The text a value becomes in rendered output. -/
def render (v : Value) : String := String.ofList v.renderChars

end Value

end TypedTemplate
