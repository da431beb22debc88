import TypedTemplate.Value.Basic

/-!
# Schemas

A schema says what data a template may refer to, and what a template is inferred to produce. It
keeps the keywords of JSON Schema that decide how a path is walked and which types are admitted;
no value is ever validated against it.

* `TypeName`: the seven names of types, in the order in which they are listed.
* `Schema`: the keywords; `Schema.any` has none of them.
* `Schema.equals`: equality, with the numbers of enumerations compared by value.
-/

namespace TypedTemplate

/-! ## Types -/

/-- The name of a type. -/
inductive TypeName where
  | string
  | number
  | integer
  | boolean
  | null
  | array
  | object
  deriving DecidableEq

namespace TypeName

/-- All names, in order. -/
def all : List TypeName := [.string, .number, .integer, .boolean, .null, .array, .object]

/-- The name as it is written. -/
def text : TypeName → String
  | .string => "string"
  | .number => "number"
  | .integer => "integer"
  | .boolean => "boolean"
  | .null => "null"
  | .array => "array"
  | .object => "object"

/-- The type that is written so. -/
def ofText? (s : String) : Option TypeName := all.find? fun t => t.text = s

/-- The type of a value; what is not there has none. -/
def ofValue? : Value → Option TypeName
  | .null => some .null
  | .bool _ => some .boolean
  | .number n => some (if n.isInteger then .integer else .number)
  | .string _ => some .string
  | .array _ => some .array
  | .object _ => some .object
  | .undefined => none

end TypeName

/-- The keyword `type`: one name, or a list of them. -/
inductive TypeTag where
  | single (t : TypeName)
  | many (ts : List TypeName)
  deriving DecidableEq

/-! ## Schemas -/

/-- A schema, keyword by keyword. -/
structure Schema where
  type : Option TypeTag
  description : Option String
  properties : List (String × Schema)
  items : Option Schema
  enum : Option (List Value)
  const : Option Value
  required : List String
  anyOf : List Schema
  oneOf : List Schema
  allOf : List Schema

namespace Schema

/-- The schema without any constraint. -/
def any : Schema := ⟨none, none, [], none, none, none, [], [], [], []⟩

/-- The schema of one type. -/
def ofType (t : TypeName) : Schema := { any with type := some (.single t) }

/-- The schema of an object with the given properties, all of them required. -/
def ofProperties (properties : Dict Schema) : Schema :=
  { any with type := some (.single .object), properties, required := properties.keys }

/-- The schema of the type of a value. -/
def ofValue (v : Value) : Schema :=
  match TypeName.ofValue? v with
  | some t => ofType t
  | none => any

/-! ## Equality -/

/-- Optional values are the same. -/
def equalsConst : Option Value → Option Value → Bool
  | none, none => true
  | some a, some b => a.equals b
  | _, _ => false

/-- Optional enumerations are the same. -/
def equalsEnum : Option (List Value) → Option (List Value) → Bool
  | none, none => true
  | some as, some bs => Value.equalsItems as bs
  | _, _ => false

mutual

/-- The schemas are the same, keyword by keyword. -/
def equals : Schema → Schema → Bool
  | ⟨t, d, ps, i, e, c, r, any, one, all⟩, s =>
    t = s.type && d = s.description && equalsProperties ps s.properties && equalsItems i s.items &&
      equalsEnum e s.enum && equalsConst c s.const && r = s.required &&
      equalsBranches any s.anyOf && equalsBranches one s.oneOf && equalsBranches all s.allOf
termination_by structural s => s

/-- The properties are the same, one by one. -/
def equalsProperties : List (String × Schema) → List (String × Schema) → Bool
  | [], [] => true
  | (k, a) :: as, (l, b) :: bs => k = l && equals a b && equalsProperties as bs
  | _, _ => false
termination_by structural ps => ps

/-- The element schemas are the same. -/
def equalsItems : Option Schema → Option Schema → Bool
  | none, none => true
  | some a, some b => equals a b
  | _, _ => false
termination_by structural i => i

/-- The branches are the same, one by one. -/
def equalsBranches : List Schema → List Schema → Bool
  | [], [] => true
  | a :: as, b :: bs => equals a b && equalsBranches as bs
  | _, _ => false
termination_by structural bs => bs

end

end Schema

end TypedTemplate
