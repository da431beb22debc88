import TypedTemplate.Literal
import TypedTemplate.Schema.Basic

/-!
# What a schema admits

* `Schema.types?`: the types a schema admits, or nothing when it leaves them open.
* `Schema.accepts`: a value of one schema may stand where another one is expected.
* `Schema.category?`: the kind of scalar that a schema admits alone.
* `Schema.property?`, `Schema.element?`: the schema of a property, of array elements, searched for
  through the branches of combinators; the first one found counts.
* `Schema.propertyNames`: every property name that can be found.
-/

namespace TypedTemplate

/-! ## Sets of types -/

/-- A set of types, listed in order. -/
abbrev TypeSet := List TypeName

/-- The set of the types in a list. -/
def TypeSet.ofList (ts : List TypeName) : TypeSet := TypeName.all.filter fun t => ts.contains t

/-- The types of either set. -/
def TypeSet.union (a b : TypeSet) : TypeSet := TypeSet.ofList (a ++ b)

/-- The types of a list of values, if each has one. -/
def TypeSet.ofValues? (vs : List Value) : Option TypeSet :=
  (vs.mapM TypeName.ofValue?).map TypeSet.ofList

/-- A set of types in words; an open one, like an empty one, is of any type. -/
def TypeSet.describe : Option TypeSet → String
  | some (t :: ts) => " | ".intercalate ((t :: ts).map TypeName.text)
  | _ => "any"

namespace Schema

/-- The types that the schema names itself: by its tag, or by the values it lists. -/
def declaredTypes? (s : Schema) : Option TypeSet :=
  match s.type, s.const, s.enum with
  | some (.single t), _, _ => some (TypeSet.ofList [t])
  | some (.many ts), _, _ => some (TypeSet.ofList ts)
  | none, some c, _ => TypeSet.ofValues? [c]
  | none, none, some (v :: vs) => TypeSet.ofValues? (v :: vs)
  | none, none, _ => none

mutual

/-- The types that the schema admits. What it names itself comes first, then the union over its
alternatives, then the first conjunct that says anything. -/
def types? : Schema → Option TypeSet
  | ⟨t, d, ps, i, e, c, r, any, one, all⟩ =>
    match declaredTypes? ⟨t, d, ps, i, e, c, r, any, one, all⟩ with
    | some ts => some ts
    | none =>
      if !any.isEmpty then unionTypes? any
      else if !one.isEmpty then unionTypes? one
      else firstTypes? all
termination_by structural s => s

/-- The union over alternatives, open as soon as one of them is. -/
def unionTypes? : List Schema → Option TypeSet
  | [] => some []
  | s :: rest =>
    match types? s, unionTypes? rest with
    | some a, some b => some (TypeSet.union a b)
    | _, _ => none
termination_by structural bs => bs

/-- The types of the first branch that says anything. -/
def firstTypes? : List Schema → Option TypeSet
  | [] => none
  | s :: rest => (types? s).orElse fun _ => firstTypes? rest
termination_by structural bs => bs

end

/-- The schema admits a type, and does not leave the types open. -/
def hasType (s : Schema) (t : TypeName) : Bool :=
  match s.types? with
  | some ts => ts.contains t
  | none => false

/-- The schema admits texts alone. -/
def isString (s : Schema) : Bool := s.types? = some [.string]

/-- An integer may stand where a number is expected. -/
def admits (expected : TypeSet) (t : TypeName) : Bool :=
  expected.contains t || (t = .integer && expected.contains .number)

/-- A value of the second schema may stand where the first is expected; a schema that leaves its
types open fits everywhere. -/
def accepts (expected actual : Schema) : Bool :=
  match expected.types?, actual.types? with
  | some es, some as => as.all (admits es)
  | _, _ => true

/-- The kind of scalar that the schema admits alone. -/
def category? (s : Schema) : Option Literal.Category :=
  match s.types? with
  | none => none
  | some [] => none
  | some ts =>
    if ts.all fun t => t = .number || t = .integer then some .number
    else if ts = [.boolean] then some .boolean
    else if ts = [.null] then some .null
    else none

/-- The types in words, for messages. -/
def describe (s : Schema) : String := TypeSet.describe s.types?

/-! ## Arrays -/

mutual

/-- The schema is one of arrays: it admits them, or it has element schemas without a type, or all
its alternatives or one of its conjuncts are ones of arrays. -/
def isArray : Schema → Bool
  | ⟨t, d, ps, i, e, c, r, any, one, all⟩ =>
    hasType ⟨t, d, ps, i, e, c, r, any, one, all⟩ .array || (t.isNone && i.isSome) ||
      (if !any.isEmpty then allArrays any else !one.isEmpty && allArrays one) || someArray all
termination_by structural s => s

/-- All branches are schemas of arrays. -/
def allArrays : List Schema → Bool
  | [] => true
  | s :: rest => isArray s && allArrays rest
termination_by structural bs => bs

/-- Some branch is a schema of arrays. -/
def someArray : List Schema → Bool
  | [] => false
  | s :: rest => isArray s || someArray rest
termination_by structural bs => bs

end

mutual

/-- The schema of array elements. -/
def element? : Schema → Option Schema
  | ⟨_, _, _, some i, _, _, _, _, _, _⟩ => some i
  | ⟨_, _, _, none, _, _, _, any, one, all⟩ =>
    ((elementIn? any).orElse fun _ => elementIn? one).orElse fun _ => elementIn? all
termination_by structural s => s

/-- The schema of array elements in the first branch that has one. -/
def elementIn? : List Schema → Option Schema
  | [] => none
  | s :: rest => (element? s).orElse fun _ => elementIn? rest
termination_by structural bs => bs

end

/-! ## Properties -/

mutual

/-- The schema of a property. -/
def property? (name : String) : Schema → Option Schema
  | ⟨_, _, ps, _, _, _, _, any, one, all⟩ =>
    (((Dict.get? name ps).orElse fun _ => propertyIn? name any).orElse fun _ =>
      propertyIn? name one).orElse fun _ => propertyIn? name all
termination_by structural s => s

/-- The schema of a property in the first branch that has it. -/
def propertyIn? (name : String) : List Schema → Option Schema
  | [] => none
  | s :: rest => (property? name s).orElse fun _ => propertyIn? name rest
termination_by structural bs => bs

end

mutual

/-- The property names of a schema and its branches, with repetitions. -/
def declaredNames : Schema → List String
  | ⟨_, _, ps, _, _, _, _, any, one, all⟩ =>
    Dict.keys ps ++ declaredNamesIn any ++ declaredNamesIn one ++ declaredNamesIn all
termination_by structural s => s

/-- The property names of branches. -/
def declaredNamesIn : List Schema → List String
  | [] => []
  | s :: rest => declaredNames s ++ declaredNamesIn rest
termination_by structural bs => bs

end

/-- The names of all properties that can be found, in order. -/
def propertyNames (s : Schema) : List String := Text.sortNames s.declaredNames

end Schema

/-- The type of a kind of scalar. -/
def Literal.Category.typeName : Literal.Category → TypeName
  | .number => .number
  | .boolean => .boolean
  | .null => .null

/-- The schema of a kind of scalar. -/
def Literal.Category.schema (c : Literal.Category) : Schema := Schema.ofType c.typeName

end TypedTemplate
