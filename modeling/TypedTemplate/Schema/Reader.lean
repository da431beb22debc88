import TypedTemplate.Schema.Basic
import TypedTemplate.Value.Reader

/-!
# Schemas as JSON

* `Schema.toJson`: the keywords that say anything, numbers normalized.
* `Schema.ofJson?`: the schema of a JSON object; keywords that are not known are passed over. A
  schema may also be listed as an array of its keywords in order.
* `Schema.withKeyword?_type` and those like it: what is read under each keyword.
* `Schema.readDepth`: how deeply the JSON of a schema nests where it is read.
* `Schema.ofJsonText?`: the schema of a JSON text.
-/

namespace TypedTemplate.Schema

/-! ## Writing -/

/-- A list of texts as JSON. -/
def textsJson (texts : List String) : Json := .array (texts.map .string)

/-- A type tag as JSON. -/
def typeJson : TypeTag → Json
  | .single t => .string t.text
  | .many ts => textsJson (ts.map TypeName.text)

/-- A member that is left out where there is nothing to say. -/
def memberIf (key : String) : Option Json → List (String × Json)
  | some j => [(key, j)]
  | none => []

mutual

/-- The schema as JSON. -/
def toJson : Schema → Json
  | ⟨t, d, ps, i, e, c, r, any, one, all⟩ =>
    .object (memberIf "type" (t.map typeJson) ++ memberIf "description" (d.map .string) ++
      memberIf "properties" (if ps.isEmpty then none else some (.object (toJsonProperties ps))) ++
      toJsonItems i ++ memberIf "enum" (e.map fun vs => .array (vs.map Value.toJson)) ++
      memberIf "const" (c.map Value.toJson) ++
      memberIf "required" (if r.isEmpty then none else some (textsJson r)) ++
      memberIf "anyOf" (if any.isEmpty then none else some (.array (toJsonBranches any))) ++
      memberIf "oneOf" (if one.isEmpty then none else some (.array (toJsonBranches one))) ++
      memberIf "allOf" (if all.isEmpty then none else some (.array (toJsonBranches all))))
termination_by structural s => s

/-- The properties as JSON. -/
def toJsonProperties : List (String × Schema) → List (String × Json)
  | [] => []
  | (k, s) :: rest => (k, toJson s) :: toJsonProperties rest
termination_by structural ps => ps

/-- The member of element schemas. -/
def toJsonItems : Option Schema → List (String × Json)
  | none => []
  | some s => [("items", toJson s)]
termination_by structural i => i

/-- The branches as JSON. -/
def toJsonBranches : List Schema → List Json
  | [] => []
  | s :: rest => toJson s :: toJsonBranches rest
termination_by structural bs => bs

end

/-! ## Reading -/

/-- A keyword of schemas. -/
inductive Keyword where
  | type
  | description
  | properties
  | items
  | enum
  | const
  | required
  | anyOf
  | oneOf
  | allOf
  deriving DecidableEq

/-- All keywords, in order. -/
def Keyword.all : List Keyword :=
  [.type, .description, .properties, .items, .enum, .const, .required, .anyOf, .oneOf, .allOf]

/-- The keyword as it is written. -/
def Keyword.text : Keyword → String
  | .type => "type"
  | .description => "description"
  | .properties => "properties"
  | .items => "items"
  | .enum => "enum"
  | .const => "const"
  | .required => "required"
  | .anyOf => "anyOf"
  | .oneOf => "oneOf"
  | .allOf => "allOf"

/-- The keyword that is written so. -/
def Keyword.ofText? (s : String) : Option Keyword := all.find? fun k => k.text = s

/-- A type name, as a text or as an object whose only member names it. -/
def typeName? : Json → Option TypeName
  | .string s => TypeName.ofText? s
  | .object [(s, .null)] => TypeName.ofText? s
  | _ => none

/-- The keyword `type`; null leaves it out. -/
def typeTag? : Json → Option (Option TypeTag)
  | .null => some none
  | .array js => (js.mapM typeName?).map fun ts => some (.many ts)
  | j => (typeName? j).map fun t => some (.single t)

/-- A text. -/
def text? : Json → Option String
  | .string s => some s
  | _ => none

/-- A list of texts. -/
def texts? : Json → Option (List String)
  | .array js => js.mapM text?
  | _ => none

/-- The keyword `description`; null leaves it out. -/
def description? : Json → Option (Option String)
  | .null => some none
  | .string s => some (some s)
  | _ => none

section Reading

variable (number? : String → Option Number)

/-- The keyword `enum`; null leaves it out. -/
def enum? : Json → Option (Option (List Value))
  | .null => some none
  | .array js => (Value.ofJsonItems? number? js).map some
  | _ => none

/-- The keyword `const`; null leaves it out. -/
def const? : Json → Option (Option Value)
  | .null => some none
  | j => (Value.ofJson? number? j).map some

mutual

/-- The schema of a JSON tree. -/
def ofJson? : Json → Option Schema
  | .object members => ofMembers? [] any members
  | .array js => ofPositions? Keyword.all any js
  | _ => none
termination_by structural j => j

/-- The schema with further keywords from the members of an object. No keyword comes twice. -/
def ofMembers? (seen : List Keyword) (s : Schema) : List (String × Json) → Option Schema
  | [] => some s
  | (k, j) :: rest =>
    match Keyword.ofText? k with
    | none => ofMembers? seen s rest
    | some keyword =>
      if seen.contains keyword then none
      else
        match withKeyword? s keyword j with
        | some s => ofMembers? (keyword :: seen) s rest
        | none => none
termination_by structural members => members

/-- The schema with further keywords from the elements of an array. -/
def ofPositions? (keywords : List Keyword) (s : Schema) : List Json → Option Schema
  | [] => some s
  | j :: rest =>
    match keywords with
    | [] => none
    | keyword :: keywords =>
      match withKeyword? s keyword j with
      | some s => ofPositions? keywords s rest
      | none => none
termination_by structural js => js

/-- The schema with one more keyword. -/
def withKeyword? (s : Schema) (keyword : Keyword) : Json → Option Schema
  | .object members =>
    match keyword with
    | .type => (typeTag? (.object members)).map fun t => { s with type := t }
    | .properties => (ofProperties? members).map fun ps =>
        { s with properties := Dict.ofList ps }
    | .items => (ofMembers? [] any members).map fun i => { s with items := some i }
    | .const => (const? number? (.object members)).map fun c => { s with const := c }
    | _ => none
  | .array js =>
    match keyword with
    | .type => (typeTag? (.array js)).map fun t => { s with type := t }
    | .items => (ofPositions? Keyword.all any js).map fun i => { s with items := some i }
    | .enum => (enum? number? (.array js)).map fun e => { s with enum := e }
    | .const => (const? number? (.array js)).map fun c => { s with const := c }
    | .required => (texts? (.array js)).map fun r => { s with required := r }
    | .anyOf => (ofBranches? js).map fun bs => { s with anyOf := bs }
    | .oneOf => (ofBranches? js).map fun bs => { s with oneOf := bs }
    | .allOf => (ofBranches? js).map fun bs => { s with allOf := bs }
    | _ => none
  | .null =>
    match keyword with
    | .type | .description | .items | .enum | .const => some s
    | _ => none
  | j =>
    match keyword with
    | .type => (typeTag? j).map fun t => { s with type := t }
    | .description => (description? j).map fun d => { s with description := d }
    | .const => (const? number? j).map fun c => { s with const := c }
    | _ => none
termination_by structural j => j

/-- The schemas of properties, in the order of the text. -/
def ofProperties? : List (String × Json) → Option (List (String × Schema))
  | [] => some []
  | (k, j) :: rest =>
    match ofJson? j, ofProperties? rest with
    | some s, some ss => some ((k, s) :: ss)
    | _, _ => none
termination_by structural members => members

/-- The schemas of branches. -/
def ofBranches? : List Json → Option (List Schema)
  | [] => some []
  | j :: rest =>
    match ofJson? j, ofBranches? rest with
    | some s, some ss => some (s :: ss)
    | _, _ => none
termination_by structural js => js

end

variable {number?}

/-! What is read under a keyword from JSON that it may have. -/

theorem withKeyword?_type (s : Schema) (tag : TypeTag) :
    withKeyword? number? s .type (typeJson tag) =
      (typeTag? (typeJson tag)).map fun t => { s with type := t } := by
  cases tag <;> rfl

theorem withKeyword?_description (s : Schema) (text : String) :
    withKeyword? number? s .description (.string text) =
      some { s with description := some text } := rfl

theorem withKeyword?_properties (s : Schema) (members : List (String × Json)) :
    withKeyword? number? s .properties (.object members) =
      (ofProperties? number? members).map fun ps =>
        { s with properties := Dict.ofList ps } := rfl

theorem withKeyword?_items (s : Schema) (members : List (String × Json)) :
    withKeyword? number? s .items (.object members) =
      (ofJson? number? (.object members)).map fun i => { s with items := some i } := rfl

theorem withKeyword?_enum (s : Schema) (js : List Json) :
    withKeyword? number? s .enum (.array js) =
      (Value.ofJsonItems? number? js).map fun vs => { s with enum := some vs } := by
  have henum : withKeyword? number? s .enum (.array js) =
      ((Value.ofJsonItems? number? js).map some).map fun e => { s with enum := e } := rfl
  rw [henum, Option.map_map]
  rfl

/-- What is read under `const`, unless it is null. -/
theorem withKeyword?_const (s : Schema) {j : Json} (hj : j ≠ .null) :
    withKeyword? number? s .const j =
      (Value.ofJson? number? j).map fun v => { s with const := some v } := by
  have hconst : withKeyword? number? s .const j =
      ((Value.ofJson? number? j).map some).map fun c => { s with const := c } := by
    cases j with
    | null => exact absurd rfl hj
    | _ => rfl
  rw [hconst, Option.map_map]
  rfl

theorem withKeyword?_const_null (s : Schema) :
    withKeyword? number? s .const .null = some s := rfl

theorem withKeyword?_required (s : Schema) (texts : List String) :
    withKeyword? number? s .required (textsJson texts) =
      (texts? (textsJson texts)).map fun r => { s with required := r } := rfl

theorem withKeyword?_anyOf (s : Schema) (js : List Json) :
    withKeyword? number? s .anyOf (.array js) =
      (ofBranches? number? js).map fun bs => { s with anyOf := bs } := rfl

theorem withKeyword?_oneOf (s : Schema) (js : List Json) :
    withKeyword? number? s .oneOf (.array js) =
      (ofBranches? number? js).map fun bs => { s with oneOf := bs } := rfl

theorem withKeyword?_allOf (s : Schema) (js : List Json) :
    withKeyword? number? s .allOf (.array js) =
      (ofBranches? number? js).map fun bs => { s with allOf := bs } := rfl

end Reading

/-! ## Nesting -/

mutual

/-- The nesting of the JSON of a schema. What is passed over does not count. -/
def readDepth : Json → Nat
  | .object members => readDepthMembers members + 1
  | .array js => readDepthPositions Keyword.all js + 1
  | _ => 0
termination_by structural j => j

/-- The greatest nesting among the keywords of an object. -/
def readDepthMembers : List (String × Json) → Nat
  | [] => 0
  | (k, j) :: rest =>
    match Keyword.ofText? k with
    | some keyword => max (readDepthUnder keyword j) (readDepthMembers rest)
    | none => readDepthMembers rest
termination_by structural members => members

/-- The greatest nesting among the keywords that an array lists. -/
def readDepthPositions (keywords : List Keyword) : List Json → Nat
  | [] => 0
  | j :: rest =>
    match keywords with
    | [] => 0
    | keyword :: keywords => max (readDepthUnder keyword j) (readDepthPositions keywords rest)
termination_by structural js => js

/-- The nesting of what a keyword says. -/
def readDepthUnder (keyword : Keyword) : Json → Nat
  | .object members =>
    match keyword with
    | .properties => readDepthProperties members + 1
    | .items => readDepthMembers members + 1
    | _ => (Json.object members).depth
  | .array js =>
    match keyword with
    | .items => readDepthPositions Keyword.all js + 1
    | .anyOf | .oneOf | .allOf => readDepthBranches js + 1
    | _ => (Json.array js).depth
  | _ => 0
termination_by structural j => j

/-- The greatest nesting among properties. -/
def readDepthProperties : List (String × Json) → Nat
  | [] => 0
  | (_, j) :: rest => max (readDepth j) (readDepthProperties rest)
termination_by structural members => members

/-- The greatest nesting among branches. -/
def readDepthBranches : List Json → Nat
  | [] => 0
  | j :: rest => max (readDepth j) (readDepthBranches rest)
termination_by structural js => js

end

/-- The schema of a JSON text, whose arrays and objects nest less than 128 deep where it is read. -/
def ofJsonText? (text : String) : Option Schema :=
  match Json.read? text.toList with
  | some j =>
    if readDepth j < Value.nestingLimit then ofJson? Number.ofJsonLiteral? j else none
  | none => none

end TypedTemplate.Schema
