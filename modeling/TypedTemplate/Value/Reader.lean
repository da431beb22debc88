import TypedTemplate.Json.Reader
import TypedTemplate.Value.Basic

/-!
# Reading values from JSON

* `Value.ofJson?`: the value of a JSON tree, under a choice of how number literals are read; of
  repeated members the last one counts.
* `Value.ofJsonText?`: the value of a JSON text, whose arrays and objects nest less than 128 deep.
-/

namespace TypedTemplate.Value

mutual

/-- The value of a JSON tree. -/
def ofJson? (number? : String → Option Number) : Json → Option Value
  | .null => some .null
  | .bool b => some (.bool b)
  | .number literal => (number? literal).map .number
  | .string s => some (.string s)
  | .unpaired => none
  | .array items => (ofJsonItems? number? items).map .array
  | .object members => (ofJsonMembers? number? members).map fun ms => .object (Dict.ofList ms)
termination_by structural j => j

/-- The values of array elements. -/
def ofJsonItems? (number? : String → Option Number) : List Json → Option (List Value)
  | [] => some []
  | j :: rest =>
    match ofJson? number? j, ofJsonItems? number? rest with
    | some v, some vs => some (v :: vs)
    | _, _ => none
termination_by structural items => items

/-- The values of object members, in the order of the text. -/
def ofJsonMembers? (number? : String → Option Number) :
    List (String × Json) → Option (List (String × Value))
  | [] => some []
  | (k, j) :: rest =>
    match ofJson? number? j, ofJsonMembers? number? rest with
    | some v, some vs => some ((k, v) :: vs)
    | _, _ => none
termination_by structural members => members

end

/-- A JSON text nests its arrays and objects less deep than this. -/
def nestingLimit : Nat := 128

/-- The value of a JSON text. -/
def ofJsonText? (text : String) : Option Value :=
  match Json.read? text.toList with
  | some j => if j.depth < nestingLimit then ofJson? Number.ofJsonLiteral? j else none
  | none => none

end TypedTemplate.Value
