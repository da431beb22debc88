/-!
# JSON texts as trees

A JSON text is kept as it is written: numbers by their digits, object members in their order and
with their repetitions. What a number or a repeated member means is decided where the tree is read.
A string may spell a surrogate that stands alone; such a string is well formed, but names no text.

* `Json`: the tree.
* `Json.print`: the compact text of a tree.
* `Json.depth`: how deeply arrays and objects nest.
-/

namespace TypedTemplate

/-- A JSON text. -/
inductive Json where
  | null
  | bool (b : Bool)
  | number (literal : String)
  | string (s : String)
  /-- A string with a surrogate that stands alone, or an object with such a key. -/
  | unpaired
  | array (items : List Json)
  | object (members : List (String × Json))

namespace Json

/-! ## Printing -/

/-- A character inside a JSON string. -/
def escape (c : Char) : List Char :=
  if c = '"' then ['\\', '"']
  else if c = '\\' then ['\\', '\\']
  else if c = '\x08' then ['\\', 'b']
  else if c = '\x0c' then ['\\', 'f']
  else if c = '\n' then ['\\', 'n']
  else if c = '\r' then ['\\', 'r']
  else if c = '\t' then ['\\', 't']
  else if c.toNat < 32 then
    ['\\', 'u', '0', '0', Nat.digitChar (c.toNat / 16), Nat.digitChar (c.toNat % 16)]
  else [c]

/-- A text as a JSON string. -/
def quote (s : String) : List Char := '"' :: s.toList.flatMap escape ++ ['"']

mutual

/-- The compact text of a tree. -/
def chars : Json → List Char
  | .null => ['n', 'u', 'l', 'l']
  | .bool true => ['t', 'r', 'u', 'e']
  | .bool false => ['f', 'a', 'l', 's', 'e']
  | .number literal => literal.toList
  | .string s => quote s
  | .unpaired => ['"', '\\', 'u', 'd', '8', '0', '0', '"']
  | .array [] => ['[', ']']
  | .array (v :: rest) => '[' :: chars v ++ charsItems rest ++ [']']
  | .object [] => ['{', '}']
  | .object ((k, v) :: rest) => '{' :: quote k ++ ':' :: chars v ++ charsMembers rest ++ ['}']
termination_by structural j => j

/-- Further array elements, each behind a comma. -/
def charsItems : List Json → List Char
  | [] => []
  | v :: rest => ',' :: chars v ++ charsItems rest
termination_by structural items => items

/-- Further object members, each behind a comma. -/
def charsMembers : List (String × Json) → List Char
  | [] => []
  | (k, v) :: rest => ',' :: quote k ++ ':' :: chars v ++ charsMembers rest
termination_by structural members => members

end

/-- The compact text of a tree. -/
def print (j : Json) : String := String.ofList j.chars

/-! ## Nesting -/

mutual

/-- The number of arrays and objects around the innermost leaf. -/
def depth : Json → Nat
  | .array items => depthItems items + 1
  | .object members => depthMembers members + 1
  | _ => 0
termination_by structural j => j

/-- The greatest depth among array elements. -/
def depthItems : List Json → Nat
  | [] => 0
  | v :: rest => max (depth v) (depthItems rest)
termination_by structural items => items

/-- The greatest depth among object members. -/
def depthMembers : List (String × Json) → Nat
  | [] => 0
  | (_, v) :: rest => max (depth v) (depthMembers rest)
termination_by structural members => members

end

end Json

end TypedTemplate
