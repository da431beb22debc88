import TypedTemplate.Json.Basic
import TypedTemplate.Json.Token

/-!
# Reading JSON texts

The tokens of a text are taken one at a time by a machine whose state is the arrays and objects
that are still open, and what may come next.

* `Reader.step`: one token.
* `Json.read?`: the tree of a text.
-/

namespace TypedTemplate.Json

/-- An array or an object that is still open, with what it holds so far in reverse. A key that names
no text is missing. -/
inductive Open where
  | element (before : List Json)
  | member (before : List (Option String × Json)) (key : Option String)

/-- What the machine waits for, inside the containers that are open. -/
inductive Reader where
  /-- A value. -/
  | value (outer : List Open)
  /-- The first element of an array, or its end. -/
  | firstElement (outer : List Open)
  /-- The first key of an object, or its end. -/
  | firstKey (outer : List Open)
  /-- A further key of an object. -/
  | key (outer : List Open) (before : List (Option String × Json))
  /-- The colon behind a key. -/
  | colon (outer : List Open) (before : List (Option String × Json)) (key : Option String)
  /-- What follows a value that is complete. -/
  | after (outer : List Open) (v : Json)

namespace Reader

/-- The object of some members, where all of its keys name texts. -/
def object (members : List (Option String × Json)) : Json :=
  match members.mapM fun m => m.1.map (·, m.2) with
  | some members => .object members
  | none => .unpaired

/-- The value that a token starts. -/
def start (outer : List Open) : Token → Option Reader
  | .null => some (.after outer .null)
  | .bool b => some (.after outer (.bool b))
  | .number literal => some (.after outer (.number literal))
  | .string (some s) => some (.after outer (.string s))
  | .string none => some (.after outer .unpaired)
  | .openArray => some (.firstElement outer)
  | .openObject => some (.firstKey outer)
  | _ => none

/-- The state after one more token, unless the token cannot stand here. -/
def step : Reader → Token → Option Reader
  | .value outer, t => start outer t
  | .firstElement outer, .closeArray => some (.after outer (.array []))
  | .firstElement outer, t => start (.element [] :: outer) t
  | .firstKey outer, .closeObject => some (.after outer (.object []))
  | .firstKey outer, .string k => some (.colon outer [] k)
  | .key outer before, .string k => some (.colon outer before k)
  | .colon outer before k, .colon => some (.value (.member before k :: outer))
  | .after (.element before :: outer) v, .comma => some (.value (.element (v :: before) :: outer))
  | .after (.element before :: outer) v, .closeArray =>
    some (.after outer (.array (v :: before).reverse))
  | .after (.member before k :: outer) v, .comma => some (.key outer ((k, v) :: before))
  | .after (.member before k :: outer) v, .closeObject =>
    some (.after outer (object ((k, v) :: before).reverse))
  | _, _ => none

/-- The state after a sequence of tokens. -/
def run (r : Reader) (ts : List Token) : Option Reader := ts.foldlM step r

/-- The value that has been read, when none is open. -/
def result? : Reader → Option Json
  | .after [] v => some v
  | _ => none

end Reader

/-- The tree of a JSON text. -/
def read? (cs : List Char) : Option Json :=
  match Token.all? cs with
  | none => none
  | some ts =>
    match Reader.run (.value []) ts with
    | none => none
    | some r => r.result?

end TypedTemplate.Json
