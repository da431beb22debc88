import TypedTemplate.Dict
import TypedTemplate.Json.Basic
import TypedTemplate.Number.Text

/-!
# Settings of an engine

* `Settings`: how much an engine keeps, and whether it starts with helpers.
* `Settings.ofJson?`, `Settings.toJson`: the settings as JSON.
* `Settings.shown`: the settings on one line.
-/

namespace TypedTemplate

/-- The settings of an engine. -/
structure Settings where
  /-- How many templates are kept. -/
  parsedCapacity : Nat
  /-- How many artifacts are kept. -/
  compiledCapacity : Nat
  /-- The helpers of the catalogue are there from the start. -/
  builtinHelpers : Bool
  deriving DecidableEq

namespace Settings

/-- The settings unless others are chosen. -/
def standard : Settings := ⟨256, 256, true⟩

/-! ## JSON -/

/-- The name under which `parsedCapacity` is written. -/
def parsedKey : String := "ast_cache_capacity"

/-- The name under which `compiledCapacity` is written. -/
def compiledKey : String := "render_cache_capacity"

/-- The name under which `builtinHelpers` is written. -/
def builtinKey : String := "builtin_helpers"

/-- A natural number of 64 bits. -/
def size? : Json → Option Nat
  | .number literal =>
    match Decimal.Numeral.ofText? literal.toList with
    | some n =>
      match Number.integerOfNumeral? n with
      | some (.uint m) => some m.toNat
      | _ => none
    | none => none
  | _ => none

/-- A truth value. -/
def bool? : Json → Option Bool
  | .bool b => some b
  | _ => none

/-- The settings with the one of a key changed. -/
def set? (s : Settings) (key : String) (j : Json) : Option Settings :=
  if key = parsedKey then (size? j).map fun n => { s with parsedCapacity := n }
  else if key = compiledKey then (size? j).map fun n => { s with compiledCapacity := n }
  else if key = builtinKey then (bool? j).map fun b => { s with builtinHelpers := b }
  else none

/-- The settings of a JSON object, others being standard; of repeated members the last one counts,
and a member of another name is refused. The settings may also be listed in order. -/
def ofJson? : Json → Option Settings
  | .object members =>
    (Dict.ofList members).foldlM (fun s m => s.set? m.1 m.2) standard
  | .array items =>
    if items.length ≤ 3 then
      ([parsedKey, compiledKey, builtinKey].zip items).foldlM (fun s m => s.set? m.1 m.2) standard
    else none
  | _ => none

/-- The settings as JSON. -/
def toJson (s : Settings) : Json :=
  .object [(parsedKey, .number (toString s.parsedCapacity)),
    (compiledKey, .number (toString s.compiledCapacity)), (builtinKey, .bool s.builtinHelpers)]

/-- The settings on one line. -/
def shown (s : Settings) : String :=
  "EngineConfig \x7b " ++ parsedKey ++ ": " ++ toString s.parsedCapacity ++ ", " ++ compiledKey ++
    ": " ++ toString s.compiledCapacity ++ ", " ++ builtinKey ++ ": " ++
    toString s.builtinHelpers ++ " \x7d"

end Settings

end TypedTemplate
