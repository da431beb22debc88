import TypedTemplate.Analysis.Diagnostic
import TypedTemplate.Identifier
import TypedTemplate.Path

/-!
# Schemas of what paths refer to

The analysis keeps a stack of schemas like the stack of contexts that rendering keeps. A context
whose schema could not be found is unknown, and nothing is said about paths that start there.

* `Scope`: the schema of a context.
* `Declarations`: the schemas that are the same for a whole program.
* `Declarations.resolve`: the schema of a path, or a diagnostic.
-/

namespace TypedTemplate

/-- The schema of a context. -/
structure Scope where
  /-- The schema, unless what it belongs to could not be found. -/
  schema : Option Schema
  /-- The body of an iteration. -/
  iterating : Bool

/-- What there is to say about a part of a template, besides its schema. -/
abbrev Inferred (α : Type) := α × List Diagnostic

/-- The schemas that are the same for a whole program. -/
structure Declarations where
  /-- The schemas of the side sources. -/
  side : SideTable Schema
  /-- The schema of the data. -/
  root : Schema

/-- The names of the variables of an iteration. -/
def iterationNames : List String := ["index", "key", "first", "last"]

/-- The schema of a variable of an iteration. -/
def iterationSchema? (name : String) : Option Schema :=
  if name = "index" || name = "key" then some (.ofType .integer)
  else if name = "first" || name = "last" then some (.ofType .boolean)
  else none

/-- The schema at the end of segments that belong to a path. -/
def Schema.follow (s : Schema) (segments : List String) (path : Path) :
    Inferred (Option Schema) :=
  match s.walk segments with
  | .ok found => (some found, [])
  | .error miss =>
    (none, [⟨.unknownProperty path.written (segments.take miss.index) miss, path.span⟩])

namespace Declarations

variable (d : Declarations)

/-- The schema of a path to a variable. -/
def resolveVariable (scopes : List Scope) (path : Path) : Inferred (Option Schema) :=
  match path.parts with
  | [] => (none, [])
  | name :: rest =>
    if name = "root" then d.root.follow rest path
    else
      match iterationSchema? name with
      | some s =>
        if scopes.any Scope.iterating then s.follow rest path
        else (none, [⟨.outsideIteration name path.parts, path.span⟩])
      | none => (none, [⟨.unknownVariable name path.parts, path.span⟩])

/-- The schema of a path under scopes, innermost first. -/
def resolve (scopes : List Scope) (path : Path) : Inferred (Option Schema) :=
  if path.data then d.resolveVariable scopes path
  else
    let (segments, id) := extractIdentifier path.parts
    match id with
    | some id =>
      match d.side.get? id with
      | some source => source.follow segments path
      | none => (none, [⟨.unknownIdentifier id path.written segments, path.span⟩])
    | none =>
      match scopes[path.depth]? with
      | none => (none, [⟨.aboveRoot path.written segments, path.span⟩])
      | some scope =>
        match scope.schema with
        | some s => s.follow segments path
        | none => (none, [])

end Declarations

end TypedTemplate
