import TypedTemplate.Identifier
import TypedTemplate.Path
import TypedTemplate.Walk

/-!
# What paths refer to

While a program is rendered, contexts lie on one another: blocks lay a new one on top, and `../`
leaves the topmost. Nothing is ever an error here: what cannot be found is `undefined`.

* `Frame`: a context, and what an iteration knows about it.
* `Environment`: what is the same for a whole program.
* `Environment.resolve`: the value of a path under the contexts at hand.
* `resolveRoot`: the value of a path where the data is the only context.
-/

namespace TypedTemplate

/-! ## Contexts -/

/-- What an iteration knows about the element it is at. -/
structure Iteration where
  index : Nat
  /-- The index in an array, the name in an object. -/
  key : Value
  first : Bool
  last : Bool

/-- A context. -/
structure Frame where
  context : Value
  /-- The iteration that laid the context. -/
  iteration : Option Iteration

/-- What is the same for a whole program. -/
structure Environment where
  /-- The side sources of data. -/
  side : SideTable Value
  /-- The data. -/
  root : Value

/-! ## Resolution -/

/-- The value at the end of segments. -/
def Value.follow (v : Value) (segments : List String) : Value := (v.walk? segments).getD .undefined

/-- The value of segments in a context, or in the side source that they select. -/
def resolveIn (side : SideTable Value) (context : Value) (segments : List String) : Value :=
  let (segments, id) := extractIdentifier segments
  match id with
  | none => context.follow segments
  | some id =>
    match side.get? id with
    | some source => source.follow segments
    | none => .undefined

/-- The variable of an iteration. -/
def Iteration.lookup (it : Iteration) (name : String) : Value :=
  if name = "index" then .number (.ofNat it.index)
  else if name = "key" then it.key
  else if name = "first" then .bool it.first
  else if name = "last" then .bool it.last
  else .undefined

namespace Environment

/-- The variable of a name: the data, or what the innermost iteration knows. -/
def lookup (env : Environment) (frames : List Frame) (name : String) : Value :=
  if name = "root" then env.root
  else
    match frames.findSome? Frame.iteration with
    | some it => it.lookup name
    | none => .undefined

/-- The value of a path under contexts, innermost first. -/
def resolve (env : Environment) (frames : List Frame) (path : Path) : Value :=
  if path.data then
    match path.parts with
    | [] => .undefined
    | name :: rest => (env.lookup frames name).follow rest
  else
    match frames[path.depth]? with
    | some frame => resolveIn env.side frame.context path.parts
    | none => .undefined

end Environment

/-- The value of a path where the data is the only context. -/
def resolveRoot (side : SideTable Value) (data : Value) (path : Path) : Value :=
  if 0 < path.depth then .undefined
  else if path.data then
    match path.parts with
    | "root" :: rest => data.follow rest
    | _ => .undefined
  else resolveIn side data path.parts

end TypedTemplate
