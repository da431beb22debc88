import TypedTemplate.Program.Basic
import TypedTemplate.Render.Failure
import TypedTemplate.Render.Scope

/-!
# Rendering

Rendering turns a program and its data into text. Statements are rendered in order and the first
failure ends the whole.

* `call`: the answer of a helper; its arguments count only when there is such a helper.
* `evaluate`: the value of an expression.
* `BlockKind.bodies`: the contexts under which a block renders its body, once for each; a block
  without any renders its alternative.
* `renderStatement`, `renderProgram`: the text.
-/

namespace TypedTemplate

/-- The result of rendering: a value or text, or the first failure. -/
abbrev Rendered (α : Type) := Except RenderFailure α

/-- What rendering looks things up in. -/
structure Renderer extends Environment where
  helpers : HelperSet

namespace Renderer

variable (r : Renderer)

/-! ## Expressions -/

/-- The answer of a helper on its arguments. That there is no such helper comes before anything that
is wrong with the arguments. -/
def call (span : Span) (name : String) (args : Rendered (List Value))
    (named : Rendered (List (String × Value))) : Rendered Value :=
  match Dict.get? name r.helpers with
  | none => .error ⟨.unknownHelper name, span⟩
  | some helper =>
    match args with
    | .error e => .error e
    | .ok args =>
      match named with
      | .error e => .error e
      | .ok named =>
        match helper.call args (Dict.ofList named) with
        | .error failure => .error ⟨.helperFailed name failure, span⟩
        | .ok v => .ok v

mutual

/-- The value of an expression. -/
def evaluate (frames : List Frame) : Expr → Rendered Value
  | .path p => .ok (r.resolve frames p)
  | .literal _ v => .ok v
  | .call span name params hash =>
    r.call span name (evaluateAll frames params) (evaluateNamed frames hash)
termination_by structural e => e

/-- The values of expressions. -/
def evaluateAll (frames : List Frame) : List Expr → Rendered (List Value)
  | [] => .ok []
  | e :: rest =>
    match evaluate frames e with
    | .error failure => .error failure
    | .ok v => (evaluateAll frames rest).map (v :: ·)
termination_by structural es => es

/-- The values of named expressions. -/
def evaluateNamed (frames : List Frame) : List (String × Expr) → Rendered (List (String × Value))
  | [] => .ok []
  | (name, e) :: rest =>
    match evaluate frames e with
    | .error failure => .error failure
    | .ok v => (evaluateNamed frames rest).map ((name, v) :: ·)
termination_by structural es => es

end

/-- The answer of the helper of a name on expressions. -/
def callOn (frames : List Frame) (span : Span) (name : String) (params : List Expr)
    (hash : List (String × Expr)) : Rendered Value :=
  r.call span name (r.evaluateAll frames params) (r.evaluateNamed frames hash)

/-- The value of an expression statement. -/
def evaluateStatement (frames : List Frame) (span : Span) (head : Expr) (params : List Expr)
    (hash : List (String × Expr)) : Rendered Value :=
  match helperName? head params hash with
  | some name => r.callOn frames span name params hash
  | none => r.evaluate frames head

/-! ## Blocks -/

end Renderer

/-- The elements of an array or object, each under its index or name. -/
def Value.entries : Value → List (Value × Value)
  | .array items => items.mapIdx fun i v => (.number (.ofNat i), v)
  | .object members => members.map fun (name, v) => (.string name, v)
  | _ => []

/-- The contexts of an iteration over entries. -/
def iterationFrames (entries : List (Value × Value)) : List Frame :=
  entries.mapIdx fun i (key, context) =>
    ⟨context, some ⟨i, key, i = 0, i + 1 = entries.length⟩⟩

/-- The contexts under which a block renders its body, given what it decides by. -/
def BlockKind.bodies (kind : BlockKind) (frames : List Frame) (v : Value) : List (List Frame) :=
  match kind with
  | .whenTrue => if v.isTruthy then [frames] else []
  | .whenFalse => if v.isTruthy then [] else [frames]
  | .custom _ => if v.isTruthy then [frames] else []
  | .inside => if v.isTruthy then [⟨v, none⟩ :: frames] else []
  | .forEach => (iterationFrames v.entries).map (· :: frames)

namespace Renderer

variable (r : Renderer)

/-- What a block decides by: the answer of its helper, or its target. -/
def decider (frames : List Frame) (span : Span) (kind : BlockKind) (params : List Expr)
    (hash : List (String × Expr)) : Rendered Value :=
  match kind, params with
  | .custom name, params => r.callOn frames span name params hash
  | _, target :: _ => r.evaluate frames target
  | _, [] => .ok .undefined

/-- The text of a body under each of several contexts. -/
def renderBodies (render : List Frame → Rendered (List Char)) :
    List (List Frame) → Rendered (List Char)
  | [] => .ok []
  | frames :: rest =>
    match render frames with
    | .error failure => .error failure
    | .ok text => (renderBodies render rest).map (text ++ ·)

/-! ## Statements -/

mutual

/-- The text of a statement. -/
def renderStatement (frames : List Frame) : Statement → Rendered (List Char)
  | .content _ text => .ok text.toList
  | .expression span head params hash =>
    (r.evaluateStatement frames span head params hash).map Value.renderChars
  | .block span kind params hash program inverse =>
    match r.decider frames span kind params hash with
    | .error failure => .error failure
    | .ok v =>
      match kind.bodies frames v with
      | [] => renderInverse frames inverse
      | bodies => renderBodies (fun frames => renderProgram frames program) bodies
termination_by structural s => s

/-- The text of a program. -/
def renderProgram (frames : List Frame) : List Statement → Rendered (List Char)
  | [] => .ok []
  | s :: rest =>
    match renderStatement frames s with
    | .error failure => .error failure
    | .ok text => (renderProgram frames rest).map (text ++ ·)
termination_by structural p => p

/-- The text of the alternative of a block, if there is one. -/
def renderInverse (frames : List Frame) : Option (List Statement) → Rendered (List Char)
  | none => .ok []
  | some program => renderProgram frames program
termination_by structural p => p

end

/-- The text of a program over the data. -/
def render (program : Program) : Rendered String :=
  (r.renderProgram [⟨r.root, none⟩] program).map String.ofList

end Renderer

end TypedTemplate
