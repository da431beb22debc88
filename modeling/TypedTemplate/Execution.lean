import TypedTemplate.Literal
import TypedTemplate.Program.Shape
import TypedTemplate.Template

/-!
# Execution

Executing a program gives a value. How depends on the shape of the program: a lone reference gives
what it refers to, text with references is put together without rendering, and everything else is
rendered, where a lone call or block gives the scalar that the rendered text spells.

* `Tier`: the ways of executing.
* `Program.tier`: the way that the shape of a program calls for.
* `Program.direct?`: the value of a program that need not be rendered.
* `Tier.interpret`: what a rendered text stands for.
* `Program.execute`: the value of a program.
-/

namespace TypedTemplate

/-! ## Tiers -/

/-- A way of executing a program. -/
inductive Tier where
  /-- A lone reference: what it refers to. -/
  | direct
  /-- A lone call: rendered, and turned back into a scalar. -/
  | helper
  /-- Text and references: put together. -/
  | fastPath
  /-- A lone block: rendered, and turned back into a scalar. -/
  | block
  /-- Anything else: rendered. -/
  | fallback
  deriving DecidableEq

/-- The name of a tier. -/
def Tier.text : Tier → String
  | .direct => "Direct"
  | .helper => "Helper"
  | .fastPath => "FastPath"
  | .block => "Block"
  | .fallback => "Fallback"

/-- The way that the shape of a program calls for. -/
def Program.tier (p : Program) : Tier :=
  match p.singleExpression? with
  | some s => if s.isPlain then .direct else .helper
  | none =>
    if p.isConcatenation && 1 < p.significant.length then .fastPath
    else if p.singleBlock?.isSome then .block
    else .fallback

/-! ## Without rendering -/

/-- The value of an expression that calls no helper. -/
def Expr.value (side : SideTable Value) (data : Value) : Expr → Value
  | .path p => resolveRoot side data p
  | .literal _ v => v
  | .call _ _ _ _ => .undefined

/-- The characters that a statement without calls contributes. -/
def Statement.plainChars (side : SideTable Value) (data : Value) : Statement → List Char
  | .content _ text => text.toList
  | .expression _ head _ _ => (head.value side data).renderChars
  | .block _ _ _ _ _ _ => []

/-- The text of a program of text and references. -/
def Program.concatenate (side : SideTable Value) (data : Value) (p : Program) : String :=
  String.ofList (p.flatMap (Statement.plainChars side data))

/-- The value of the head of an expression statement. -/
def Statement.headValue (side : SideTable Value) (data : Value) : Statement → Value
  | .expression _ head _ _ => head.value side data
  | _ => .undefined

/-- The value of a program that need not be rendered. -/
def Program.direct? (side : SideTable Value) (data : Value) (p : Program) : Option Value :=
  match p.tier with
  | .direct =>
    match p.singleExpression? with
    | some s => some (s.headValue side data)
    | none => some .undefined
  | .fastPath => some (.string (p.concatenate side data))
  | _ => none

/-! ## With rendering -/

/-- What a rendered text stands for. -/
def Tier.interpret : Tier → String → Value
  | .helper, text => Literal.coerce text
  | .block, text => Literal.coerce text
  | _, text => .string text

/-- The value that rendering an artifact gives to a program of a tier. -/
def Tier.run (t : Tier) (a : Artifact) (side : SideTable Value) (data : Value) :
    Except TemplateError Value :=
  match a.render side data with
  | .ok text => .ok (t.interpret text)
  | .error failure => .error (.failed a.template.source failure)

/-- The value of a program. Where it has to be rendered, the artifact is what is rendered. -/
def Program.execute (p : Program) (a : Artifact) (side : SideTable Value) (data : Value) :
    Except TemplateError Value :=
  match p.direct? side data with
  | some v => .ok v
  | none => p.tier.run a side data

/-- The value of an artifact over data. -/
def Artifact.execute (a : Artifact) (side : SideTable Value) (data : Value) :
    Except TemplateError Value :=
  a.template.program.execute a side data

end TypedTemplate
