import TypedTemplate.Path
import TypedTemplate.Value.Basic

/-!
# Programs

The program of a template is the list of its statements: text, expressions and blocks, which hold
programs themselves.

* `Expr`: a path, a literal, or a call in parentheses.
* `Statement`, `Program`: what a template does, in order.
* `Call`: the head and the arguments of an expression statement, and whether they are a call.
-/

namespace TypedTemplate

/-! ## Expressions -/

/-- An expression inside a tag. -/
inductive Expr where
  | path (path : Path)
  | literal (span : Span) (value : Value)
  | call (span : Span) (name : String) (params : List Expr) (hash : List (String × Expr))

/-- The span of an expression; that of a call is its opening parenthesis. -/
def Expr.span : Expr → Span
  | .path p => p.span
  | .literal s _ => s
  | .call s _ _ _ => s

/-! ## Statements -/

/-- The kind of a block, by the first word of its tag. -/
inductive BlockKind where
  /-- `if`: the body where the target is true. -/
  | whenTrue
  /-- `unless`: the body where the target is false. -/
  | whenFalse
  /-- `each`: the body for every element of the target. -/
  | forEach
  /-- `with`: the body in the context of the target. -/
  | inside
  /-- Any other name: the body where the helper of that name answers true. -/
  | custom (name : String)
  deriving DecidableEq

/-- The kind of block that a name stands for. -/
def BlockKind.ofName (name : String) : BlockKind :=
  if name = "if" then .whenTrue
  else if name = "unless" then .whenFalse
  else if name = "each" then .forEach
  else if name = "with" then .inside
  else .custom name

/-- The name of a kind of block. -/
def BlockKind.name : BlockKind → String
  | .whenTrue => "if"
  | .whenFalse => "unless"
  | .forEach => "each"
  | .inside => "with"
  | .custom name => name

/-- The block names a helper. -/
def BlockKind.isCustom : BlockKind → Bool
  | .custom _ => true
  | _ => false

/-- A statement of a program. -/
inductive Statement where
  | content (span : Span) (text : String)
  | expression (span : Span) (head : Expr) (params : List Expr) (hash : List (String × Expr))
  | block (span : Span) (kind : BlockKind) (params : List Expr) (hash : List (String × Expr))
      (program : List Statement) (inverse : Option (List Statement))

/-- The span of a statement. -/
def Statement.span : Statement → Span
  | .content s _ => s
  | .expression s _ _ _ => s
  | .block s _ _ _ _ _ => s

/-- What a template does, in order. -/
abbrev Program := List Statement

/-! ## Calls -/

/-- The expression has arguments, or is a call in parentheses. -/
def isHelperCall (head : Expr) (params : List Expr) (hash : List (String × Expr)) : Bool :=
  !params.isEmpty || !hash.isEmpty ||
    match head with
    | .call _ _ _ _ => true
    | _ => false

/-- The name of the helper that an expression with arguments calls. -/
def helperName? (head : Expr) (params : List Expr) (hash : List (String × Expr)) :
    Option String :=
  match head with
  | .path p => if isHelperCall head params hash then p.simpleName? else none
  | _ => none

end TypedTemplate
