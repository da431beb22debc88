import TypedTemplate.Analysis.Scope
import TypedTemplate.Helper.Basic
import TypedTemplate.Program.Shape

/-!
# The schema of what a program produces

A program is gone through once. Every reference that cannot be resolved is reported, and the schema
of what executing the program produces is inferred: a lone expression produces what it refers to, a
lone block may produce a scalar where all of its text spells one, and everything else is a text.

* `Analyzer.judge`: a call of a helper, and its arguments against the declaration.
* `Analyzer.inferExpr`: the schema of an expression.
* `Branch`: what the body of a block contributes to the scalar that the block produces.
* `Analyzer.inferStatement`, `Analyzer.inferProgram`: the schema of a statement and of a program.
* `analyze`: the analysis of a program.
-/

namespace TypedTemplate

/-! ## Calls -/

/-- An argument of a call, analysed. -/
structure Argument where
  span : Span
  /-- The schema of the argument, unless it could not be found. -/
  schema : Option Schema
  diagnostics : List Diagnostic

/-- The number of arguments fits a helper. -/
def Helper.takes (h : Helper) (count : Nat) : Bool :=
  h.minArgs ≤ count &&
    match h.maxArgs? with
    | some most => count ≤ most
    | none => true

/-- What there is to say about the number of arguments. -/
def Helper.countProblems (h : Helper) (span : Span) (count : Nat) : List Diagnostic :=
  if h.takes count then []
  else [⟨.argumentCount h.name h.minArgs h.maxArgs? count, span⟩]

/-- What there is to say about the type of the argument at an index. -/
def Helper.typeProblems (h : Helper) (index : Nat) (a : Argument) : List Diagnostic :=
  match h.param? index, a.schema with
  | some ⟨name, some expected, _⟩, some got =>
    if expected.accepts got then []
    else [⟨.argumentType h.name name expected.types? got.types?, a.span⟩]
  | _, _ => []

/-- What there is to say about arguments, the first of which has the given index. -/
def Helper.argumentProblems (h : Helper) (index : Nat) : List Argument → List Diagnostic
  | [] => []
  | a :: rest => a.diagnostics ++ h.typeProblems index a ++ h.argumentProblems (index + 1) rest

/-- What an analysis looks things up in. -/
structure Analyzer extends Declarations where
  /-- The helpers that may be called. -/
  helpers : HelperSet

namespace Analyzer

variable (a : Analyzer)

/-- The schema of a call. That a helper is unknown says nothing about its arguments, which are gone
through all the same. -/
def judge (span : Span) (name : String) (args : List Argument) (named : List Diagnostic) :
    Inferred (Option Schema) :=
  match Dict.get? name a.helpers with
  | none => (none, ⟨.unknownHelper name, span⟩ :: args.flatMap Argument.diagnostics ++ named)
  | some h =>
    (some h.returns, h.countProblems span args.length ++ h.argumentProblems 0 args ++ named)

mutual

/-- The schema of an expression. -/
def inferExpr (scopes : List Scope) : Expr → Inferred (Option Schema)
  | .path p => a.resolve scopes p
  | .literal _ v => (some (.ofValue v), [])
  | .call span name params hash =>
    a.judge span name (inferAll scopes params) (inferNamed scopes hash)
termination_by structural e => e

/-- The arguments of a call. -/
def inferAll (scopes : List Scope) : List Expr → List Argument
  | [] => []
  | e :: rest => ⟨e.span, (inferExpr scopes e).1, (inferExpr scopes e).2⟩ :: inferAll scopes rest
termination_by structural es => es

/-- What there is to say about the named arguments of a call. -/
def inferNamed (scopes : List Scope) : List (String × Expr) → List Diagnostic
  | [] => []
  | (_, e) :: rest => (inferExpr scopes e).2 ++ inferNamed scopes rest
termination_by structural es => es

end

/-- The schema of a call of the helper of a name on expressions. -/
def inferCall (scopes : List Scope) (span : Span) (name : String) (params : List Expr)
    (hash : List (String × Expr)) : Inferred (Option Schema) :=
  a.judge span name (a.inferAll scopes params) (a.inferNamed scopes hash)

/-- The schema of an expression statement. -/
def inferExpression (scopes : List Scope) (span : Span) (head : Expr) (params : List Expr)
    (hash : List (String × Expr)) : Inferred Schema :=
  let (schema, diagnostics) :=
    match helperName? head params hash with
    | some name => a.inferCall scopes span name params hash
    | none => a.inferExpr scopes head
  (schema.getD .any, diagnostics)

end Analyzer

/-! ## Branches -/

/-- What a body contributes to the scalar that its block produces. -/
inductive Branch where
  /-- Text that spells scalars of one kind only. -/
  | literal (c : Literal.Category)
  /-- An expression of one kind of scalar. -/
  | typed (c : Literal.Category)
  /-- Anything else. -/
  | text
  deriving DecidableEq

namespace Branch

/-- What a body contributes whose schema is known. Null renders as nothing, so only numbers and
booleans come back from being rendered. -/
def ofBody (program : Program) (schema : Schema) : Branch :=
  match program.pureText? with
  | some chars =>
    match Literal.category? (Text.trim chars) with
    | some c => .literal c
    | none => .text
  | none =>
    match program.singleBlock? with
    | some block =>
      if block.isConditional then
        match schema.category? with
        | some c => .literal c
        | none => .text
      else .text
    | none =>
      match program.singleExpression?, schema.category? with
      | some _, some .number => .typed .number
      | some _, some .boolean => .typed .boolean
      | _, _ => .text

/-- The kind of scalar that a body on its own produces. -/
def category? : Branch → Option Literal.Category
  | .literal c => some c
  | .typed c => some c
  | .text => none

/-- The kind of scalar that two alternatives produce. One of them has to be spelled out, since the
other one tells its kind only by its schema. -/
def join : Branch → Branch → Option Literal.Category
  | .literal a, .literal b => if a = b then some a else none
  | .literal a, .typed b => if a = b then some a else none
  | .typed a, .literal b => if a = b then some a else none
  | _, _ => none

/-- The schema of a scalar, or of text. -/
def schemaOf : Option Literal.Category → Schema
  | some c => c.schema
  | none => .ofType .string

end Branch

/-- The schema of a body from those of its significant statements. -/
def bodySchema : List Schema → Schema
  | [s] => s
  | _ => .ofType .string

/-! ## Blocks -/

namespace Analyzer

variable (a : Analyzer)

/-- The schema of the elements of an iteration. -/
def elementScope (target : Expr) (schema : Schema) : Inferred (Option Schema) :=
  if schema.isArray then (schema.element?, [])
  else
    match target with
    | .path p => (none, [⟨.notAnArray p.written p.parts schema.types?, p.span⟩])
    | target => (none, [⟨.notAnArrayValue schema.types?, target.span⟩])

/-- The scopes of the body of a block, and what there is to say about its header. -/
def enter (scopes : List Scope) (span : Span) (kind : BlockKind) (params : List Expr)
    (hash : List (String × Expr)) : Inferred (List Scope) :=
  match kind, params with
  | .custom name, params => (scopes, (a.inferCall scopes span name params hash).2)
  | .inside, target :: _ =>
    let (schema, diagnostics) := a.inferExpr scopes target
    (⟨schema, false⟩ :: scopes, diagnostics)
  | .inside, [] => (⟨none, false⟩ :: scopes, [])
  | .forEach, target :: _ =>
    match a.inferExpr scopes target with
    | (none, diagnostics) => (⟨none, true⟩ :: scopes, diagnostics)
    | (some schema, diagnostics) =>
      let (element, more) := elementScope target schema
      (⟨element, true⟩ :: scopes, diagnostics ++ more)
  | .forEach, [] => (⟨none, true⟩ :: scopes, [])
  | .whenTrue, target :: _ => (scopes, (a.inferExpr scopes target).2)
  | .whenFalse, target :: _ => (scopes, (a.inferExpr scopes target).2)
  | .whenTrue, [] => (scopes, [])
  | .whenFalse, [] => (scopes, [])

end Analyzer

/-- The schema of a block, from what its body and its alternative contribute. -/
def BlockKind.schema (kind : BlockKind) (body : Branch) (inverse : Option Branch) : Schema :=
  match kind, inverse with
  | .whenTrue, inverse => Branch.schemaOf (body.join (inverse.getD .text))
  | .whenFalse, inverse => Branch.schemaOf (body.join (inverse.getD .text))
  | .inside, none => Branch.schemaOf body.category?
  | .inside, some _ => .ofType .string
  | .forEach, _ => .ofType .string
  | .custom _, _ => .ofType .string

/-! ## Programs -/

namespace Analyzer

variable (a : Analyzer)

mutual

/-- The schema of a statement. -/
def inferStatement (scopes : List Scope) : Statement → Inferred Schema
  | .content _ _ => (.ofType .string, [])
  | .expression span head params hash => a.inferExpression scopes span head params hash
  | .block span kind params hash program inverse =>
    let (inner, header) := a.enter scopes span kind params hash
    let (schemas, body) := inferStatements inner program
    let (other, rest) := inferInverse scopes inverse
    (kind.schema (.ofBody program (bodySchema schemas)) other, header ++ body ++ rest)
termination_by structural s => s

/-- The schemas of the significant statements. -/
def inferStatements (scopes : List Scope) : List Statement → Inferred (List Schema)
  | [] => ([], [])
  | s :: rest =>
    let (schemas, diagnostics) := inferStatements scopes rest
    let (schema, own) := inferStatement scopes s
    (if s.isBlank then schemas else schema :: schemas, own ++ diagnostics)
termination_by structural p => p

/-- What the alternative of a block contributes, if there is one. -/
def inferInverse (scopes : List Scope) : Option (List Statement) → Inferred (Option Branch)
  | none => (none, [])
  | some program =>
    let (schemas, diagnostics) := inferStatements scopes program
    (some (.ofBody program (bodySchema schemas)), diagnostics)
termination_by structural p => p

end

/-- The schema of a program. -/
def inferProgram (scopes : List Scope) (program : Program) : Inferred Schema :=
  let (schemas, diagnostics) := a.inferStatements scopes program
  (bodySchema schemas, diagnostics)

end Analyzer

/-! ## Analysis -/

/-- What is known about a template before it is executed. -/
structure Analysis where
  /-- The schema of what executing the template produces. -/
  schema : Schema
  diagnostics : List Diagnostic

namespace Analysis

/-- The diagnostics that make the template invalid. -/
def errors (a : Analysis) : List Diagnostic := a.diagnostics.filter Diagnostic.isError

/-- The other diagnostics. -/
def warnings (a : Analysis) : List Diagnostic := a.diagnostics.filter fun d => !d.isError

/-- No diagnostic makes the template invalid. -/
def isValid (a : Analysis) : Bool := a.errors.isEmpty

end Analysis

/-- The analysis of a program over data of a schema. -/
def analyze (a : Analyzer) (program : Program) : Analysis :=
  let (schema, diagnostics) := a.inferProgram [⟨some a.root, false⟩] program
  ⟨schema, diagnostics⟩

end TypedTemplate
