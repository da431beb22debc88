import TypedTemplate.Program.Basic

/-!
# What occurs in a program

A program nests without bound: blocks hold programs, and calls hold expressions. What occurs in it
is listed in the order in which it is written, so that a statement about every path or every call
is one about the members of a list.

* `Expr.parts`: an expression and every expression inside it; `Expr.paths` and `Expr.calls` are the
  paths and the calls among them.
* `Statement.exprs`: the expressions in the tag of a statement; `Statement.operands`: those of them
  that have a value there. A word that names the helper of a call has none.
* `Program.statements`: the statements at every level; `Program.paths`, `Program.calls`: the paths
  that are evaluated in them, and the calls.

`Expr.induction` and `Statement.induction` are the inductions over nested expressions and programs,
with the lists of a call or a block as plain lists.
-/

namespace TypedTemplate

/-! ## Expressions -/

/-- **Induction over an expression**, the arguments of a call being members of two lists. -/
@[elab_as_elim]
theorem Expr.induction {motive : Expr → Prop} (path : ∀ p, motive (.path p))
    (literal : ∀ span v, motive (.literal span v))
    (call : ∀ span name params hash, (∀ e ∈ params, motive e) → (∀ e ∈ hash, motive e.2) →
      motive (.call span name params hash)) (e : Expr) : motive e :=
  Expr.rec (motive_1 := motive) (motive_2 := fun es => ∀ e ∈ es, motive e)
    (motive_3 := fun es => ∀ e ∈ es, motive e.2) (motive_4 := fun e => motive e.2)
    path literal call
    (fun _ h => absurd h List.not_mem_nil)
    (fun _ _ head tail _ h => (List.mem_cons.mp h).elim (fun heq => heq ▸ head) (tail _))
    (fun _ h => absurd h List.not_mem_nil)
    (fun _ _ head tail _ h => (List.mem_cons.mp h).elim (fun heq => heq ▸ head) (tail _))
    (fun _ _ h => h) e

namespace Expr

mutual

/-- The expression, and every expression inside it. -/
def parts : Expr → List Expr
  | .path p => [.path p]
  | .literal span v => [.literal span v]
  | .call span name params hash =>
    .call span name params hash :: (partsIn params ++ partsInNamed hash)
termination_by structural e => e

/-- The expressions of a list, and every expression inside them. -/
def partsIn : List Expr → List Expr
  | [] => []
  | e :: rest => parts e ++ partsIn rest
termination_by structural es => es

/-- Named expressions, and every expression inside them. -/
def partsInNamed : List (String × Expr) → List Expr
  | [] => []
  | (_, e) :: rest => parts e ++ partsInNamed rest
termination_by structural es => es

end

@[simp] theorem partsIn_eq_flatMap (es : List Expr) : partsIn es = es.flatMap parts := by
  induction es with
  | nil => rfl
  | cons e rest ih => simp [partsIn, ih]

@[simp] theorem partsInNamed_eq_flatMap (es : List (String × Expr)) :
    partsInNamed es = es.flatMap fun e => parts e.2 := by
  induction es with
  | nil => rfl
  | cons e rest ih => simp [partsInNamed, ih]

/-- The path, where the expression is one. -/
def path? : Expr → Option Path
  | .path p => some p
  | _ => none

theorem exists_of_isSome_path? {e : Expr} (h : e.path?.isSome = true) : ∃ p, e = .path p := by
  cases e with
  | path p => exact ⟨p, rfl⟩
  | literal => cases h
  | call => cases h

end Expr

/-- A place where a helper is called. -/
structure CallSite where
  span : Span
  /-- The name of the helper. -/
  name : String
  deriving DecidableEq

namespace Expr

/-- The call, where the expression is one. -/
def call? : Expr → Option CallSite
  | .call span name _ _ => some ⟨span, name⟩
  | _ => none

/-- The paths in an expression. -/
def paths (e : Expr) : List Path := e.parts.filterMap path?

/-- The calls in an expression. -/
def calls (e : Expr) : List CallSite := e.parts.filterMap call?

@[simp] theorem paths_path (p : Path) : paths (.path p) = [p] := rfl

@[simp] theorem paths_literal (span : Span) (v : Value) : paths (.literal span v) = [] := rfl

@[simp] theorem paths_call (span : Span) (name : String) (params : List Expr)
    (hash : List (String × Expr)) :
    paths (.call span name params hash) =
      params.flatMap paths ++ hash.flatMap fun e => paths e.2 := by
  rw [paths, parts, List.filterMap_cons_none rfl, partsIn_eq_flatMap, partsInNamed_eq_flatMap,
    List.filterMap_append, List.filterMap_flatMap, List.filterMap_flatMap]
  rfl

@[simp] theorem calls_path (p : Path) : calls (.path p) = [] := rfl

@[simp] theorem calls_literal (span : Span) (v : Value) : calls (.literal span v) = [] := rfl

@[simp] theorem calls_call (span : Span) (name : String) (params : List Expr)
    (hash : List (String × Expr)) :
    calls (.call span name params hash) =
      ⟨span, name⟩ :: (params.flatMap calls ++ hash.flatMap fun e => calls e.2) := by
  have hself : call? (.call span name params hash) = some ⟨span, name⟩ := rfl
  rw [calls, parts, List.filterMap_cons_some hself, partsIn_eq_flatMap, partsInNamed_eq_flatMap,
    List.filterMap_append, List.filterMap_flatMap, List.filterMap_flatMap]
  rfl

section Arguments

variable {span : Span} {name : String} {params : List Expr} {hash : List (String × Expr)} {e : Expr}

/-- The calls in an argument of a call are calls in it. -/
theorem mem_calls_of_argument (he : e ∈ params ++ hash.map Prod.snd) {site : CallSite}
    (hsite : site ∈ e.calls) : site ∈ (Expr.call span name params hash).calls := by
  rw [List.mem_append, List.mem_map] at he
  rw [calls_call, List.mem_cons, List.mem_append, List.mem_flatMap, List.mem_flatMap]
  rcases he with he | ⟨named, hnamed, rfl⟩
  · exact .inr (.inl ⟨e, he, hsite⟩)
  · exact .inr (.inr ⟨named, hnamed, hsite⟩)

/-- The paths in an argument of a call are paths in it. -/
theorem mem_paths_of_argument (he : e ∈ params ++ hash.map Prod.snd) {p : Path}
    (hp : p ∈ e.paths) : p ∈ (Expr.call span name params hash).paths := by
  rw [List.mem_append, List.mem_map] at he
  rw [paths_call, List.mem_append, List.mem_flatMap, List.mem_flatMap]
  rcases he with he | ⟨named, hnamed, rfl⟩
  · exact .inl ⟨e, he, hp⟩
  · exact .inr ⟨named, hnamed, hp⟩

end Arguments

end Expr

/-! ## Statements -/

/-- **Induction over a statement**, the bodies of a block being lists of statements. -/
@[elab_as_elim]
theorem Statement.induction {motive : Statement → Prop}
    (content : ∀ span text, motive (.content span text))
    (expression : ∀ span head params hash, motive (.expression span head params hash))
    (block : ∀ span kind params hash program inverse, (∀ s ∈ program, motive s) →
      (∀ body, inverse = some body → ∀ s ∈ body, motive s) →
      motive (.block span kind params hash program inverse)) (s : Statement) : motive s :=
  Statement.rec (motive_1 := motive) (motive_2 := fun p => ∀ s ∈ p, motive s)
    (motive_3 := fun inverse => ∀ body, inverse = some body → ∀ s ∈ body, motive s)
    content expression block
    (fun _ h => absurd h List.not_mem_nil)
    (fun _ _ head tail _ h => (List.mem_cons.mp h).elim (fun heq => heq ▸ head) (tail _))
    (fun _ h => by cases h)
    (fun _ ih _ h => Option.some.inj h ▸ ih) s

namespace Statement

mutual

/-- The statement, and every statement in its bodies. -/
def nested : Statement → List Statement
  | .content span text => [.content span text]
  | .expression span head params hash => [.expression span head params hash]
  | .block span kind params hash program inverse =>
    .block span kind params hash program inverse ::
      (nestedIn program ++ nestedInInverse inverse)
termination_by structural s => s

/-- The statements of a program, and every statement in their bodies. -/
def nestedIn : List Statement → List Statement
  | [] => []
  | s :: rest => nested s ++ nestedIn rest
termination_by structural p => p

/-- The statements of an alternative, and every statement in their bodies. -/
def nestedInInverse : Option (List Statement) → List Statement
  | none => []
  | some program => nestedIn program
termination_by structural p => p

end

@[simp] theorem nestedIn_eq_flatMap (p : List Statement) : nestedIn p = p.flatMap nested := by
  induction p with
  | nil => rfl
  | cons s rest ih => simp [nestedIn, ih]

@[simp] theorem nestedInInverse_eq_flatMap (inverse : Option (List Statement)) :
    nestedInInverse inverse = (inverse.getD []).flatMap nested := by
  cases inverse <;> simp [nestedInInverse]

theorem self_mem_nested (s : Statement) : s ∈ s.nested := by
  cases s <;> simp [nested]

/-- The expressions in the tag of the statement. -/
def exprs : Statement → List Expr
  | .content _ _ => []
  | .expression _ head params hash => head :: (params ++ hash.map Prod.snd)
  | .block _ _ params hash _ _ => params ++ hash.map Prod.snd

/-- The expressions in the tag of the statement that have a value there. A word that names the
helper of a call has none. -/
def operands : Statement → List Expr
  | .expression _ head params hash =>
    if (helperName? head params hash).isSome then params ++ hash.map Prod.snd
    else head :: (params ++ hash.map Prod.snd)
  | s => s.exprs

theorem mem_exprs_of_mem_operands {s : Statement} {e : Expr} (h : e ∈ s.operands) :
    e ∈ s.exprs := by
  cases s with
  | content => exact h
  | block => exact h
  | expression span head params hash =>
    rw [operands] at h
    split at h
    · exact List.mem_cons_of_mem _ h
    · exact h

/-- The helper that the tag of the statement calls by its first word. -/
def callee? : Statement → Option String
  | .expression _ head params hash => helperName? head params hash
  | .block _ (.custom name) _ _ _ _ => some name
  | _ => none

/-- The paths that are evaluated in the tag of the statement. -/
def paths (s : Statement) : List Path := s.operands.flatMap Expr.paths

/-- The calls in the tag of the statement. -/
def calls (s : Statement) : List CallSite :=
  (s.callee?.map fun name => ⟨s.span, name⟩).toList ++ s.operands.flatMap Expr.calls

theorem mem_calls_of_callee {s : Statement} {name : String} (h : s.callee? = some name) :
    ⟨s.span, name⟩ ∈ s.calls := by
  rw [calls, h]
  exact List.mem_append_left _ (by simp)

theorem mem_calls_of_operand {s : Statement} {e : Expr} {site : CallSite} (he : e ∈ s.operands)
    (hsite : site ∈ e.calls) : site ∈ s.calls :=
  List.mem_append_right _ (List.mem_flatMap.mpr ⟨e, he, hsite⟩)

theorem mem_paths_of_operand {s : Statement} {e : Expr} {p : Path} (he : e ∈ s.operands)
    (hp : p ∈ e.paths) : p ∈ s.paths := List.mem_flatMap.mpr ⟨e, he, hp⟩

end Statement

/-! ## Programs -/

namespace Program

/-- The statements at every level. -/
def statements (p : Program) : List Statement := p.flatMap Statement.nested

/-- The paths that are evaluated, at every level. -/
def paths (p : Program) : List Path := p.statements.flatMap Statement.paths

/-- The calls, at every level. -/
def calls (p : Program) : List CallSite := p.statements.flatMap Statement.calls

theorem mem_calls_of_statement {p : Program} {s : Statement} (hs : s ∈ p.statements)
    {site : CallSite} (hsite : site ∈ s.calls) : site ∈ p.calls :=
  List.mem_flatMap.mpr ⟨s, hs, hsite⟩

theorem mem_paths_of_statement {p : Program} {s : Statement} (hs : s ∈ p.statements)
    {path : Path} (hpath : path ∈ s.paths) : path ∈ p.paths :=
  List.mem_flatMap.mpr ⟨s, hs, hpath⟩

end Program

/-- The statements of a block are itself and those of its bodies. -/
theorem Statement.nested_block (span : Span) (kind : BlockKind) (params : List Expr)
    (hash : List (String × Expr)) (program : Program) (inverse : Option Program) :
    (Statement.block span kind params hash program inverse).nested =
      .block span kind params hash program inverse ::
        (program.statements ++ Program.statements (inverse.getD [])) := by
  rw [nested, nestedIn_eq_flatMap, nestedInInverse_eq_flatMap]
  rfl

end TypedTemplate
