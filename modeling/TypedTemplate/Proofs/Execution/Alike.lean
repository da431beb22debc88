import TypedTemplate.Proofs.Analysis.Diagnostics
import TypedTemplate.Proofs.Program.Alike
import TypedTemplate.Proofs.Render.Failures

/-!
# Places do not matter

Neither rendering nor the analysis looks at the places of expressions, other than to say where
something is wrong. Alike expressions have the same value, or none, and the same schema with the
same problems. For a call, it does not matter either by which name of the helper it is made.

* **`Renderer.evaluate_alike`**: alike expressions have the same value, or both fail for the same
  cause.
* **`Analyzer.inferExpr_alike`**: alike expressions have the same schema and problems.
* **`Renderer.callOn_names`**, **`Analyzer.inferCall_names`**: so do calls by names of one helper on
  alike arguments.
-/

namespace TypedTemplate

/-! ## Values -/

namespace Renderer

variable {r : Renderer} {frames : List Frame}

theorem resolve_alike {p q : Path} (h : p.Alike q) : r.resolve frames p = r.resolve frames q := by
  unfold Environment.resolve
  rw [h.data, h.parts, h.depth]

/-- **A call ends alike** wherever it stands, on arguments that end alike. -/
theorem call_alike {args args' : Rendered (List Value)}
    (hargs : EndsAlike RenderFailure.cause args args')
    {named named' : Rendered (List (String × Value))}
    (hnamed : EndsAlike RenderFailure.cause named named') (span span' : Span) (name : String) :
    EndsAlike RenderFailure.cause (r.call span name args named)
      (r.call span' name args' named') := by
  unfold call
  cases Dict.get? name r.helpers with
  | none => exact .error rfl
  | some helper =>
    cases hargs with
    | error same => exact .error same
    | ok values =>
      cases hnamed with
      | error same => exact .error same
      | ok members =>
        simp only
        cases helper.call values (Dict.ofList members) with
        | error failure => exact .error rfl
        | ok v => exact .ok v

/-- **Alike expressions have the same value**, or both fail for the same cause. -/
theorem evaluate_alike {e e' : Expr} (h : e.Alike e') :
    EndsAlike RenderFailure.cause (r.evaluate frames e) (r.evaluate frames e') := by
  have hall := r.evaluateAll_runsBy frames
  have hnames := r.evaluateNamed_runsBy frames
  induction h using Expr.Alike.rec
    (motive_2 := fun es es' _ =>
      EndsAlike RenderFailure.cause (r.evaluateAll frames es) (r.evaluateAll frames es'))
    (motive_3 := fun es es' _ =>
      EndsAlike RenderFailure.cause (r.evaluateNamed frames es) (r.evaluateNamed frames es')) with
  | path alike =>
    rw [evaluate, evaluate, resolve_alike alike]
    exact .ok _
  | literal => exact .ok _
  | call _ _ hargs hnamed =>
    rw [evaluate, evaluate]
    exact call_alike hargs hnamed _ _ _
  | nil => exact .ok _
  | cons _ _ hfirst hmore => exact hall.cons_alike hall hfirst rfl hmore
  | empty => exact .ok _
  | entry _ _ hfirst hmore => exact hnames.cons_alike hnames hfirst rfl hmore

/-- A call has the same answer, or none, under names of one helper. -/
theorem call_names {name name' : String}
    (hget : Dict.get? name r.helpers = Dict.get? name' r.helpers) (span : Span)
    (args : Rendered (List Value)) (named : Rendered (List (String × Value))) :
    (r.call span name args named).toOption = (r.call span name' args named).toOption := by
  unfold call
  rw [hget]
  cases Dict.get? name' r.helpers with
  | none => rfl
  | some helper =>
    cases args with
    | error => rfl
    | ok values =>
      cases named with
      | error => rfl
      | ok members =>
        simp only
        cases helper.call values (Dict.ofList members) <;> rfl

/-- **Calls by names of one helper** on alike arguments have the same answer, or none. -/
theorem callOn_names {name name' : String}
    (hget : Dict.get? name r.helpers = Dict.get? name' r.helpers) (frames : List Frame)
    {params params' : List Expr} {hash hash' : HashArgs} (hall : Expr.AllAlike params params')
    (hnamed : Expr.NamedAlike hash hash') (span span' : Span) :
    (r.callOn frames span name params hash).toOption =
      (r.callOn frames span' name' params' hash').toOption := by
  have hrename : (r.callOn frames span name params hash).toOption =
      (r.callOn frames span name' params hash).toOption := call_names hget span _ _
  have halike : EndsAlike RenderFailure.cause (r.evaluate frames (.call span name' params hash))
      (r.evaluate frames (.call span' name' params' hash')) := evaluate_alike (.call hall hnamed)
  exact hrename.trans halike.toOption_eq

end Renderer

/-! ## Schemas -/

/-- What the analysis says about two parts of a template differs in its places only. -/
structure Inferred.Alike {α : Type} (x y : Inferred α) : Prop where
  schema : x.1 = y.1
  problems : x.2.map Diagnostic.problem = y.2.map Diagnostic.problem

/-- Two analysed arguments that differ in their places only. -/
structure Argument.Alike (x y : Argument) : Prop where
  schema : x.schema = y.schema
  problems : x.diagnostics.map Diagnostic.problem = y.diagnostics.map Diagnostic.problem

theorem Schema.follow_alike (s : Schema) (segments : List String) {p q : Path} (h : p.Alike q) :
    Inferred.Alike (s.follow segments p) (s.follow segments q) := by
  unfold Schema.follow
  rw [h.written]
  cases s.walk segments <;> exact ⟨rfl, rfl⟩

theorem Declarations.resolve_alike (d : Declarations) (scopes : List Scope) {p q : Path}
    (h : p.Alike q) : Inferred.Alike (d.resolve scopes p) (d.resolve scopes q) := by
  unfold Declarations.resolve Declarations.resolveVariable
  rw [h.data, h.parts, h.written, h.depth]
  split
  · split
    · exact ⟨rfl, rfl⟩
    · split
      · exact Schema.follow_alike _ _ h
      · split
        · split
          · exact Schema.follow_alike _ _ h
          · exact ⟨rfl, rfl⟩
        · exact ⟨rfl, rfl⟩
  · simp only
    split
    · split
      · exact Schema.follow_alike _ _ h
      · exact ⟨rfl, rfl⟩
    · split
      · exact ⟨rfl, rfl⟩
      · split
        · exact Schema.follow_alike _ _ h
        · exact ⟨rfl, rfl⟩

section

variable {args args' : List Argument} (hargs : List.Forall₂ Argument.Alike args args')

include hargs

theorem diagnostics_alike :
    (args.flatMap Argument.diagnostics).map Diagnostic.problem =
      (args'.flatMap Argument.diagnostics).map Diagnostic.problem := by
  induction hargs with
  | nil => rfl
  | cons hfirst _ ih =>
    simp only [List.flatMap_cons, List.map_append]
    rw [hfirst.problems, ih]

/-- The problems of arguments with their declaration are those of alike arguments. -/
theorem Helper.argumentProblems_alike (h : Helper) (index : Nat) :
    (h.argumentProblems index args).map Diagnostic.problem =
      (h.argumentProblems index args').map Diagnostic.problem := by
  induction hargs generalizing index with
  | nil => rfl
  | @cons x y rest rest' hfirst _ ih =>
    have htype : (h.typeProblems index x).map Diagnostic.problem =
        (h.typeProblems index y).map Diagnostic.problem := by
      unfold Helper.typeProblems
      rw [hfirst.schema]
      split
      · split <;> rfl
      · rfl
    simp only [Helper.argumentProblems, List.map_append]
    rw [hfirst.problems, htype, ih]

/-- **Calls of one helper on alike arguments** have the same schema and problems. -/
theorem Analyzer.judge_alike (a : Analyzer) (span span' : Span) (name : String)
    {named named' : List Diagnostic}
    (hnamed : named.map Diagnostic.problem = named'.map Diagnostic.problem) :
    Inferred.Alike (a.judge span name args named) (a.judge span' name args' named') := by
  unfold judge
  cases Dict.get? name a.helpers with
  | none =>
    refine ⟨rfl, ?_⟩
    simp only [List.cons_append, List.map_cons, List.map_append]
    rw [diagnostics_alike hargs, hnamed]
  | some h =>
    have hcount : (h.countProblems span args.length).map Diagnostic.problem =
        (h.countProblems span' args'.length).map Diagnostic.problem := by
      unfold Helper.countProblems
      rw [hargs.length_eq]
      split <;> rfl
    refine ⟨rfl, ?_⟩
    simp only [List.map_append]
    rw [hcount, h.argumentProblems_alike hargs, hnamed]

end

/-- **Alike expressions have the same schema**, and the same problems. -/
theorem Analyzer.inferExpr_alike (a : Analyzer) (scopes : List Scope) {e e' : Expr}
    (h : e.Alike e') : Inferred.Alike (a.inferExpr scopes e) (a.inferExpr scopes e') := by
  induction h using Expr.Alike.rec
    (motive_2 := fun es es' _ =>
      List.Forall₂ Argument.Alike (a.inferAll scopes es) (a.inferAll scopes es'))
    (motive_3 := fun es es' _ =>
      (a.inferNamed scopes es).map Diagnostic.problem =
        (a.inferNamed scopes es').map Diagnostic.problem) with
  | path alike => exact a.resolve_alike scopes alike
  | literal => exact ⟨rfl, rfl⟩
  | call _ _ hargs hnamed => exact a.judge_alike hargs _ _ _ hnamed
  | nil => exact .nil
  | cons _ _ hfirst hmore => exact .cons ⟨hfirst.schema, hfirst.problems⟩ hmore
  | empty => rfl
  | entry _ _ hfirst hmore =>
    simp only [inferNamed, List.map_append]
    rw [hfirst.problems, hmore]

/-- The analysis of a lone expression. -/
theorem analyze_of_expression (a : Analyzer) (span : Span) (head : Expr) (params : List Expr)
    (hash : HashArgs) :
    analyze a [.expression span head params hash] =
      ⟨(a.inferExpression [⟨some a.root, false⟩] span head params hash).1,
        (a.inferExpression [⟨some a.root, false⟩] span head params hash).2⟩ := by
  simp [analyze, Analyzer.inferProgram, Analyzer.inferStatements, Analyzer.inferStatement,
    Statement.isBlank, bodySchema]

/-- Whether diagnostics are harmless depends on the problems alone. -/
theorem harmless_congr {ds ds' : List Diagnostic}
    (h : ds.map Diagnostic.problem = ds'.map Diagnostic.problem) : Harmless ds ↔ Harmless ds' := by
  have hproblems (l : List Diagnostic) :
      Harmless l ↔ ∀ p ∈ l.map Diagnostic.problem, p.severity ≠ .error := by
    simp [Harmless, Diagnostic.isError]
  rw [hproblems, hproblems, h]

/-- What the analysis makes of a call depends on what the name stands for. -/
theorem Analyzer.judge_names {a : Analyzer} {name name' : String}
    (hget : Dict.get? name a.helpers = Dict.get? name' a.helpers) (span : Span)
    (args : List Argument) (named : List Diagnostic) :
    (a.judge span name args named).1 = (a.judge span name' args named).1 ∧
      (Harmless (a.judge span name args named).2 ↔
        Harmless (a.judge span name' args named).2) := by
  unfold judge
  rw [hget]
  cases Dict.get? name' a.helpers with
  | some h => exact ⟨rfl, Iff.rfl⟩
  | none =>
    have hunknown (unknown : String) (more : List Diagnostic) :
        ¬Harmless (⟨.unknownHelper unknown, span⟩ :: more) := by
      rw [← List.singleton_append, harmless_append]
      exact fun h => not_harmless_of_kind (by simp [Problem.kind]) h.1
    exact ⟨rfl, iff_of_false (hunknown _ _) (hunknown _ _)⟩

/-- **Calls by names of one helper** on alike arguments have the same schema, and both are harmless
or neither is. -/
theorem Analyzer.inferCall_names {a : Analyzer} {name name' : String}
    (hget : Dict.get? name a.helpers = Dict.get? name' a.helpers) (scopes : List Scope)
    {params params' : List Expr} {hash hash' : HashArgs} (hall : Expr.AllAlike params params')
    (hnamed : Expr.NamedAlike hash hash') (span span' : Span) :
    (a.inferCall scopes span name params hash).1 =
        (a.inferCall scopes span' name' params' hash').1 ∧
      (Harmless (a.inferCall scopes span name params hash).2 ↔
        Harmless (a.inferCall scopes span' name' params' hash').2) := by
  have hrename := judge_names hget span (a.inferAll scopes params) (a.inferNamed scopes hash)
  have halike : Inferred.Alike (a.inferExpr scopes (.call span name' params hash))
      (a.inferExpr scopes (.call span' name' params' hash')) :=
    a.inferExpr_alike scopes (.call hall hnamed)
  exact ⟨hrename.1.trans halike.schema, hrename.2.trans (harmless_congr halike.problems)⟩

end TypedTemplate
