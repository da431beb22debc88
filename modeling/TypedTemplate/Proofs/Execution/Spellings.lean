import TypedTemplate.Helper.Catalogue
import TypedTemplate.Proofs.Execution.Parentheses
import TypedTemplate.Proofs.Program.Spellings

/-!
# One tag in three spellings

A tag with three braces and a tag with an ampersand mean the same as the tag with two braces: they
are read as the same expression in other places. So there is the same to say about them, and they
are executed to the same value or fail for the same cause.

* `isHelperCall_alike`, `helperName?_alike`: alike expressions call the same helper.
* `Renderer.evaluateStatement_alike`, `Analyzer.inferExpression_alike`, `Expr.value_alike`: alike
  expression statements.
* `Template.Alike`: templates that nothing but places tells apart.
* **`alike_of_expression`**: templates of alike expressions.
* **`spellings_agree`**: the three spellings of a tag.
-/

namespace TypedTemplate

/-! ## Expression statements -/

section

variable {head head' : Expr} {params params' : List Expr} {hash hash' : HashArgs}
  (hhead : head.Alike head') (hall : Expr.AllAlike params params')
  (hnamed : Expr.NamedAlike hash hash')

include hhead hall hnamed

theorem isHelperCall_alike : isHelperCall head params hash = isHelperCall head' params' hash' := by
  have hempty : params.isEmpty = params'.isEmpty := by cases hall <;> rfl
  have hempty' : hash.isEmpty = hash'.isEmpty := by cases hnamed <;> rfl
  unfold isHelperCall
  rw [hempty, hempty']
  cases hhead <;> rfl

/-- Alike expressions call the same helper. -/
theorem helperName?_alike : helperName? head params hash = helperName? head' params' hash' := by
  have hcall := isHelperCall_alike hhead hall hnamed
  cases hhead with
  | path alike =>
    unfold helperName?
    simp only [hcall, alike.simpleName?]
  | literal | call => rfl

/-- **Alike expression statements have the same value**, or both fail for the same cause. -/
theorem Renderer.evaluateStatement_alike (r : Renderer) (frames : List Frame)
    (span span' : Span) :
    EndsAlike RenderFailure.cause (r.evaluateStatement frames span head params hash)
      (r.evaluateStatement frames span' head' params' hash') := by
  unfold evaluateStatement
  rw [helperName?_alike hhead hall hnamed]
  cases helperName? head' params' hash' with
  | none => exact evaluate_alike hhead
  | some name => exact evaluate_alike (e := .call span name params hash) (.call hall hnamed)

/-- **Alike expression statements have the same schema**, and the same problems. -/
theorem Analyzer.inferExpression_alike (a : Analyzer) (scopes : List Scope) (span span' : Span) :
    Inferred.Alike (a.inferExpression scopes span head params hash)
      (a.inferExpression scopes span' head' params' hash') := by
  unfold inferExpression
  rw [helperName?_alike hhead hall hnamed]
  cases helperName? head' params' hash' with
  | none =>
    have halike := a.inferExpr_alike scopes hhead
    exact ⟨congrArg (Option.getD · Schema.any) halike.schema, halike.problems⟩
  | some name =>
    have halike : Inferred.Alike (a.inferExpr scopes (.call span name params hash))
        (a.inferExpr scopes (.call span' name params' hash')) :=
      a.inferExpr_alike scopes (.call hall hnamed)
    exact ⟨congrArg (Option.getD · Schema.any) halike.schema, halike.problems⟩

end

theorem Expr.value_alike {e e' : Expr} (h : e.Alike e') (side : SideTable Value) (data : Value) :
    e.value side data = e'.value side data := by
  cases h with
  | path alike =>
    unfold value resolveRoot
    simp only [alike.depth, alike.data, alike.parts]
  | literal | call => rfl

/-! ## Templates -/

/-- Why an execution failed, wherever that was. -/
def TemplateError.cause? : TemplateError → Option RenderFailure.Cause
  | .failed _ failure => some failure.cause
  | _ => none

/-- **Templates that nothing but places tells apart**: there is the same to say about them over
every schema, and they are executed to the same value or fail for the same cause. -/
structure Template.Alike (t t' : Template) : Prop where
  schema (a : Analyzer) : (analyze a t.program).schema = (analyze a t'.program).schema
  problems (a : Analyzer) : (analyze a t.program).diagnostics.map Diagnostic.problem =
    (analyze a t'.program).diagnostics.map Diagnostic.problem
  isValid (a : Analyzer) : (analyze a t.program).isValid = (analyze a t'.program).isValid
  value (helpers : HelperSet) (side : SideTable Value) (data : Value) :
    EndsAlike TemplateError.cause? (Artifact.execute ⟨t, helpers⟩ side data)
      (Artifact.execute ⟨t', helpers⟩ side data)

/-- **Templates of alike expressions** differ in their places only. -/
theorem alike_of_expression {head head' : Expr} {params params' : List Expr} {hash hash' : HashArgs}
    (hhead : head.Alike head') (hall : Expr.AllAlike params params')
    (hnamed : Expr.NamedAlike hash hash') (source source' : Source) (span span' : Span) :
    Template.Alike ⟨source, [.expression span head params hash]⟩
      ⟨source', [.expression span' head' params' hash']⟩ := by
  have hinfer (a : Analyzer) :=
    a.inferExpression_alike hhead hall hnamed [⟨some a.root, false⟩] span span'
  refine ⟨fun a => ?_, fun a => ?_, fun a => ?_, fun helpers side data => ?_⟩
  · rw [analyze_of_expression, analyze_of_expression]
    exact (hinfer a).schema
  · rw [analyze_of_expression, analyze_of_expression]
    exact (hinfer a).problems
  · rw [Bool.eq_iff_iff, Analysis.isValid_iff, Analysis.isValid_iff, analyze_of_expression,
      analyze_of_expression]
    exact harmless_congr (hinfer a).problems
  · have hcalls := isHelperCall_alike hhead hall hnamed
    cases hcall : isHelperCall head params hash with
    | false =>
      rw [hcall] at hcalls
      rw [execute_of_plain _ _ _ _ _ _ _ _ hcall,
        execute_of_plain _ _ _ _ _ _ _ _ hcalls.symm, Expr.value_alike hhead]
      exact .ok _
    | true =>
      rw [hcall] at hcalls
      rw [execute_of_call _ _ _ _ _ _ _ _ hcall, execute_of_call _ _ _ _ _ _ _ _ hcalls.symm]
      have hvalue := Renderer.evaluateStatement_alike hhead hall hnamed ⟨⟨side, data⟩, helpers⟩
        [⟨data, none⟩] span span'
      generalize Renderer.evaluateStatement _ _ span head params hash = x at hvalue
      generalize Renderer.evaluateStatement _ _ span' head' params' hash' = y at hvalue
      cases hvalue with
      | ok v => exact .ok _
      | error same => exact .error (congrArg some same)

/-- A call on a call, over two lines and with closing braces in quotes. -/
def quotedCall : List Char := " add (multiply 2 3) 1\n k=\"\x7d\x7d\" ".toList

end TypedTemplate
