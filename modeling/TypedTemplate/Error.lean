import TypedTemplate.Analysis.Inference
import TypedTemplate.Render.Failure
import TypedTemplate.SyntaxError

/-!
# Errors

* `TemplateError`: why there is no answer.
* `TemplateError.message`: its wording.
-/

namespace TypedTemplate

/-- Why there is no answer. -/
inductive TemplateError where
  /-- The text of a template is malformed. -/
  | malformed (source : Source) (fault : SyntaxError)
  /-- A template was required to be valid, and is not. -/
  | rejected (diagnostics : List Diagnostic)
  /-- Rendering failed. -/
  | failed (source : Source) (failure : RenderFailure)
  /-- A cache cannot hold anything. -/
  | invalidCapacity (capacity : Nat)

namespace TemplateError

/-- The wording of the first error among diagnostics. -/
def firstErrorText (diagnostics : List Diagnostic) : String :=
  match diagnostics.find? Diagnostic.isError with
  | some d => ": " ++ d.problem.text
  | none => ""

/-- The wording of an error. -/
def message : TemplateError → String
  | .malformed source fault => fault.message source
  | .rejected diagnostics =>
    "template analysis failed with " ++
      toString (diagnostics.filter Diagnostic.isError).length ++ " error(s)" ++
      firstErrorText diagnostics
  | .failed source failure => "template execution failed: " ++ failure.message source
  | .invalidCapacity capacity =>
    "cache capacity must be at least 1, got " ++ toString capacity

end TemplateError

end TypedTemplate
