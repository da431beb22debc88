import TypedTemplate.Helper.Basic
import TypedTemplate.Source.Basic
import TypedTemplate.Source.Position

/-!
# Why rendering fails

Missing data renders as nothing, so a program fails in two ways only.

* `RenderFailure.Cause`: there is no helper of a name, or a helper does not answer.
* `RenderFailure.message`: the remark about it, with the line of the call.
-/

namespace TypedTemplate

/-- A reason for which a call has no value. -/
inductive RenderFailure.Cause where
  | unknownHelper (name : String)
  | helperFailed (name : String) (failure : HelperFailure)

/-- The wording of a reason. -/
def RenderFailure.Cause.text : RenderFailure.Cause → String
  | .unknownHelper name => "unknown helper `" ++ name ++ "`"
  | .helperFailed name failure => "helper `" ++ name ++ "` failed: " ++ failure.text

/-- A call without a value. -/
structure RenderFailure where
  cause : RenderFailure.Cause
  /-- Where the call stands. -/
  span : Span

/-- The remark about a failure, with the line of the call. -/
def RenderFailure.message (failure : RenderFailure) (source : Source) : String :=
  source.message failure.span.line failure.span.col "error" failure.cause.text

end TypedTemplate
