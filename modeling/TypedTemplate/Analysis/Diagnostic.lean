import TypedTemplate.Source.Position
import TypedTemplate.Walk

/-!
# Diagnostics

What the analysis of a template has to say. A problem carries what it is about; its wording, kind,
severity and path are functions of it.

* `Problem`: everything that can be said.
* `Problem.text`, `Problem.kind`, `Problem.severity`, `Problem.path`.
* `Diagnostic`: a problem and the place it is blamed on.
-/

namespace TypedTemplate

/-! ## Problems -/

/-- How bad a problem is. Only errors make a template invalid. -/
inductive Severity where
  | error
  | warning
  deriving DecidableEq

/-- The name of a severity. -/
def Severity.text : Severity → String
  | .error => "error"
  | .warning => "warning"

/-- The kinds of problems. -/
inductive ProblemKind where
  | unknownPath
  | unknownHelper
  | unknownIdentifier
  | notAnArray
  | argumentMismatch
  deriving DecidableEq

/-- The name of a kind. -/
def ProblemKind.text : ProblemKind → String
  | .unknownPath => "unknown_path"
  | .unknownHelper => "unknown_helper"
  | .unknownIdentifier => "unknown_identifier"
  | .notAnArray => "not_an_array"
  | .argumentMismatch => "argument_mismatch"

/-- A problem of a template with the schema of its data or with the helpers. -/
inductive Problem where
  /-- A path goes wrong behind the given segments. -/
  | unknownProperty (written : String) (before : List String) (miss : Miss)
  /-- A variable of iterations outside of all of them. -/
  | outsideIteration (name : String) (parts : List String)
  | unknownVariable (name : String) (parts : List String)
  /-- There is no side source of a number. -/
  | unknownIdentifier (id : UInt64) (written : String) (parts : List String)
  /-- A path leaves more contexts than there are. -/
  | aboveRoot (written : String) (parts : List String)
  | unknownHelper (name : String)
  | argumentCount (helper : String) (least : Nat) (most : Option Nat) (got : Nat)
  | argumentType (helper param : String) (expected got : Option TypeSet)
  /-- The path that an iteration is over. -/
  | notAnArray (written : String) (parts : List String) (got : Option TypeSet)
  /-- What else an iteration is over. -/
  | notAnArrayValue (got : Option TypeSet)
  deriving DecidableEq

namespace Problem

/-- The properties there are, as a hint. -/
def availableText : List String → String
  | [] => "no properties are declared"
  | names => "available: " ++ ", ".intercalate names

/-- The number of arguments that a helper takes. -/
def countText (least : Nat) : Option Nat → String
  | some most => if most = least then toString most else toString least ++ " to " ++ toString most
  | none => "at least " ++ toString least

/-- The wording of a problem. -/
def text : Problem → String
  | .unknownProperty written _ miss =>
    "unknown property `" ++ miss.segment ++ "` in `" ++ written ++ "`; " ++
      availableText miss.available
  | .outsideIteration name _ => "`@" ++ name ++ "` is only available inside `#each`"
  | .unknownVariable name _ => "unknown data variable `@" ++ name ++ "`"
  | .unknownIdentifier id written _ =>
    "no schema is registered for identifier " ++ toString id.toNat ++ " used in `" ++ written ++
      "`"
  | .aboveRoot written _ => "`" ++ written ++ "` refers above the root context"
  | .unknownHelper name => "unknown helper `" ++ name ++ "`"
  | .argumentCount helper least most got =>
    "helper `" ++ helper ++ "` expects " ++ countText least most ++ " argument(s), got " ++
      toString got
  | .argumentType helper param expected got =>
    "argument `" ++ param ++ "` of helper `" ++ helper ++ "` expects " ++
      TypeSet.describe expected ++ ", got " ++ TypeSet.describe got
  | .notAnArray written _ got =>
    "`#each` expects an array but `" ++ written ++ "` is " ++ TypeSet.describe got
  | .notAnArrayValue got => "`#each` expects an array, got " ++ TypeSet.describe got

/-- The kind of a problem. -/
def kind : Problem → ProblemKind
  | .unknownProperty _ _ _ => .unknownPath
  | .outsideIteration _ _ => .unknownPath
  | .unknownVariable _ _ => .unknownPath
  | .unknownIdentifier _ _ _ => .unknownIdentifier
  | .aboveRoot _ _ => .unknownPath
  | .unknownHelper _ => .unknownHelper
  | .argumentCount _ _ _ _ => .argumentMismatch
  | .argumentType _ _ _ _ => .argumentMismatch
  | .notAnArray _ _ _ => .notAnArray
  | .notAnArrayValue _ => .notAnArray

/-- Helpers are expected to be generous with their arguments, so only these are no errors. -/
def severity (p : Problem) : Severity := if p.kind = .argumentMismatch then .warning else .error

/-- The segments, or the names, that a problem is about. -/
def path : Problem → List String
  | .unknownProperty _ before miss => before ++ [miss.segment]
  | .outsideIteration _ parts => parts
  | .unknownVariable _ parts => parts
  | .unknownIdentifier _ _ parts => parts
  | .aboveRoot _ parts => parts
  | .unknownHelper name => [name]
  | .argumentCount helper _ _ _ => [helper]
  | .argumentType helper param _ _ => [helper, param]
  | .notAnArray _ parts _ => parts
  | .notAnArrayValue _ => []

end Problem

/-! ## Places -/

/-- A problem and the place it is blamed on. -/
structure Diagnostic where
  problem : Problem
  span : Span
  deriving DecidableEq

namespace Diagnostic

/-- The template is invalid because of it. -/
def isError (d : Diagnostic) : Bool := d.problem.severity = .error

/-- The diagnostic on one line. -/
def shown (d : Diagnostic) : String :=
  toString d.span.line ++ ":" ++ toString d.span.col ++ ": " ++ d.problem.severity.text ++ ": " ++
    d.problem.text

end Diagnostic

end TypedTemplate
