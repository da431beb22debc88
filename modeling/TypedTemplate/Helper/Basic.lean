import TypedTemplate.Schema.Types

/-!
# Helpers

A helper is a function that templates call by name. It declares its parameters and the schema of
its answer, which only the analysis looks at; at run time it checks its arguments itself.

* `Helper`: the declaration and the function.
* `Helper.minArgs`, `Helper.maxArgs?`, `Helper.param?`: the declared arity.
* `HelperSet`: helpers by name; a later one replaces an earlier one of its name.
* `HelperFailure`: why a helper does not answer.
-/

namespace TypedTemplate

/-! ## Failures -/

/-- Why a helper does not answer. -/
inductive HelperFailure where
  | wrongCount (helper : String) (expected got : Nat)
  | tooFew (helper : String) (least got : Nat)
  /-- The argument at a position, counted from one, is not a number. -/
  | notNumeric (helper : String) (position : Nat) (value : Value)
  | notComparable (helper : String) (left right : Value)
  /-- A failure that the helper words itself. -/
  | stated (message : String)

/-- The wording of a failure. -/
def HelperFailure.text : HelperFailure → String
  | .wrongCount helper expected got =>
    "`" ++ helper ++ "` expects " ++ toString expected ++
      (if expected = 1 then " argument, got " else " arguments, got ") ++ toString got
  | .tooFew helper least got =>
    "`" ++ helper ++ "` expects at least " ++ toString least ++ " argument(s), got " ++ toString got
  | .notNumeric helper position value =>
    "`" ++ helper ++ "` expects numeric argument " ++ toString position ++ ". Got `" ++
      value.jsonText ++ "` instead"
  | .notComparable helper left right =>
    "`" ++ helper ++ "` expects two numbers or two strings. Got `" ++ left.typeName ++ "` and `" ++
      right.typeName ++ "` instead"
  | .stated message => message

/-! ## Declarations -/

/-- A declared parameter. -/
structure HelperParam where
  name : String
  /-- What the argument has to be; nothing accepts everything. -/
  schema : Option Schema
  optional : Bool

/-- The function of a helper, on positional and named arguments. -/
abbrev HelperFunction := List Value → Dict Value → Except HelperFailure Value

/-- A function that templates call by name. -/
structure Helper where
  name : String
  params : List HelperParam
  /-- The last parameter may repeat. -/
  variadic : Bool
  /-- The schema of the answer. -/
  returns : Schema
  description : Option String
  call : HelperFunction

namespace Helper

/-- The least number of arguments. -/
def minArgs (h : Helper) : Nat := (h.params.filter fun p => !p.optional).length

/-- The greatest number of arguments, if there is one. -/
def maxArgs? (h : Helper) : Option Nat := if h.variadic then none else some h.params.length

/-- The parameter for the argument at an index. -/
def param? (h : Helper) (index : Nat) : Option HelperParam :=
  match h.params[index]? with
  | some p => some p
  | none => if h.variadic then h.params.getLast? else none

end Helper

/-! ## Sets -/

/-- Helpers by name. -/
abbrev HelperSet := Dict Helper

/-- Add a helper, or replace the one of its name. -/
def HelperSet.add (set : HelperSet) (h : Helper) : HelperSet := Dict.insert h.name h set

/-- Add helpers in order. -/
def HelperSet.addAll (set : HelperSet) (hs : List Helper) : HelperSet := hs.foldl add set

end TypedTemplate
