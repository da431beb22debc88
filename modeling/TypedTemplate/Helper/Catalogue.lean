import TypedTemplate.Helper.Arithmetic

/-!
# The catalogue of helpers

* `Comparison`: the helpers `eq`, `ne`, `lt`, `lte`, `gt` and `gte`.
* `logic`: the comparisons, and the helpers `and`, `or`, `not` and `default`.
* `HelperSet.builtins`: every helper that is there from the start.
-/

namespace TypedTemplate.Helper

/-! ## Comparison -/

/-- A comparison of two values. -/
inductive Comparison where
  | eq
  | ne
  | lt
  | lte
  | gt
  | gte
  deriving DecidableEq

namespace Comparison

/-- The name of a comparison. -/
def name : Comparison → String
  | .eq => "eq"
  | .ne => "ne"
  | .lt => "lt"
  | .lte => "lte"
  | .gt => "gt"
  | .gte => "gte"

/-- The comparison holds for two values in the given order. -/
def holds (c : Comparison) (o : Ordering) : Bool :=
  match c with
  | .eq => o = .eq
  | .ne => o ≠ .eq
  | .lt => o = .lt
  | .lte => o ≠ .gt
  | .gt => o = .gt
  | .gte => o ≠ .lt

/-- The order of two texts. -/
def compareTexts (a b : String) : Ordering :=
  if Text.precedes a b then .lt else if Text.precedes b a then .gt else .eq

/-- Two values are the same; null and what is not there are the same. -/
def same (a b : Value) : Bool := a.equals b || (a.isNullish && b.isNullish)

/-- The comparison of two values. Only equality is there for all of them; numbers without an order
compare as false. -/
def apply (c : Comparison) (a b : Value) : Except HelperFailure Bool :=
  match c with
  | .eq => .ok (same a b)
  | .ne => .ok (!same a b)
  | c =>
    match a, b with
    | .number x, .number y =>
      match x.compare? y with
      | some o => .ok (c.holds o)
      | none => .ok false
    | .string x, .string y => .ok (c.holds (compareTexts x y))
    | a, b => .error (.notComparable c.name a b)

/-- The helper of a comparison. -/
def helper (c : Comparison) : Helper where
  name := c.name
  params := [⟨"a", some .any, false⟩, ⟨"b", some .any, false⟩]
  variadic := false
  returns := .ofType .boolean
  description := none
  call := fun args _ =>
    match args with
    | [a, b] => (c.apply a b).map .bool
    | _ => .error (.wrongCount c.name 2 args.length)

end Comparison

/-! ## Logic -/

/-- A helper that combines the truth of one or more values. -/
def connective (name : String) (f : List Value → Bool) : Helper where
  name := name
  params := [⟨"value", some .any, false⟩]
  variadic := true
  returns := .ofType .boolean
  description := none
  call := fun args _ => if args.isEmpty then .error (.tooFew name 1 0) else .ok (.bool (f args))

/-- The helper `not`. -/
def negation : Helper where
  name := "not"
  params := [⟨"value", some .any, false⟩]
  variadic := false
  returns := .ofType .boolean
  description := none
  call := fun args _ =>
    match args with
    | [v] => .ok (.bool !v.isTruthy)
    | _ => .error (.wrongCount "not" 1 args.length)

/-- The helper `default`. -/
def fallback : Helper where
  name := "default"
  params := [⟨"value", some .any, false⟩, ⟨"fallback", some .any, false⟩]
  variadic := false
  returns := .any
  description := some "The value unless it is null or missing, otherwise the fallback."
  call := fun args _ =>
    match args with
    | [v, d] => .ok (if v.isNullish then d else v)
    | _ => .error (.wrongCount "default" 2 args.length)

/-- The comparisons and connectives. -/
def logic : List Helper :=
  [Comparison.eq.helper, Comparison.ne.helper, Comparison.lt.helper, Comparison.lte.helper,
    Comparison.gt.helper, Comparison.gte.helper,
    connective "and" fun args => args.all Value.isTruthy,
    connective "or" fun args => args.any Value.isTruthy, negation, fallback]

end TypedTemplate.Helper

namespace TypedTemplate

/-- Every helper that is there from the start. -/
def HelperSet.builtins : HelperSet := HelperSet.addAll [] (Helper.arithmetic ++ Helper.logic)

end TypedTemplate
