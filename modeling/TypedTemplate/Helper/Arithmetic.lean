import TypedTemplate.Helper.Basic

/-!
# Helpers for numbers

Integers are computed exactly as long as operands and result fit signed integers of 64 bits;
everything else is floating point, and a whole result within the exact range becomes an integer
again. Division by zero has no result.

* `Operation.onNumbers?`, `Operation.onFloats`: the two ways of computing.
* `arithmetic`: the helpers `add`, `subtract`, `multiply`, `divide` and `mod`.
* `rounding`: the helpers `abs`, `round`, `floor` and `ceil`.
* `extremum`: the helpers `min` and `max`.
-/

namespace TypedTemplate.Helper

/-! ## Arguments -/

/-- The number of an argument, whose position is counted from one. -/
def numeric (helper : String) (position : Nat) : Value → Except HelperFailure Number
  | .number n => .ok n
  | v => .error (.notNumeric helper position v)

/-- The numbers of arguments from a position on; the first that is none is a failure. -/
def numerics (helper : String) (position : Nat) : List Value → Except HelperFailure (List Number)
  | [] => .ok []
  | v :: rest =>
    match numeric helper position v with
    | .error e => .error e
    | .ok n => (numerics helper (position + 1) rest).map (n :: ·)

/-- A number as a result. -/
def numberValue (n : Number) : Value := .number n.normalize

/-! ## Operations -/

/-- An operation on two numbers. -/
inductive Operation where
  | add
  | subtract
  | multiply
  | divide
  | mod
  deriving DecidableEq

namespace Operation

/-- The name of an operation. -/
def name : Operation → String
  | .add => "add"
  | .subtract => "subtract"
  | .multiply => "multiply"
  | .divide => "divide"
  | .mod => "mod"

/-- What an operation does, in words. -/
def description : Operation → String
  | .add => "Sum of two numbers."
  | .subtract => "Difference of two numbers."
  | .multiply => "Product of two numbers."
  | .divide => "Quotient of two numbers; undefined when dividing by zero."
  | .mod => "Remainder of two numbers; undefined when dividing by zero."

/-- The operation divides. -/
def divides : Operation → Bool
  | .divide | .mod => true
  | _ => false

/-- The result on integers, where it is an integer. -/
def onIntegers? (op : Operation) (x y : Int) : Option Int :=
  match op with
  | .add => some (x + y)
  | .subtract => some (x - y)
  | .multiply => some (x * y)
  | .divide => if x.tmod y = 0 then some (x.tdiv y) else none
  | .mod => some (x.tmod y)

/-- The quotient by which the remainder of two integers is defined does not fit 64 bits. -/
def overflows (op : Operation) (x y : Int) : Bool :=
  op.divides && x = Int64.minValue.toInt && y = -1

/-- The exact result on signed integers of 64 bits, where operands and result fit. -/
def onNumbers? (op : Operation) (a b : Number) : Option Number :=
  match a.toInt64?, b.toInt64? with
  | some x, some y =>
    if op.overflows x.toInt y.toInt then none
    else
      match op.onIntegers? x.toInt y.toInt with
      | some z =>
        if Number.isSigned64 z then some (Number.ofInt64 (Int64.ofInt z)) else none
      | none => none
  | _, _ => none

/-- The result on floating point numbers. -/
def onFloats (op : Operation) (x y : Binary64) : Binary64 :=
  match op with
  | .add => x.add y
  | .subtract => x.sub y
  | .multiply => x.mul y
  | .divide => x.div y
  | .mod => x.rem y

/-- The result of an operation. -/
def apply (op : Operation) (a b : Number) : Value :=
  if op.divides && b.isZero then .undefined
  else
    match op.onNumbers? a b with
    | some n => .number n
    | none => numberValue (.float (op.onFloats a.toBinary64 b.toBinary64))

/-- The helper of an operation. -/
def helper (op : Operation) : Helper where
  name := op.name
  params := [⟨"a", some (.ofType .number), false⟩, ⟨"b", some (.ofType .number), false⟩]
  variadic := false
  returns := .ofType .number
  description := some op.description
  call := fun args _ =>
    match args with
    | [a, b] =>
      match numeric op.name 1 a with
      | .error e => .error e
      | .ok x =>
        match numeric op.name 2 b with
        | .error e => .error e
        | .ok y => .ok (op.apply x y)
    | _ => .error (.wrongCount op.name 2 args.length)

end Operation

/-! ## Rounding -/

/-- The magnitude of a number. -/
def magnitude : Number → Number
  | .uint n => .uint n
  | .int n => .uint (UInt64.ofNat n.toInt.natAbs)
  | .float f => .float f.abs

/-- Apply a function to a floating point number; an integer is its own rounding. -/
def onFloat (f : Binary64 → Binary64) : Number → Number
  | .float x => .float (f x)
  | n => n

/-- The helper of a function on one number. -/
def rounding (name : String) (f : Number → Number) : Helper where
  name := name
  params := [⟨"value", some (.ofType .number), false⟩]
  variadic := false
  returns := .ofType .number
  description := none
  call := fun args _ =>
    match args with
    | [v] => (numeric name 1 v).map fun n => numberValue (f n)
    | _ => .error (.wrongCount name 1 args.length)

/-! ## Extrema -/

/-- The number that comes first in the given direction, the earlier one of two that are equal. -/
def foremost (direction : Ordering) (best : Number) (ns : List Number) : Number :=
  ns.foldl (fun b n => if n.compare? b = some direction then n else b) best

/-- The helper of the smallest or largest of one or more numbers. -/
def extremum (name description : String) (direction : Ordering) : Helper where
  name := name
  params := [⟨"value", some (.ofType .number), false⟩]
  variadic := true
  returns := .ofType .number
  description := some description
  call := fun args _ =>
    match args with
    | [] => .error (.tooFew name 1 0)
    | v :: rest =>
      match numerics name 1 (v :: rest) with
      | .error e => .error e
      | .ok [] => .ok .undefined
      | .ok (n :: ns) => .ok (numberValue (foremost direction n ns))

/-! ## The catalogue -/

/-- The helpers for numbers. -/
def arithmetic : List Helper :=
  [Operation.add.helper, Operation.subtract.helper, Operation.multiply.helper,
    Operation.divide.helper, Operation.mod.helper, rounding "abs" magnitude,
    rounding "round" (onFloat Binary64.round), rounding "floor" (onFloat Binary64.floor),
    rounding "ceil" (onFloat Binary64.ceil),
    extremum "min" "Smallest of one or more numbers." .lt,
    extremum "max" "Largest of one or more numbers." .gt]

end TypedTemplate.Helper
