import TypedTemplate.Binary64

/-!
# Shortest decimals

The decimals that a finite number of the format `binary64` stands for are those nearer to it than
to any other: an interval, whose ends belong to it when the significand is even. The *shortest* of
them lies on the coarsest grid of multiples of a power of ten that meets the interval, and of two
points there the nearer one is taken.

* `Interval`: the value and the ends of the interval, in quarters of a unit.
* `Interval.onGrid?`: the point of a grid that stands for the value.
* `shortest`: the digits, and the power of ten that scales them.
-/

namespace TypedTemplate.Decimal

/-- Which of two equally near decimals is chosen. -/
inductive Tie
  | up
  | toEven
  deriving DecidableEq

/-- The decimals that read back as one number, in quarters of a unit. -/
structure Interval where
  value : Nat
  low : Nat
  high : Nat
  closed : Bool

/-- The interval of a positive finite number: half a step to either side, but only a quarter below
a power of two, where the steps get finer. -/
def Interval.of (x : Binary64) : Interval :=
  let step := Nat.pow 2 x.shift
  let below := if x.significand = Nat.pow 2 52 && 0 < x.shift then step else 2 * step
  { value := 4 * x.magnitude
    low := 4 * x.magnitude - below
    high := 4 * x.magnitude + 2 * step
    closed := x.significand % 2 = 0 }

/-- The point lies in the interval. -/
def Interval.contains (i : Interval) (point : Nat) : Bool :=
  if i.closed then i.low ≤ point && point ≤ i.high else i.low < point && point < i.high

/-- The interval, and the width of a grid, after both are scaled to integers: the grid of
multiples of `10 ^ power`. -/
def Interval.scaled (i : Interval) (power : Int) : Interval × Nat :=
  let width := 4 * Binary64.unitsPerOne
  if 0 ≤ power then (i, width * Nat.pow 10 power.toNat)
  else
    let by' := Nat.pow 10 (-power).toNat
    (⟨i.value * by', i.low * by', i.high * by', i.closed⟩, width)

/-- The multiple of `10 ^ power` that stands for the value, as its multiplier. -/
def Interval.onGrid? (i : Interval) (tie : Tie) (power : Int) : Option Nat :=
  let (j, width) := i.scaled power
  let below := j.value / width
  let above := below + 1
  match j.contains (below * width), j.contains (above * width) with
  | false, false => none
  | true, false => some below
  | false, true => some above
  | true, true =>
    let twice := 2 * (j.value % width)
    if twice < width then some below
    else if width < twice then some above
    else match tie with
      | .up => some above
      | .toEven => some (below + below % 2)

/-- The search over ever finer grids, ending at the one that holds every value exactly. -/
def Interval.search (i : Interval) (tie : Tie) : Nat → Nat × Int
  | 0 => (i.value * Nat.pow 10 1074 / (4 * Binary64.unitsPerOne), -1074)
  | n + 1 =>
    match i.onGrid? tie (n + 1 - 1074 : Int) with
    | some digits => (digits, (n + 1 - 1074 : Int))
    | none => i.search tie n

/-- The shortest decimal for the magnitude of a finite number: digits and power of ten. -/
def shortest (tie : Tie) (x : Binary64) : Nat × Int :=
  if x.magnitude = 0 then (0, 0)
  else (Interval.of x).search tie (Nat.log2 x.magnitude * 30103 / 100000 + 752)

end TypedTemplate.Decimal
