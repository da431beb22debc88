import TypedTemplate.Binary64

/-!
# Numerals

A numeral is a number as it is written: a sign, digits with an optional point, an optional
exponent. It is scanned off the front of a text and read as the nearest number of the format
`binary64`.

* `Numeral.scan?`: the longest numeral at the front, and what follows it.
* `Numeral.nearest`: the number nearest to the value.
* `Numeral.stepwise?`: the number reached by scaling the leading digits with powers of ten, one
  rounding at a time, as JSON numbers are read.
-/

namespace TypedTemplate.Decimal

/-- A number as it is written. -/
structure Numeral where
  /-- A minus sign stands in front. -/
  negative : Bool
  /-- The digits before the point. -/
  whole : List Char
  /-- The digits after the point, where there is one. -/
  fraction : Option (List Char)
  /-- The exponent, where there is one. -/
  exponent : Option Int
  deriving DecidableEq

namespace Numeral

/-! ## Scanning -/

/-- The digits at the front, and what follows them. -/
def spanDigits (cs : List Char) : List Char × List Char :=
  (cs.takeWhile Char.isDigit, cs.dropWhile Char.isDigit)

/-- The sign at the front, and what follows it. -/
def scanSign : List Char → Bool × List Char
  | '-' :: rest => (true, rest)
  | '+' :: rest => (false, rest)
  | cs => (false, cs)

/-- The digits after a point, where there is one. -/
def scanFraction : List Char → Option (List Char) × List Char
  | '.' :: rest => let (digits, rest) := spanDigits rest; (some digits, rest)
  | cs => (none, cs)

/-- The exponent after its mark, where there is one; a mark without digits is refused. -/
def scanExponent : List Char → Option (Option Int × List Char)
  | c :: rest =>
    if c = 'e' || c = 'E' then
      let (negative, rest) := scanSign rest
      let (digits, rest) := spanDigits rest
      if digits.isEmpty then none
      else
        let size : Int := Nat.ofDigitChars 10 digits 0
        some (some (if negative then -size else size), rest)
    else some (none, c :: rest)
  | [] => some (none, [])

/-- The numeral at the front of a text. The digits may be missing on either side of the point. -/
def scan? (cs : List Char) : Option (Numeral × List Char) :=
  let (negative, cs) := scanSign cs
  let (whole, cs) := spanDigits cs
  let (fraction, cs) := scanFraction cs
  match scanExponent cs with
  | some (exponent, rest) => some (⟨negative, whole, fraction, exponent⟩, rest)
  | none => none

/-- The text as one numeral, with a digit on at least one side of the point. -/
def ofText? (cs : List Char) : Option Numeral :=
  match scan? cs with
  | some (n, []) => if n.whole.isEmpty && (n.fraction.getD []).isEmpty then none else some n
  | _ => none

/-! ## Progress -/

/-- The digits and what follows them make up the text. -/
theorem length_spanDigits (cs : List Char) :
    (spanDigits cs).1.length + (spanDigits cs).2.length = cs.length := by
  rw [spanDigits, ← List.length_append, List.takeWhile_append_dropWhile]

theorem length_spanDigits_le (cs : List Char) : (spanDigits cs).2.length ≤ cs.length := by
  have := length_spanDigits cs
  omega

theorem length_scanSign_le (cs : List Char) : (scanSign cs).2.length ≤ cs.length := by
  unfold scanSign
  split <;> simp

theorem length_scanFraction_le (cs : List Char) : (scanFraction cs).2.length ≤ cs.length := by
  unfold scanFraction
  split
  · next rest => have := length_spanDigits_le rest; simp only [List.length_cons]; omega
  · simp

theorem length_scanExponent_le {cs rest : List Char} {e : Option Int}
    (h : scanExponent cs = some (e, rest)) : rest.length ≤ cs.length := by
  unfold scanExponent at h
  split at h
  · next c rest' =>
    split at h
    · simp only at h
      split at h
      · cases h
      · simp only [Option.some.injEq, Prod.mk.injEq] at h
        have h1 := length_spanDigits_le (scanSign rest').2
        have h2 := length_scanSign_le rest'
        simp only [← h.2, List.length_cons]
        omega
    · simp only [Option.some.injEq, Prod.mk.injEq] at h
      simp [← h.2]
  · simp only [Option.some.injEq, Prod.mk.injEq] at h
    simp [← h.2]

/-- What follows a numeral is shorter than the text by at least the digits before the point. -/
theorem length_scan?_le {cs rest : List Char} {n : Numeral} (h : scan? cs = some (n, rest)) :
    n.whole.length + rest.length ≤ cs.length := by
  unfold scan? at h
  simp only at h
  split at h
  · next e rest' he =>
    simp only [Option.some.injEq, Prod.mk.injEq] at h
    have h1 := length_scanExponent_le he
    have h2 := length_scanFraction_le (spanDigits (scanSign cs).2).2
    have h3 := length_spanDigits (scanSign cs).2
    have h4 := length_scanSign_le cs
    rw [← h.1, ← h.2]
    simp only
    omega
  · cases h

/-! ## Values -/

/-- Neither a point nor an exponent is written. -/
def isInteger (n : Numeral) : Bool := n.fraction.isNone && n.exponent.isNone

/-- The value of the digits before the point. -/
def wholeValue (n : Numeral) : Nat := Nat.ofDigitChars 10 n.whole 0

/-- The number nearest to the numeral. -/
def nearest (n : Numeral) : Binary64 :=
  let fraction := n.fraction.getD []
  Binary64.ofDecimal n.negative (n.whole ++ fraction) (n.exponent.getD 0 - fraction.length)

/-! ## Reading in steps -/

/-- Digits gathered into a word of 64 bits, with the power of ten that scales it. -/
structure Gathered where
  word : Nat
  power : Int

/-- The word has room for one more digit. -/
def Gathered.hasRoom (g : Gathered) (digit : Char) : Bool :=
  g.word * 10 + (digit.toNat - '0'.toNat) < UInt64.size

/-- Gather the digits before the point: once the word is full, each further one only scales it. -/
def Gathered.whole (g : Gathered) : List Char → Gathered
  | [] => g
  | d :: rest =>
    if g.hasRoom d then Gathered.whole ⟨g.word * 10 + (d.toNat - '0'.toNat), g.power⟩ rest
    else ⟨g.word, g.power + (d :: rest).length⟩

/-- Gather the digits after the point: once the word is full, the further ones are dropped. -/
def Gathered.fraction (g : Gathered) : List Char → Gathered
  | [] => g
  | d :: rest =>
    if g.hasRoom d then Gathered.fraction ⟨g.word * 10 + (d.toNat - '0'.toNat), g.power - 1⟩ rest
    else g

/-- A power of ten that has an exact neighbour in range, up to `10³⁰⁸`. -/
def powerOfTen (exponent : Nat) : Binary64 := Binary64.ofDecimal false ['1'] exponent

/-- Scale by a power of ten; below `10⁻³⁰⁸` the scaling takes several steps of at most `10³⁰⁸`,
and an overflow is refused. The number of steps is bounded by the first argument. -/
def scaleDown : Nat → Binary64 → Nat → Binary64
  | 0, x, _ => x
  | steps + 1, x, places =>
    if places ≤ 308 then x.div (powerOfTen places)
    else if x.magnitude = 0 then x
    else scaleDown steps (x.div (powerOfTen 308)) (places - 308)

/-- The gathered digits as a number, refused where it overflows. -/
def Gathered.toBinary64? (g : Gathered) : Option Binary64 :=
  let x := Binary64.ofInt g.word
  if 0 ≤ g.power then
    if g.power ≤ 308 then
      let y := x.mul (powerOfTen g.power.toNat)
      if y.isInfinite then none else some y
    else if g.word = 0 then some x
    else none
  else
    let places := (-g.power).toNat
    some (scaleDown (places / 308 + 1) x places)

/-- The largest exponent that is added up; a larger one is an overflow or an underflow by itself. -/
def largestExponent : Int := 2147483647

/-- The number that the numeral is read as when its digits are scaled in steps. -/
def stepwise? (n : Numeral) : Option Binary64 :=
  let digits := (Gathered.whole ⟨0, 0⟩ n.whole).fraction (n.fraction.getD [])
  let exponent := n.exponent.getD 0
  let magnitude :=
    if largestExponent < exponent.natAbs then
      if 0 < exponent && digits.word ≠ 0 then none else some (Binary64.zero false)
    else Gathered.toBinary64? ⟨digits.word, digits.power + exponent⟩
  magnitude.map fun x => if n.negative then x.neg else x

end Numeral

end TypedTemplate.Decimal
