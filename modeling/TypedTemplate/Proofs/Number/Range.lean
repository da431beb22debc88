import Mathlib.Tactic.Ring
import TypedTemplate.Decimal.Shortest

/-!
# The range of floating point

Rounding leaves the finite numbers only from halfway between the greatest one and the next power of
two on. The interval of decimals that stand for a finite number stays below that, so a shortest
decimal reads back as a finite number.

* `Binary64.overflow`: where rounding leaves the finite numbers.
* **`Binary64.ofUnits_isFinite`**: below that, a ratio is rounded to a finite number.
* `Binary64.ofDecimal_isFinite`: the same for a decimal.
* **`Binary64.ofUnits_eq_infinity`**: from there on, a ratio is rounded to an infinity.
* `Binary64.limit`: the overflow as a number; `Binary64.ofDecimal_isFinite_iff`: which decimals are
  rounded to finite numbers.
* `Decimal.InRange`: a decimal below that.
* **`Decimal.shortest_inRange`**: the shortest decimal of a finite number is in range.
-/

namespace TypedTemplate

namespace Binary64

/-! ## Words -/

theorem word_ofWord (negative : Bool) {low : Nat} (h : low < 2 ^ 63) :
    (ofWord negative low).word = low + if negative then 2 ^ 63 else 0 := by
  unfold ofWord word
  rw [UInt64.toNat_ofNat']
  apply Nat.mod_eq_of_lt
  cases negative with
  | true =>
    show low + 2 ^ 63 < 2 ^ 64
    omega
  | false =>
    show low + 0 < 2 ^ 64
    omega

/-- The exponent field of a word lies in its low bits. -/
theorem exponentField_ofWord (negative : Bool) {low : Nat} (h : low < 2 ^ 63) :
    (ofWord negative low).exponentField = low / 2 ^ 52 := by
  unfold exponentField
  rw [word_ofWord negative h]
  show (low + if negative = true then 2 ^ 63 else 0) / 2 ^ 52 % 2 ^ 11 = low / 2 ^ 52
  cases negative with
  | true => simp only [↓reduceIte]; omega
  | false => simp only [Bool.false_eq_true, ↓reduceIte]; omega

/-- A word below that of the infinity is that of a finite number. -/
theorem isFinite_ofWord (negative : Bool) {low : Nat} (h : low < 2047 * 2 ^ 52) :
    (ofWord negative low).isFinite = true := by
  unfold isFinite
  rw [exponentField_ofWord negative (by omega)]
  simp only [decide_eq_true_eq]
  omega

theorem isFinite_zero (negative : Bool) : (zero negative).isFinite = true :=
  isFinite_ofWord negative (by decide)

theorem natAbs_units (x : Binary64) : x.units.natAbs = x.magnitude := by
  unfold units
  split
  · rw [Int.natAbs_neg, Int.natAbs_natCast]
  · rw [Int.natAbs_natCast]

/-- A significand has 53 bits. -/
theorem significand_lt (x : Binary64) : x.significand < 2 ^ 53 := by
  have hfraction : x.fraction < 2 ^ 52 := Nat.mod_lt _ (by decide)
  unfold significand
  split
  · omega
  · show 2 ^ 52 + x.fraction < 2 ^ 53
    omega

/-- The shift of the greatest finite numbers. It is not unfolded, lest its power be computed. -/
@[irreducible] def lastShift : Nat := 2045

theorem lastShift_eq : lastShift = 2045 := by
  unfold lastShift
  rfl

theorem shift_le_of_isFinite {x : Binary64} (h : x.isFinite = true) : x.shift ≤ lastShift := by
  unfold isFinite at h
  have hfield := of_decide_eq_true h
  rw [lastShift_eq]
  unfold shift
  omega

/-! ## Rounding -/

/-- A ratio below a half more than a whole number is not rounded beyond it. -/
theorem roundNearest_le {num den k : Nat} (hden : 0 < den) (h : 2 * num < (2 * k + 1) * den) :
    roundNearest num den ≤ k := by
  have hsplit := Nat.div_add_mod num den
  have hbound : 2 * num < 2 * (den * k) + den := by
    calc 2 * num < (2 * k + 1) * den := h
      _ = 2 * (den * k) + den := by
        rw [Nat.add_mul, Nat.one_mul, Nat.mul_assoc, Nat.mul_comm k den]
  have hfloor : num / den ≤ k := by
    refine Decidable.byContradiction fun hnot => ?_
    have hstep : den * (k + 1) ≤ den * (num / den) := Nat.mul_le_mul_left den (by omega)
    rw [Nat.mul_add] at hstep
    omega
  -- at the last whole number, the rest is less than a half
  have hlast : num / den = k → 2 * (num % den) < den := by
    intro hk
    rw [hk] at hsplit
    omega
  unfold roundNearest
  simp only
  split
  · exact hfloor
  · next hdown =>
    have hless : num / den < k := by
      refine Nat.lt_of_le_of_ne hfloor fun hk => ?_
      exact hdown (hlast hk)
    split
    · exact hless
    · omega

/-- The magnitude in units from which on rounding leaves the finite numbers: halfway between the
greatest finite number and the next power of two. -/
@[irreducible] def overflow : Nat := (2 ^ 54 - 1) * 2 ^ (lastShift - 1)

/-- The step between the greatest finite numbers is twice its half. -/
theorem two_pow_lastShift : 2 ^ lastShift = 2 * 2 ^ (lastShift - 1) := by
  have hlast : lastShift = lastShift - 1 + 1 := by rw [lastShift_eq]
  conv => lhs; rw [hlast, Nat.pow_succ, Nat.mul_comm]

/-- How far a ratio is shifted, so that a significand remains of it. -/
def scale (num den : Nat) : Nat := Nat.log2 (num / den) - 52

/-- The significand of a ratio, rounded. -/
def rounded (num den : Nat) : Nat := roundNearest num (den * 2 ^ scale num den)

theorem ofUnits_eq (negative : Bool) (num den : Nat) :
    ofUnits negative num den =
      ofWord negative (min (scale num den * 2 ^ 52 + rounded num den) (2047 * 2 ^ 52)) :=
  rfl

section

variable {num den : Nat} (hden : 0 < den)

include hden

/-- The significand has at most 53 bits, or is rounded up to the next power of two. -/
theorem rounded_le : rounded num den ≤ 2 ^ 53 := by
  have hnum : num < 2 ^ (scale num den + 53) * den := by
    rw [← Nat.div_lt_iff_lt_mul hden]
    calc num / den < 2 ^ (Nat.log2 (num / den) + 1) := Nat.lt_log2_self
      _ ≤ 2 ^ (scale num den + 53) := by
        refine Nat.pow_le_pow_right (by decide) ?_
        unfold scale
        omega
  have hcommuted : num < 2 ^ 53 * (den * 2 ^ scale num den) := by
    calc num < 2 ^ (scale num den + 53) * den := hnum
      _ = 2 ^ 53 * (den * 2 ^ scale num den) := by
        rw [Nat.pow_add, Nat.mul_comm (2 ^ scale num den), Nat.mul_assoc, Nat.mul_comm den]
  refine roundNearest_le (Nat.mul_pos hden (Nat.two_pow_pos _)) ?_
  omega

/-- **Below the overflow, a ratio is rounded below the infinity.** -/
theorem low_lt (h : num < overflow * den) :
    scale num den * 2 ^ 52 + rounded num den < 2047 * 2 ^ 52 := by
  have hquotient : num / den < overflow := (Nat.div_lt_iff_lt_mul hden).mpr h
  unfold overflow at h hquotient
  have hlast := lastShift_eq
  have hround : rounded num den ≤ 2 ^ 53 := rounded_le hden
  have hlog : scale num den ≤ lastShift := by
    have hbits : Nat.log2 (num / den) < 54 + (lastShift - 1) := by
      by_cases hzero : num / den = 0
      · rw [hzero, hlast]
        decide
      · refine (Nat.log2_lt hzero).mpr ?_
        calc num / den < (2 ^ 54 - 1) * 2 ^ (lastShift - 1) := hquotient
          _ ≤ 2 ^ 54 * 2 ^ (lastShift - 1) := Nat.mul_le_mul_right _ (by decide)
          _ = 2 ^ (54 + (lastShift - 1)) := by rw [Nat.pow_add]
    unfold scale
    omega
  by_cases htop : scale num den = lastShift
  · -- at the last shift the significand is not rounded up, since that is where the overflow lies
    have hrest : rounded num den ≤ 2 ^ 53 - 1 := by
      have hhalf : num < (2 ^ 54 - 1) * (den * 2 ^ (lastShift - 1)) := by
        calc num < (2 ^ 54 - 1) * 2 ^ (lastShift - 1) * den := h
          _ = (2 ^ 54 - 1) * (den * 2 ^ (lastShift - 1)) := by
            rw [Nat.mul_assoc, Nat.mul_comm (2 ^ (lastShift - 1))]
      have hdouble : den * 2 ^ scale num den = 2 * (den * 2 ^ (lastShift - 1)) := by
        rw [htop, two_pow_lastShift, ← Nat.mul_assoc, Nat.mul_comm den 2, Nat.mul_assoc]
      refine roundNearest_le (Nat.mul_pos hden (Nat.two_pow_pos _)) ?_
      rw [hdouble]
      omega
    omega
  · omega

end

/-- **Below the overflow, a ratio is rounded to a finite number.** -/
theorem ofUnits_isFinite (negative : Bool) {num den : Nat} (hden : 0 < den)
    (h : num < overflow * den) : (ofUnits negative num den).isFinite = true :=
  isFinite_ofWord negative (Nat.lt_of_le_of_lt (Nat.min_le_left _ _) (low_lt hden h))

/-- A decimal without a positive power of ten that lies below the overflow is rounded to a finite
number. -/
theorem ofDecimal_isFinite (negative : Bool) {digits : List Char} {exponent : Int}
    (hexponent : exponent ≤ 0)
    (h : Nat.ofDigitChars 10 digits 0 * unitsPerOne < overflow * 10 ^ (-exponent).toNat) :
    (ofDecimal negative digits exponent).isFinite = true := by
  unfold ofDecimal
  simp only
  split
  · exact isFinite_zero negative
  · rw [if_neg (by omega)]
    split
    · exact isFinite_zero negative
    · split
      · next hnonneg =>
        obtain rfl : exponent = 0 := by omega
        refine ofUnits_isFinite negative Nat.one_pos ?_
        simpa using h
      · refine ofUnits_isFinite negative ?_ ?_
        · exact Nat.pow_pos (by decide)
        · exact h

/-! ## Overflow -/

/-- A ratio is not rounded below its whole part. -/
theorem div_le_roundNearest (num den : Nat) : num / den ≤ roundNearest num den := by
  unfold roundNearest
  simp only
  split
  · exact Nat.le_refl _
  · split <;> omega

/-- A ratio that is a half or more beyond an odd number is rounded beyond it. -/
theorem lt_roundNearest {num den k : Nat} (hden : 0 < den) (hodd : k % 2 = 1)
    (h : (2 * k + 1) * den ≤ 2 * num) : k < roundNearest num den := by
  have hsplit := Nat.div_add_mod num den
  have hbound : 2 * (den * k) + den ≤ 2 * num := by
    calc 2 * (den * k) + den = (2 * k + 1) * den := by ring
      _ ≤ 2 * num := h
  have hfloor : k ≤ num / den := by
    refine (Nat.le_div_iff_mul_le hden).mpr ?_
    rw [Nat.mul_comm]
    omega
  rcases Nat.lt_or_eq_of_le hfloor with hbeyond | hlast
  · exact Nat.lt_of_lt_of_le hbeyond (div_le_roundNearest num den)
  · -- the rest is at least a half, and a half goes away from the odd number
    have hrest : den ≤ 2 * (num % den) := by
      rw [← hlast] at hsplit
      omega
    unfold roundNearest
    simp only [← hlast]
    split
    · omega
    · split <;> omega

/-- A ratio that is shifted leaves a significand with its leading bit. -/
theorem le_rounded {num den : Nat} (h : scale num den ≠ 0) : 2 ^ 52 ≤ rounded num den := by
  unfold scale at h
  have hpositive : num / den ≠ 0 := by
    intro hzero
    rw [hzero] at h
    exact h rfl
  refine Nat.le_trans ?_ (div_le_roundNearest num (den * 2 ^ scale num den))
  rw [← Nat.div_div_eq_div_mul]
  refine (Nat.le_div_iff_mul_le (Nat.two_pow_pos _)).mpr ?_
  calc 2 ^ 52 * 2 ^ scale num den = 2 ^ Nat.log2 (num / den) := by
        rw [← Nat.pow_add]
        congr 1
        unfold scale
        omega
    _ ≤ num / den := Nat.log2_self_le hpositive

/-- **From the overflow on, a ratio is rounded to an infinity.** -/
theorem ofUnits_eq_infinity (negative : Bool) {num den : Nat} (hden : 0 < den)
    (h : overflow * den ≤ num) : ofUnits negative num den = infinity negative := by
  have hquotient : overflow ≤ num / den := (Nat.le_div_iff_mul_le hden).mpr h
  unfold overflow at h hquotient
  have hlast := lastShift_eq
  have hwhole : 2 ^ (lastShift + 52) ≤ num / den := by
    calc 2 ^ (lastShift + 52) = 2 ^ 53 * 2 ^ (lastShift - 1) := by
          rw [← Nat.pow_add]
          congr 1
          omega
      _ ≤ (2 ^ 54 - 1) * 2 ^ (lastShift - 1) := Nat.mul_le_mul_right _ (by decide)
      _ ≤ num / den := hquotient
  have hlog : lastShift ≤ scale num den := by
    have hpositive : num / den ≠ 0 :=
      Nat.ne_of_gt (Nat.lt_of_lt_of_le (Nat.two_pow_pos _) hwhole)
    have hbits : lastShift + 52 ≤ Nat.log2 (num / den) := (Nat.le_log2 hpositive).mpr hwhole
    unfold scale
    omega
  have hlow : 2047 * 2 ^ 52 ≤ scale num den * 2 ^ 52 + rounded num den := by
    by_cases htop : scale num den = lastShift
    · -- at the last shift the significand is rounded up to the next power of two
      have hround : 2 ^ 53 - 1 < rounded num den := by
        refine lt_roundNearest (Nat.mul_pos hden (Nat.two_pow_pos _)) (by decide) ?_
        calc (2 * (2 ^ 53 - 1) + 1) * (den * 2 ^ scale num den)
            = 2 * ((2 ^ 54 - 1) * 2 ^ (lastShift - 1) * den) := by
              rw [htop, two_pow_lastShift]
              ring
          _ ≤ 2 * num := Nat.mul_le_mul_left 2 h
      omega
    · -- beyond it the leading bit alone is enough
      have hround : 2 ^ 52 ≤ rounded num den := le_rounded (by omega)
      omega
  rw [ofUnits_eq, Nat.min_eq_right hlow]
  rfl

theorem isFinite_infinity (negative : Bool) : (infinity negative).isFinite = false := by
  cases negative <;> decide

/-- **The magnitude that no finite number comes near**: halfway between the greatest finite number
and the next power of two. -/
def limit : Nat := 2 ^ 1024 - 2 ^ 970

theorem unitsPerOne_eq : unitsPerOne = 2 ^ 1074 := by
  unfold unitsPerOne
  generalize 1074 = n
  exact Nat.pow_eq

theorem unitsPerOne_pos : 0 < unitsPerOne :=
  Nat.lt_of_lt_of_eq (Nat.two_pow_pos _) unitsPerOne_eq.symm

theorem limit_eq : limit = (2 ^ 54 - 1) * 2 ^ 970 := by
  unfold limit
  rw [Nat.sub_mul, Nat.one_mul, ← Nat.pow_add]

theorem pow_le_limit : 2 ^ 970 ≤ limit := by
  rw [limit_eq]
  exact Nat.le_mul_of_pos_left _ (by decide)

theorem limit_pos : 0 < limit := Nat.lt_of_lt_of_le (Nat.two_pow_pos _) pow_le_limit

theorem lt_limit_of_le {n : Nat} (h : n ≤ 2 ^ 64) : n < limit := by
  have hpower : 2 ^ 64 < 2 ^ 970 := Nat.pow_lt_pow_right (by decide) (by decide)
  exact Nat.lt_of_le_of_lt h (Nat.lt_of_lt_of_le hpower pow_le_limit)

theorem overflow_eq : overflow = limit * unitsPerOne := by
  unfold overflow
  rw [lastShift_eq, limit_eq, unitsPerOne_eq, Nat.mul_assoc, ← Nat.pow_add]

/-- So many digits make a number below that power of ten. -/
theorem ofDigitChars_lt {cs : List Char} (h : ∀ c ∈ cs, c.isDigit = true) :
    Nat.ofDigitChars 10 cs 0 < 10 ^ cs.length := by
  induction cs with
  | nil => decide
  | cons c cs ih =>
    rw [List.forall_mem_cons] at h
    have hdigit : c.toNat - '0'.toNat ≤ 9 :=
      Nat.sub_le_sub_right (Char.isDigit_iff_toNat.mp h.1).2 _
    have hfirst := Nat.mul_le_mul_left (10 ^ cs.length) hdigit
    have hrest := ih h.2
    rw [Nat.ofDigitChars_cons, Nat.mul_zero, Nat.zero_add, Nat.ofDigitChars_eq_ofDigitChars_zero,
      List.length_cons, Nat.pow_succ]
    omega

/-- **A decimal of digits and decimal places is rounded to a finite number just when it lies below
the limit.** -/
theorem ofDecimal_isFinite_iff (negative : Bool) {digits : List Char}
    (hdigits : ∀ c ∈ digits, c.isDigit = true) (places : Nat) :
    (ofDecimal negative digits (-(places : Int))).isFinite = true ↔
      Nat.ofDigitChars 10 digits 0 < limit * 10 ^ places := by
  have hplaces : (-(-(places : Int))).toNat = places := by omega
  have hscaled : Nat.ofDigitChars 10 digits 0 * unitsPerOne < overflow * 10 ^ places ↔
      Nat.ofDigitChars 10 digits 0 < limit * 10 ^ places := by
    rw [overflow_eq, Nat.mul_right_comm]
    exact Nat.mul_lt_mul_right unitsPerOne_pos
  constructor
  · intro hfinite
    refine Decidable.byContradiction fun hnot => ?_
    have hpower : 10 ^ places ≤ Nat.ofDigitChars 10 digits 0 :=
      Nat.le_trans (Nat.le_mul_of_pos_left _ limit_pos) (Nat.le_of_not_lt hnot)
    have hsignificand : Nat.ofDigitChars 10 digits 0 ≠ 0 :=
      Nat.ne_of_gt (Nat.lt_of_lt_of_le (Nat.pow_pos (by decide)) hpower)
    -- there are more digits than places, so the number is not taken to be below half a unit
    have hlength : places < digits.length :=
      (Nat.pow_lt_pow_iff_right (by decide)).mp
        (Nat.lt_of_le_of_lt hpower (ofDigitChars_lt hdigits))
    have hover : overflow * 10 ^ places ≤ Nat.ofDigitChars 10 digits 0 * unitsPerOne :=
      Nat.le_of_not_lt fun hlt => hnot (hscaled.mp hlt)
    have hinfinity : ofDecimal negative digits (-(places : Int)) = infinity negative := by
      unfold ofDecimal
      simp only
      rw [if_neg hsignificand, if_neg (by omega), if_neg (by omega)]
      split
      · next hnonneg =>
        obtain rfl : places = 0 := by omega
        refine ofUnits_eq_infinity negative Nat.one_pos ?_
        simpa using hover
      · rw [hplaces]
        exact ofUnits_eq_infinity negative (Nat.pow_pos (by decide)) hover
    rw [hinfinity, isFinite_infinity] at hfinite
    cases hfinite
  · intro h
    refine ofDecimal_isFinite negative (by omega) ?_
    rw [hplaces]
    exact hscaled.mpr h

end Binary64

namespace Decimal

open Binary64 (unitsPerOne overflow lastShift)

/-- **A decimal below the overflow**: its digits as an integer, scaled by a power of ten. -/
def InRange (digits : Nat) (power : Int) : Prop :=
  digits * 10 ^ power.toNat * unitsPerOne < overflow * 10 ^ (-power).toNat

/-- The interval of a finite number lies below the overflow: the upper end of the last one is the
overflow itself, and does not belong to it. -/
theorem Interval.high_of {x : Binary64} (h : x.isFinite = true) :
    (Interval.of x).high ≤ 4 * overflow ∧
      ((Interval.of x).closed = true → (Interval.of x).high < 4 * overflow) := by
  have hsignificand := x.significand_lt
  have hcoarse : 4 * x.significand + 2 ≤ 2 ^ 55 - 2 := by omega
  have heven : (Interval.of x).closed = true → 4 * x.significand + 2 ≤ 2 ^ 55 - 6 := by
    intro hclosed
    have hmod : x.significand % 2 = 0 := by simpa [Interval.of] using hclosed
    omega
  have hhigh : (Interval.of x).high = (4 * x.significand + 2) * 2 ^ x.shift := by
    show 4 * (x.significand * 2 ^ x.shift) + 2 * 2 ^ x.shift = _
    rw [Nat.add_mul, Nat.mul_assoc]
  have htop : 4 * overflow = (2 ^ 55 - 2) * 2 ^ lastShift := by
    unfold overflow
    rw [Binary64.two_pow_lastShift]
    generalize (2 : Nat) ^ (lastShift - 1) = half
    omega
  have hstep : 2 ^ x.shift ≤ 2 ^ lastShift :=
    Nat.pow_le_pow_right (by decide) (Binary64.shift_le_of_isFinite h)
  have hpositive : 0 < 2 ^ lastShift := Nat.pow_pos (by decide)
  rw [hhigh, htop]
  constructor
  · exact Nat.mul_le_mul hcoarse hstep
  · intro hclosed
    calc (4 * x.significand + 2) * 2 ^ x.shift
        ≤ (2 ^ 55 - 6) * 2 ^ lastShift := Nat.mul_le_mul (heven hclosed) hstep
      _ < (2 ^ 55 - 2) * 2 ^ lastShift := Nat.mul_lt_mul_of_pos_right (by decide) hpositive

/-- A point of an interval lies below what bounds the interval. -/
theorem Interval.lt_of_contains {i : Interval} {bound point : Nat} (hhigh : i.high ≤ bound)
    (hclosed : i.closed = true → i.high < bound) (h : i.contains point = true) : point < bound := by
  unfold contains at h
  split at h
  · next hends =>
    simp only [Bool.and_eq_true, decide_eq_true_eq] at h
    exact Nat.lt_of_le_of_lt h.2 (hclosed hends)
  · simp only [Bool.and_eq_true, decide_eq_true_eq] at h
    exact Nat.lt_of_lt_of_le h.2 hhigh

/-- A point of a grid that stands for a finite number is in range. -/
theorem Interval.inRange_of_contains {x : Binary64} (hx : x.isFinite = true) {power : Int}
    {digits : Nat} (h : ((Interval.of x).scaled power).1.contains
      (digits * ((Interval.of x).scaled power).2) = true) : InRange digits power := by
  obtain ⟨hhigh, hclosed⟩ := Interval.high_of hx
  unfold InRange
  by_cases hpower : 0 ≤ power
  · have hscaled : (Interval.of x).scaled power =
        (Interval.of x, 4 * unitsPerOne * 10 ^ power.toNat) := by
      unfold scaled
      exact if_pos hpower
    rw [hscaled] at h
    have hlt : digits * (4 * unitsPerOne * 10 ^ power.toNat) < 4 * overflow :=
      Interval.lt_of_contains hhigh hclosed h
    have hplaces : (-power).toNat = 0 := by omega
    rw [hplaces, Nat.pow_zero, Nat.mul_one]
    have hcommuted : digits * (4 * unitsPerOne * 10 ^ power.toNat) =
        4 * (digits * 10 ^ power.toNat * unitsPerOne) := by ring
    omega
  · have hscaled : (Interval.of x).scaled power =
        (⟨(Interval.of x).value * 10 ^ (-power).toNat, (Interval.of x).low * 10 ^ (-power).toNat,
          (Interval.of x).high * 10 ^ (-power).toNat, (Interval.of x).closed⟩,
          4 * unitsPerOne) := by
      unfold scaled
      exact if_neg hpower
    have hpositive : 0 < 10 ^ (-power).toNat := Nat.pow_pos (by decide)
    rw [hscaled] at h
    have hlt : digits * (4 * unitsPerOne) < 4 * overflow * 10 ^ (-power).toNat := by
      refine Interval.lt_of_contains ?_ ?_ h
      · exact Nat.mul_le_mul_right _ hhigh
      · intro hends
        exact Nat.mul_lt_mul_of_pos_right (hclosed hends) hpositive
    have hplaces : power.toNat = 0 := by omega
    rw [hplaces, Nat.pow_zero, Nat.mul_one]
    have hleft : digits * (4 * unitsPerOne) = 4 * (digits * unitsPerOne) := by ring
    have hright : 4 * overflow * 10 ^ (-power).toNat = 4 * (overflow * 10 ^ (-power).toNat) := by
      ring
    omega

/-- What is found on a grid lies in the interval. -/
theorem Interval.contains_of_onGrid? {i : Interval} {tie : Tie} {power : Int} {digits : Nat}
    (h : i.onGrid? tie power = some digits) :
    (i.scaled power).1.contains (digits * (i.scaled power).2) = true := by
  unfold onGrid? at h
  generalize i.scaled power = scaled at h ⊢
  obtain ⟨j, width⟩ := scaled
  simp only at h ⊢
  split at h
  · cases h
  · next hbelow _ =>
    obtain rfl := Option.some.inj h
    exact hbelow
  · next _ habove =>
    obtain rfl := Option.some.inj h
    exact habove
  · next hbelow habove =>
    split at h
    · obtain rfl := Option.some.inj h
      exact hbelow
    · split at h
      · obtain rfl := Option.some.inj h
        exact habove
      · split at h
        · obtain rfl := Option.some.inj h
          exact habove
        · obtain rfl := Option.some.inj h
          rcases Nat.mod_two_eq_zero_or_one (j.value / width) with heven | hodd
          · rw [heven]
            exact hbelow
          · rw [hodd]
            exact habove

/-- The value of a finite number, cut off at a power of ten, is in range. -/
theorem Interval.inRange_of_floor {x : Binary64} (hx : x.isFinite = true) (places : Nat) :
    InRange ((Interval.of x).value * Nat.pow 10 places / (4 * unitsPerOne)) (-(places : Int)) := by
  have hvalue : (Interval.of x).value < 4 * overflow := by
    have hstep : 0 < 2 ^ x.shift := Nat.two_pow_pos x.shift
    have hsum : (Interval.of x).high = (Interval.of x).value + 2 * 2 ^ x.shift := rfl
    have hhigh := (Interval.high_of hx).1
    omega
  have hfloor := Nat.div_mul_le_self ((Interval.of x).value * 10 ^ places) (4 * unitsPerOne)
  have hscaled : (Interval.of x).value * 10 ^ places < 4 * overflow * 10 ^ places :=
    Nat.mul_lt_mul_of_pos_right hvalue (Nat.pow_pos (by decide))
  have hplaces : (-(-(places : Int))).toNat = places := by omega
  have hwhole : (-(places : Int)).toNat = 0 := by omega
  unfold InRange
  rw [hplaces, hwhole, Nat.pow_zero, Nat.mul_one]
  show (Interval.of x).value * 10 ^ places / (4 * unitsPerOne) * unitsPerOne < _
  generalize (Interval.of x).value * 10 ^ places = scaled at hfloor hscaled ⊢
  have hleft : scaled / (4 * unitsPerOne) * (4 * unitsPerOne) =
      4 * (scaled / (4 * unitsPerOne) * unitsPerOne) := by ring
  have hright : 4 * overflow * 10 ^ places = 4 * (overflow * 10 ^ places) := by ring
  omega

/-- What the search ends with is in range. -/
theorem Interval.search_inRange {x : Binary64} (hx : x.isFinite = true) (tie : Tie) (n : Nat) :
    InRange ((Interval.of x).search tie n).1 ((Interval.of x).search tie n).2 := by
  induction n with
  | zero =>
    have hfloor := Interval.inRange_of_floor hx 1074
    rw [show (-((1074 : Nat) : Int)) = -1074 from rfl] at hfloor
    unfold search
    exact hfloor
  | succ n ih =>
    unfold search
    cases hgrid : (Interval.of x).onGrid? tie (n + 1 - 1074 : Int) with
    | none => exact ih
    | some digits => exact Interval.inRange_of_contains hx (Interval.contains_of_onGrid? hgrid)

/-- **The shortest decimal of a finite number is in range.** -/
theorem shortest_inRange (tie : Tie) {x : Binary64} (h : x.isFinite = true) :
    InRange (shortest tie x).1 (shortest tie x).2 := by
  unfold shortest
  split
  · have hpositive : 0 < overflow := by
      unfold overflow
      exact Nat.mul_pos (by decide) (Nat.pow_pos (by decide))
    unfold InRange
    simpa using hpositive
  · exact Interval.search_inRange h tie _

end Decimal

end TypedTemplate
