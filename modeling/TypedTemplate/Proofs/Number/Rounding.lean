import Mathlib.Data.Nat.Log
import TypedTemplate.Number.Basic
import TypedTemplate.Proofs.Number.Range

/-!
# Rounding keeps the order

Below the overflow a ratio is rounded to a significand and a power of two. A greater ratio is not
rounded to less, and a ratio that needs no more than a significand is not changed at all; so whole
numbers keep their order, and up to `2⁵³` their value.

* **`Binary64.magnitude_ofUnits`**: what a ratio is rounded to.
* **`Binary64.magnitude_ofUnits_le`**: a greater ratio is not rounded to less.
* **`Binary64.magnitude_ofUnits_of_whole`**: a whole number up to `2⁵³` is exact.
* `Binary64.isFinite_ofInt`, **`Binary64.units_ofInt_le`**, `Binary64.units_ofUnits_of_whole`,
  `Binary64.units_ofInt_of_small`: the same for integers.
-/

namespace TypedTemplate.Binary64

/-! ## Words -/

theorem isNegative_ofWord (negative : Bool) {low : Nat} (h : low < 2 ^ 63) :
    (ofWord negative low).isNegative = negative := by
  unfold isNegative
  rw [word_ofWord negative h]
  show decide (2 ^ 63 ≤ low + if negative = true then 2 ^ 63 else 0) = negative
  cases negative with
  | true => simp
  | false => simpa using h

theorem fraction_ofWord (negative : Bool) {low : Nat} (h : low < 2 ^ 63) :
    (ofWord negative low).fraction = low % 2 ^ 52 := by
  unfold fraction
  rw [word_ofWord negative h]
  show (low + if negative = true then 2 ^ 63 else 0) % 2 ^ 52 = low % 2 ^ 52
  cases negative with
  | true => simp only [↓reduceIte]; omega
  | false => simp

/-- **A word by its significand and shift.** The significand has its leading bit if there is a
shift, and may be the next power of two. -/
theorem magnitude_ofWord (negative : Bool) {shift significand : Nat} (hround : significand ≤ 2 ^ 53)
    (hlead : shift ≠ 0 → 2 ^ 52 ≤ significand)
    (hlow : shift * 2 ^ 52 + significand < 2047 * 2 ^ 52) :
    (ofWord negative (shift * 2 ^ 52 + significand)).magnitude = significand * 2 ^ shift := by
  have hword : shift * 2 ^ 52 + significand < 2 ^ 63 := by omega
  have hfield := exponentField_ofWord negative hword
  have hfraction := fraction_ofWord negative hword
  generalize ofWord negative (shift * 2 ^ 52 + significand) = x at hfield hfraction
  have hbits : x.significand =
      if x.exponentField = 0 then x.fraction else 2 ^ 52 + x.fraction := rfl
  show x.significand * 2 ^ (x.exponentField - 1) = significand * 2 ^ shift
  rcases Nat.lt_or_ge significand (2 ^ 52) with hsmall | hlarge
  · obtain rfl : shift = 0 := by
      refine Decidable.byContradiction fun hshift => ?_
      have := hlead hshift
      omega
    have hzero : x.exponentField = 0 := by omega
    rw [hbits, if_pos hzero, hzero]
    congr 1
    omega
  · rcases Nat.lt_or_eq_of_le hround with hless | htop
    · have hone : x.exponentField = shift + 1 := by omega
      rw [hbits, if_neg (by omega), hone, Nat.add_sub_cancel]
      congr 1
      omega
    · -- the next power of two carries into the exponent
      have htwo : x.exponentField = shift + 2 := by omega
      have hnone : x.fraction = 0 := by omega
      rw [hbits, if_neg (by omega), htwo, hnone, htop]
      show 2 ^ 52 * 2 ^ (shift + 1) = 2 ^ 53 * 2 ^ shift
      rw [← Nat.pow_add, ← Nat.pow_add]
      congr 1
      omega

theorem isNegative_ofUnits (negative : Bool) (num den : Nat) :
    (ofUnits negative num den).isNegative = negative := by
  rw [ofUnits_eq]
  refine isNegative_ofWord negative (Nat.lt_of_le_of_lt (Nat.min_le_right _ _) ?_)
  decide

/-- **What a ratio is rounded to**: its significand under its shift. -/
theorem magnitude_ofUnits (negative : Bool) {num den : Nat} (hden : 0 < den)
    (h : num < overflow * den) :
    (ofUnits negative num den).magnitude = rounded num den * 2 ^ scale num den := by
  have hlow := low_lt hden h
  rw [ofUnits_eq, Nat.min_eq_left (Nat.le_of_lt hlow)]
  exact magnitude_ofWord negative (rounded_le hden) le_rounded hlow

/-- The value of a finite ratio is its magnitude under its sign. -/
theorem units_ofUnits (negative : Bool) (num den : Nat) :
    (ofUnits negative num den).units =
      if negative then -((ofUnits negative num den).magnitude : Int)
      else (ofUnits negative num den).magnitude := by
  rw [units, isNegative_ofUnits]

/-! ## Order -/

theorem roundNearest_mono {num num' : Nat} (h : num ≤ num') (den : Nat) :
    roundNearest num den ≤ roundNearest num' den := by
  have hquotient : num / den ≤ num' / den := Nat.div_le_div_right h
  have hup : roundNearest num den ≤ num / den + 1 := by
    unfold roundNearest
    simp only
    split
    · omega
    · split <;> omega
  rcases Nat.lt_or_eq_of_le hquotient with hless | hsame
  · calc roundNearest num den ≤ num / den + 1 := hup
      _ ≤ num' / den := hless
      _ ≤ roundNearest num' den := div_le_roundNearest num' den
  · have hrest : num % den ≤ num' % den := by
      have hsplit := Nat.div_add_mod num den
      have hsplit' := Nat.div_add_mod num' den
      rw [hsame] at hsplit
      omega
    unfold roundNearest
    simp only [hsame]
    split
    · split
      · exact Nat.le_refl _
      · split <;> omega
    · split
      · rw [if_neg (by omega), if_pos (by omega)]
      · split
        · omega
        · split <;> omega

theorem scale_mono {num num' : Nat} (h : num ≤ num') (den : Nat) :
    scale num den ≤ scale num' den := by
  unfold scale
  rw [Nat.log2_eq_log_two, Nat.log2_eq_log_two]
  exact Nat.sub_le_sub_right (Nat.log_mono_right (Nat.div_le_div_right h)) 52

/-- **A greater ratio is not rounded to less.** -/
theorem magnitude_ofUnits_le (negative negative' : Bool) {num num' den : Nat} (hden : 0 < den)
    (hle : num ≤ num') (h : num' < overflow * den) :
    (ofUnits negative num den).magnitude ≤ (ofUnits negative' num' den).magnitude := by
  rw [magnitude_ofUnits negative hden (Nat.lt_of_le_of_lt hle h),
    magnitude_ofUnits negative' hden h]
  rcases Nat.lt_or_eq_of_le (scale_mono hle den) with hless | hsame
  · have hlead : 2 ^ 52 ≤ rounded num' den := le_rounded (by omega)
    calc rounded num den * 2 ^ scale num den
        ≤ 2 ^ 53 * 2 ^ scale num den := Nat.mul_le_mul_right _ (rounded_le hden)
      _ = 2 ^ 52 * 2 ^ (scale num den + 1) := by
        rw [← Nat.pow_add, ← Nat.pow_add]
        congr 1
        omega
      _ ≤ rounded num' den * 2 ^ scale num' den :=
        Nat.mul_le_mul hlead (Nat.pow_le_pow_right (by decide) hless)
  · unfold rounded
    rw [hsame]
    exact Nat.mul_le_mul_right _ (roundNearest_mono hle _)

/-! ## Exactness -/

theorem roundNearest_mul (n : Nat) {den : Nat} (h : 0 < den) :
    roundNearest (n * den) den = n := by
  unfold roundNearest
  simp only [Nat.mul_mod_left, Nat.mul_div_cancel n h]
  rw [if_pos (by omega)]

/-- A number of units of which the shift leaves whole ones is not changed. -/
theorem magnitude_ofUnits_of_dvd (negative : Bool) {n den : Nat} (hden : 0 < den)
    (h : n < overflow) (hdvd : 2 ^ scale (n * den) den ∣ n) :
    (ofUnits negative (n * den) den).magnitude = n := by
  obtain ⟨k, hk⟩ := hdvd
  have hbelow : n * den < overflow * den := Nat.mul_lt_mul_of_pos_right h hden
  have hround : rounded (n * den) den = k := by
    have hscaled : n * den = k * (den * 2 ^ scale (n * den) den) := by
      conv => lhs; rw [hk]
      ring
    unfold rounded
    conv => lhs; arg 1; rw [hscaled]
    exact roundNearest_mul k (Nat.mul_pos hden (Nat.two_pow_pos _))
  rw [magnitude_ofUnits negative hden hbelow, hround, Nat.mul_comm]
  exact hk.symm

/-- The shift of a significand of 53 bits under a power of two is no greater than that power. -/
theorem two_pow_scale_dvd {m e den : Nat} (hden : 0 < den) (h : m ≤ 2 ^ 53) :
    2 ^ scale (m * 2 ^ e * den) den ∣ m * 2 ^ e := by
  have hcancel : m * 2 ^ e * den / den = m * 2 ^ e := Nat.mul_div_cancel _ hden
  unfold scale
  rw [hcancel]
  by_cases hzero : m * 2 ^ e = 0
  · rw [hzero]
    exact Nat.dvd_zero _
  · rcases Nat.lt_or_eq_of_le h with hless | htop
    · have hlog : Nat.log2 (m * 2 ^ e) < 53 + e := by
        refine (Nat.log2_lt hzero).mpr ?_
        rw [Nat.pow_add]
        exact Nat.mul_lt_mul_of_pos_right hless (Nat.two_pow_pos e)
      exact Nat.dvd_trans (Nat.pow_dvd_pow 2 (by omega)) (Nat.dvd_mul_left _ _)
    · rw [htop, ← Nat.pow_add, Nat.log2_two_pow]
      exact Nat.pow_dvd_pow 2 (by omega)

/-- Whole numbers below the limit are below the overflow. -/
theorem units_lt_overflow {n : Nat} (h : n < limit) : n * unitsPerOne < overflow := by
  rw [overflow_eq]
  exact Nat.mul_lt_mul_of_pos_right h unitsPerOne_pos

/-- **A whole number up to `2⁵³` is exact**, whatever the ratio is made of. -/
theorem magnitude_ofUnits_of_whole (negative : Bool) {n den : Nat} (hden : 0 < den)
    (h : n ≤ 2 ^ 53) :
    (ofUnits negative (n * unitsPerOne * den) den).magnitude = n * unitsPerOne := by
  refine magnitude_ofUnits_of_dvd negative hden (units_lt_overflow (lt_limit_of_le ?_)) ?_
  · exact Nat.le_trans h (by decide)
  · unfold unitsPerOne
    exact two_pow_scale_dvd hden h

/-! ## Integers -/

variable {m n : Int}

/-- **An integer up to `2⁵³` is exact**, whatever the ratio and the sign of zero are. -/
theorem units_ofUnits_of_whole {negative : Bool} {den : Nat} (hden : 0 < den)
    (h : n.natAbs ≤ 2 ^ 53) (hsign : n ≠ 0 → negative = decide (n < 0)) :
    (ofUnits negative (n.natAbs * unitsPerOne * den) den).units = n * unitsPerOne := by
  rw [units_ofUnits, magnitude_ofUnits_of_whole negative hden h]
  push_cast
  generalize (unitsPerOne : Int) = one
  by_cases hzero : n = 0
  · simp [hzero]
  · rw [hsign hzero]
    rcases lt_or_ge n 0 with hneg | hpos
    · rw [if_pos (decide_eq_true hneg), abs_of_neg hneg, Int.neg_mul, Int.neg_neg]
    · rw [if_neg (by simpa using hpos), abs_of_nonneg hpos]

theorem isFinite_ofInt (h : n.natAbs < limit) : (ofInt n).isFinite = true := by
  refine ofUnits_isFinite _ Nat.one_pos ?_
  rw [Nat.mul_one]
  exact units_lt_overflow h

theorem isNaN_of_isFinite {x : Binary64} (h : x.isFinite = true) : x.isNaN = false := by
  simp [isNaN, h]

theorem isInfinite_of_isFinite {x : Binary64} (h : x.isFinite = true) : x.isInfinite = false := by
  simp [isInfinite, h]

theorem units_ofInt (n : Int) :
    (ofInt n).units =
      if n < 0 then -((ofInt n).magnitude : Int) else (ofInt n).magnitude := by
  unfold ofInt
  simp only [units_ofUnits, decide_eq_true_eq]

theorem magnitude_ofInt_le (h : m.natAbs ≤ n.natAbs) (hn : n.natAbs < limit) :
    (ofInt m).magnitude ≤ (ofInt n).magnitude := by
  refine magnitude_ofUnits_le _ _ Nat.one_pos (Nat.mul_le_mul_right _ h) ?_
  rw [Nat.mul_one]
  exact units_lt_overflow hn

/-- **Integers keep their order.** -/
theorem units_ofInt_le (h : m ≤ n) (hm : m.natAbs < limit) (hn : n.natAbs < limit) :
    (ofInt m).units ≤ (ofInt n).units := by
  rw [units_ofInt, units_ofInt]
  by_cases hneg : n < 0
  · have hle := magnitude_ofInt_le (m := n) (n := m) (by omega) hm
    rw [if_pos hneg, if_pos (by omega)]
    omega
  · by_cases hneg' : m < 0
    · rw [if_neg hneg, if_pos hneg']
      omega
    · have hle := magnitude_ofInt_le (m := m) (n := n) (by omega) hn
      rw [if_neg hneg, if_neg hneg']
      omega

/-- **Integers up to `2⁵³` are exact.** -/
theorem units_ofInt_of_small (h : n.natAbs ≤ 2 ^ 53) : (ofInt n).units = n * unitsPerOne := by
  have hexact := units_ofUnits_of_whole Nat.one_pos h fun _ => rfl
  rwa [Nat.mul_one] at hexact

/-- Different integers are not rounded to the same number below `2⁵³`. -/
theorem le_natAbs_of_units_eq (hn : n.natAbs < limit) (hne : m ≠ n)
    (h : (ofInt m).units = (ofInt n).units) : 2 ^ 53 ≤ m.natAbs := by
  by_contra hsmall
  have hone : (0 : Int) < unitsPerOne := Int.natCast_pos.mpr unitsPerOne_pos
  have hlarge : (2 ^ 53 : Int).natAbs < limit := lt_limit_of_le (by decide)
  have hlarge' : (-2 ^ 53 : Int).natAbs < limit := lt_limit_of_le (by decide)
  rw [units_ofInt_of_small (n := m) (by omega)] at h
  rcases lt_or_ge (2 ^ 53) n with habove | hbelow
  · have hle := units_ofInt_le (Int.le_of_lt habove) hlarge hn
    rw [units_ofInt_of_small (by decide), ← h] at hle
    have := Int.le_of_mul_le_mul_right hle hone
    omega
  · rcases lt_or_ge n (-2 ^ 53) with hunder | hover
    · have hle := units_ofInt_le (Int.le_of_lt hunder) hn hlarge'
      rw [units_ofInt_of_small (n := -2 ^ 53) (by decide), ← h] at hle
      have := Int.le_of_mul_le_mul_right hle hone
      omega
    · rw [units_ofInt_of_small (n := n) (by omega)] at h
      exact hne (Int.eq_of_mul_eq_mul_right (by omega) h)

end TypedTemplate.Binary64

/-! ## Numbers -/

namespace TypedTemplate.Number

variable {a : Number} {x : Int}

theorem toBinary64_of_integer? (h : a.integer? = some x) : a.toBinary64 = .ofInt x := by
  cases a with
  | float => cases h
  | uint => cases h; rfl
  | int => cases h; rfl

/-- The integers of 64 bits are far below the limit of floating point. -/
theorem natAbs_lt_limit (h : a.integer? = some x) : x.natAbs < Binary64.limit := by
  refine Binary64.lt_limit_of_le ?_
  cases a with
  | float => cases h
  | uint n =>
    cases h
    have hsize : n.toNat < 2 ^ 64 := n.toNat_lt_size
    omega
  | int n =>
    cases h
    have hlow : (-(2 ^ 63) : Int) ≤ n.toInt := n.minValue_le_toInt
    have hhigh : n.toInt ≤ (2 ^ 63 - 1 : Int) := n.toInt_le
    omega

theorem isNaN_of_integer? (h : a.integer? = some x) : a.toBinary64.isNaN = false := by
  rw [toBinary64_of_integer? h]
  exact Binary64.isNaN_of_isFinite (Binary64.isFinite_ofInt (natAbs_lt_limit h))

end TypedTemplate.Number
