import Mathlib.Algebra.Order.Ring.Int
import TypedTemplate.Helper.Catalogue
import TypedTemplate.Proofs.Number.Display
import TypedTemplate.Proofs.Number.Rounding

/-!
# Arithmetic on integers

A helper computes with signed integers of 64 bits as long as operands and result fit, and with
floating point otherwise. So the exact result comes back if it and the operands fit, or if floating
point arrives at it within `2⁵³`, and in no other case.

* `Binary64.IsInteger`: a floating point number that is an integer; the operations are exact on
  such numbers up to `2⁵³`, in `Binary64.IsInteger.add` and so on.
* `Number.integer?_normalize_float`: which floating point numbers become integers.
* `Helper.Operation.Exact`: the exact result of an operation, where it is an integer.
* **`Helper.Operation.apply_eq_iff`**: when an operation gives the exact result.
* **`arithmetic_exact`**: the helpers for arithmetic.
-/

namespace TypedTemplate

namespace Binary64

variable {f g : Binary64} {x y z : Int}

/-! ## Integers in floating point -/

/-- **The number is the integer.** -/
structure IsInteger (f : Binary64) (z : Int) : Prop where
  finite : f.isFinite = true
  units_eq : f.units = z * unitsPerOne

namespace IsInteger

theorem isNaN (h : f.IsInteger z) : f.isNaN = false := isNaN_of_isFinite h.finite

theorem isInfinite (h : f.IsInteger z) : f.isInfinite = false := isInfinite_of_isFinite h.finite

theorem magnitude_eq (h : f.IsInteger z) : f.magnitude = z.natAbs * unitsPerOne := by
  rw [← natAbs_units, h.units_eq, Int.natAbs_mul, Int.natAbs_natCast]

theorem magnitude_eq_zero (h : f.IsInteger z) : f.magnitude = 0 ↔ z = 0 := by
  have hone := unitsPerOne_pos
  rw [h.magnitude_eq, Nat.mul_eq_zero, Int.natAbs_eq_zero]
  omega

/-- The sign of an integer other than zero is that of its number. -/
theorem isNegative_eq (h : f.IsInteger z) (hz : z ≠ 0) : f.isNegative = decide (z < 0) := by
  have hone : (0 : Int) < unitsPerOne := Int.natCast_pos.mpr unitsPerOne_pos
  have hsign := h.units_eq
  unfold units at hsign
  split at hsign
  · next hneg =>
    have : z * (unitsPerOne : Int) ≤ 0 := by omega
    have := nonpos_of_mul_nonpos_left this hone
    rw [hneg]
    exact (decide_eq_true (by omega)).symm
  · next hpos =>
    have : 0 ≤ z * (unitsPerOne : Int) := by omega
    have := nonneg_of_mul_nonneg_left this hone
    rw [Bool.not_eq_true] at hpos
    rw [hpos]
    exact (decide_eq_false (by omega)).symm

end IsInteger

theorem isInteger_ofInt (h : z.natAbs ≤ 2 ^ 53) : (ofInt z).IsInteger z where
  finite := isFinite_ofInt (lt_limit_of_le (by omega))
  units_eq := units_ofInt_of_small h

/-- A ratio that is an integer up to `2⁵³` is rounded to it. -/
theorem isInteger_ofUnits {negative : Bool} {num den : Nat} (hden : 0 < den)
    (hz : z.natAbs ≤ 2 ^ 53) (hnum : num = z.natAbs * unitsPerOne * den)
    (hsign : z ≠ 0 → negative = decide (z < 0)) : (ofUnits negative num den).IsInteger z := by
  subst hnum
  constructor
  · refine ofUnits_isFinite negative hden (Nat.mul_lt_mul_of_pos_right ?_ hden)
    exact units_lt_overflow (lt_limit_of_le (by omega))
  · exact units_ofUnits_of_whole hden hz hsign

/-! ## Operations -/

theorem neg_fields (f : Binary64) :
    f.neg.isNegative = !f.isNegative ∧ f.neg.exponentField = f.exponentField ∧
      f.neg.fraction = f.fraction := by
  have hlow : f.word % 2 ^ 63 < 2 ^ 63 := Nat.mod_lt _ (by decide)
  refine ⟨isNegative_ofWord _ hlow, ?_, ?_⟩
  · refine (exponentField_ofWord _ hlow).trans ?_
    show f.word % 2 ^ 63 / 2 ^ 52 = f.word / 2 ^ 52 % 2 ^ 11
    omega
  · refine (fraction_ofWord _ hlow).trans ?_
    show f.word % 2 ^ 63 % 2 ^ 52 = f.word % 2 ^ 52
    omega

namespace IsInteger

theorem neg (h : f.IsInteger z) : f.neg.IsInteger (-z) := by
  obtain ⟨hnegative, hfield, hfraction⟩ := f.neg_fields
  have hmagnitude : f.neg.magnitude = f.magnitude := by
    unfold magnitude significand shift
    rw [hfield, hfraction]
  constructor
  · unfold isFinite
    rw [hfield]
    exact h.finite
  · have hunits := h.units_eq
    unfold units at hunits ⊢
    rw [hnegative, hmagnitude, Int.neg_mul, ← hunits]
    cases f.isNegative <;> simp

theorem add (hx : f.IsInteger x) (hy : g.IsInteger y) (hz : (x + y).natAbs ≤ 2 ^ 53) :
    (f.add g).IsInteger (x + y) := by
  have hone : (0 : Int) < unitsPerOne := Int.natCast_pos.mpr unitsPerOne_pos
  have hsum : f.units + g.units = (x + y) * unitsPerOne := by
    rw [hx.units_eq, hy.units_eq, Int.add_mul]
  have hadd : f.add g = ofUnits (if f.units + g.units = 0 then f.isNegative && g.isNegative
      else f.units + g.units < 0) (f.units + g.units).natAbs 1 := by
    unfold Binary64.add
    rw [hx.isNaN, hy.isNaN, hx.isInfinite, hy.isInfinite]
    rfl
  rw [hadd, hsum]
  refine isInteger_ofUnits Nat.one_pos hz ?_ fun hne => ?_
  · rw [Int.natAbs_mul, Int.natAbs_natCast, Nat.mul_one]
  · rw [if_neg (Int.mul_ne_zero hne hone.ne')]
    refine decide_eq_decide.mpr ⟨fun h => neg_of_mul_neg_left h hone.le, fun h => ?_⟩
    exact mul_neg_of_neg_of_pos h hone

theorem sub (hx : f.IsInteger x) (hy : g.IsInteger y) (hz : (x - y).natAbs ≤ 2 ^ 53) :
    (f.sub g).IsInteger (x - y) :=
  hx.add hy.neg hz

/-- The sign of a product. -/
theorem bne_decide_neg (hx : x ≠ 0) (hy : y ≠ 0) :
    (decide (x < 0) != decide (y < 0)) = decide (x * y < 0) := by
  rcases lt_or_gt_of_ne hx with hneg | hpos
  · rcases lt_or_gt_of_ne hy with hneg' | hpos'
    · simp [hneg, hneg', lt_asymm (mul_pos_of_neg_of_neg hneg hneg')]
    · simp [hneg, lt_asymm hpos', mul_neg_of_neg_of_pos hneg hpos']
  · rcases lt_or_gt_of_ne hy with hneg' | hpos'
    · simp [lt_asymm hpos, hneg', mul_neg_of_pos_of_neg hpos hneg']
    · simp [lt_asymm hpos, lt_asymm hpos', lt_asymm (mul_pos hpos hpos')]

theorem mul (hx : f.IsInteger x) (hy : g.IsInteger y) (hz : (x * y).natAbs ≤ 2 ^ 53) :
    (f.mul g).IsInteger (x * y) := by
  have hmul : f.mul g = ofUnits (f.isNegative != g.isNegative) (f.magnitude * g.magnitude)
      unitsPerOne := by
    unfold Binary64.mul
    rw [hx.isNaN, hy.isNaN, hx.isInfinite, hy.isInfinite]
    rfl
  rw [hmul]
  refine isInteger_ofUnits unitsPerOne_pos hz ?_ fun hne => ?_
  · rw [hx.magnitude_eq, hy.magnitude_eq, Int.natAbs_mul]
    ring
  · obtain ⟨hx', hy'⟩ := Int.mul_ne_zero_iff.mp hne
    rw [hx.isNegative_eq hx', hy.isNegative_eq hy']
    exact bne_decide_neg hx' hy'

theorem div (hx : f.IsInteger (z * y)) (hy : g.IsInteger y) (hy' : y ≠ 0)
    (hz : z.natAbs ≤ 2 ^ 53) : (f.div g).IsInteger z := by
  have hmagnitude : g.magnitude ≠ 0 := mt hy.magnitude_eq_zero.mp hy'
  have hdiv : f.div g = ofUnits (f.isNegative != g.isNegative) (f.magnitude * unitsPerOne)
      g.magnitude := by
    unfold Binary64.div
    rw [hx.isNaN, hy.isNaN, hx.isInfinite, hy.isInfinite]
    simp only [Bool.or_self, Bool.false_eq_true, if_false, if_neg hmagnitude]
  rw [hdiv]
  refine isInteger_ofUnits (Nat.pos_of_ne_zero hmagnitude) hz ?_ fun hne => ?_
  · rw [hx.magnitude_eq, hy.magnitude_eq, Int.natAbs_mul]
    ring
  · rw [hx.isNegative_eq (Int.mul_ne_zero hne hy'), hy.isNegative_eq hy',
      ← bne_decide_neg hne hy', Bool.bne_assoc, bne_self_eq_false, Bool.bne_false]

theorem rem (hx : f.IsInteger x) (hy : g.IsInteger y) (hy' : y ≠ 0)
    (hz : (x.tmod y).natAbs ≤ 2 ^ 53) : (f.rem g).IsInteger (x.tmod y) := by
  have hmagnitude : g.magnitude ≠ 0 := mt hy.magnitude_eq_zero.mp hy'
  have hrem : f.rem g = ofUnits f.isNegative (f.magnitude % g.magnitude) 1 := by
    unfold Binary64.rem
    rw [hx.isNaN, hy.isNaN, hx.isInfinite, hy.isInfinite]
    simp only [Bool.or_self, Bool.false_eq_true, if_false, hmagnitude,
      decide_false]
  rw [hrem]
  refine isInteger_ofUnits Nat.one_pos hz ?_ fun hne => ?_
  · rw [hx.magnitude_eq, hy.magnitude_eq, Nat.mul_mod_mul_right, Int.natAbs_tmod, Nat.mul_one]
  · have hx' : x ≠ 0 := by
      rintro rfl
      exact hne (Int.zero_tmod y)
    rw [hx.isNegative_eq hx']
    rcases lt_or_gt_of_ne hx' with hneg | hpos
    · have := Int.tmod_nonneg y (Int.neg_nonneg_of_nonpos hneg.le)
      rw [Int.neg_tmod] at this
      simp only [hneg, decide_true, decide_eq_true (show x.tmod y < 0 by omega)]
    · have := Int.tmod_nonneg y hpos.le
      simp only [decide_eq_false (show ¬x < 0 by omega),
        decide_eq_false (show ¬x.tmod y < 0 by omega)]

end IsInteger

end Binary64

namespace Number

variable {a b : Number} {f : Binary64} {x y z : Int}

/-! ## Whole numbers as integers -/

/-- A number within the exact range is an integer up to `2⁵³`. -/
theorem isSafeWhole_iff : isSafeWhole f = true ↔ ∃ z, f.IsInteger z ∧ z.natAbs ≤ 2 ^ 53 := by
  have hone := Binary64.unitsPerOne_pos
  unfold isSafeWhole Binary64.isWhole
  simp only [Bool.and_eq_true, decide_eq_true_eq, Nat.pow_eq]
  constructor
  · rintro ⟨⟨hfinite, hwhole⟩, hsize⟩
    rw [← f.natAbs_units] at hwhole hsize
    have hdvd : (Binary64.unitsPerOne : Int) ∣ f.units :=
      Int.natCast_dvd.mpr (Nat.dvd_of_mod_eq_zero hwhole)
    obtain ⟨z, hz⟩ := hdvd
    rw [Int.mul_comm] at hz
    refine ⟨z, ⟨hfinite, hz⟩, ?_⟩
    rwa [hz, Int.natAbs_mul, Int.natAbs_natCast, Nat.mul_le_mul_right_iff hone] at hsize
  · rintro ⟨z, hz, hsize⟩
    rw [hz.magnitude_eq]
    exact ⟨⟨hz.finite, Nat.mul_mod_left _ _⟩, Nat.mul_le_mul_right _ hsize⟩

/-- **Which floating point numbers become integers**, and which ones. -/
theorem integer?_normalize_float :
    (float f).normalize.integer? = some z ↔ f.IsInteger z ∧ z.natAbs ≤ 2 ^ 53 := by
  have hone : (0 : Int) < Binary64.unitsPerOne := Int.natCast_pos.mpr Binary64.unitsPerOne_pos
  by_cases hsafe : isSafeWhole f = true
  · obtain ⟨k, hk, hsize⟩ := isSafeWhole_iff.mp hsafe
    have hvalue : f.truncate = k := by
      unfold Binary64.truncate
      rw [hk.units_eq, Int.mul_tdiv_cancel _ hone.ne']
    have hnormal : (float f).normalize.integer? = some k := by
      simp only [normalize, hsafe, if_true, hvalue]
      split
      · next hsign =>
        rw [hk.units_eq] at hsign
        have := nonneg_of_mul_nonneg_left hsign hone
        have hfits : k.toNat < UInt64.size := by
          show k.toNat < 2 ^ 64
          omega
        show some ((UInt64.ofNat k.toNat).toNat : Int) = some k
        rw [UInt64.toNat_ofNat_of_lt' hfits, Int.toNat_of_nonneg this]
      · show some (Int64.ofInt k).toInt = some k
        rw [Int64.toInt_ofInt_of_le (by omega) (by omega)]
    rw [hnormal, Option.some.injEq]
    constructor
    · rintro rfl
      exact ⟨hk, hsize⟩
    · rintro ⟨hz, -⟩
      exact Int.eq_of_mul_eq_mul_right hone.ne' (hk.units_eq.symm.trans hz.units_eq)
  · have hnormal : (float f).normalize.integer? = none := by
      simp only [normalize, hsafe, Bool.false_eq_true, if_false]
      rfl
    rw [hnormal]
    exact iff_of_false nofun fun h => hsafe (isSafeWhole_iff.mpr ⟨z, h⟩)

theorem isSigned64_iff : isSigned64 x = true ↔ -2 ^ 63 ≤ x ∧ x < 2 ^ 63 := by
  unfold isSigned64
  rw [Bool.and_eq_true, decide_eq_true_eq, decide_eq_true_eq]
  show (-(2 ^ 63) : Int) ≤ x ∧ x ≤ (2 ^ 63 - 1 : Int) ↔ _
  omega

/-- **Which integers are signed integers of 64 bits.** -/
theorem toInt64?_of_integer? (h : a.integer? = some x) :
    a.toInt64? = if isSigned64 x then some (Int64.ofInt x) else none := by
  cases a with
  | float => cases h
  | uint n =>
    cases h
    have hbits : Int64.ofInt n.toNat = n.toInt64 := by
      refine Int64.toBitVec_inj.mp ?_
      rw [Int64.toBitVec_ofInt, UInt64.toBitVec_toInt64, BitVec.ofInt_natCast,
        ← UInt64.toNat_toBitVec, BitVec.ofNat_toNat, BitVec.setWidth_eq]
    rw [hbits]
    rfl
  | int n =>
    cases h
    have hsigned : isSigned64 n.toInt = true :=
      isSigned64_iff.mpr ⟨n.minValue_le_toInt, Int.lt_of_le_sub_one n.toInt_le⟩
    rw [if_pos hsigned, Int64.ofInt_toInt]
    rfl

/-- An integer is zero just if it is zero in floating point. -/
theorem isZero_iff (h : a.integer? = some x) : a.isZero = true ↔ x = 0 := by
  have hzero : (Binary64.zero false).IsInteger 0 :=
    ⟨Binary64.isFinite_zero false, by rw [Int.zero_mul]; decide⟩
  unfold isZero Binary64.equals
  rw [isNaN_of_integer? h, hzero.isNaN, hzero.units_eq, Int.zero_mul]
  simp only [Bool.not_false, Bool.true_and, decide_eq_true_eq, toBinary64_of_integer? h]
  constructor
  · intro hunits
    by_contra hne
    have hsame : (Binary64.ofInt 0).units = (Binary64.ofInt x).units := by
      rw [hunits, Binary64.units_ofInt_of_small (by decide), Int.zero_mul]
    have := Binary64.le_natAbs_of_units_eq (natAbs_lt_limit h) (Ne.symm hne) hsame
    omega
  · rintro rfl
    rw [Binary64.units_ofInt_of_small (by decide), Int.zero_mul]

end Number

namespace Helper.Operation

variable {op : Operation} {a b : Number} {f g : Binary64} {x y z : Int}

/-! ## The exact result -/

/-- **The exact result of an operation, where it is an integer**: the quotient if the divisor
divides, and the remainder with the sign of the dividend. -/
def Exact (op : Operation) (x y z : Int) : Prop :=
  match op with
  | .add => z = x + y
  | .subtract => z = x - y
  | .multiply => z = x * y
  | .divide => y ≠ 0 ∧ x = z * y
  | .mod => y ≠ 0 ∧ y ∣ x - z ∧ z.natAbs < y.natAbs ∧ (0 ≤ x → 0 ≤ z) ∧ (x ≤ 0 → z ≤ 0)

/-- The remainder is what the exact one must be. -/
theorem tmod_of_exact (h : Exact .mod x y z) : x.tmod y = z := by
  obtain ⟨hy, ⟨k, hk⟩, hsize, hpos, hneg⟩ := h
  rcases Int.le_total 0 x with hx | hx
  · have := hpos hx
    exact ((Int.tdiv_tmod_unique (q := k) hx hy).mpr ⟨by omega, this, by omega⟩).2
  · have := hneg hx
    exact ((Int.tdiv_tmod_unique' (q := k) hx hy).mpr ⟨by omega, by omega, this⟩).2

/-- The operation on integers gives the exact result. -/
theorem onIntegers?_of_exact (h : op.Exact x y z) : op.onIntegers? x y = some z := by
  cases op with
  | add => exact congrArg some (Eq.symm h)
  | subtract => exact congrArg some (Eq.symm h)
  | multiply => exact congrArg some (Eq.symm h)
  | divide =>
    obtain ⟨hy, rfl⟩ := h
    unfold onIntegers?
    rw [if_pos (Int.mul_tmod_left z y), Int.mul_tdiv_cancel z hy]
  | mod => exact congrArg some (tmod_of_exact h)

theorem ne_zero_of_exact (h : op.Exact x y z) (hop : op.divides = true) : y ≠ 0 := by
  cases op with
  | divide | mod => exact h.1
  | _ => cases hop

/-- **Floating point is exact up to `2⁵³`.** -/
theorem isInteger_onFloats (h : op.Exact x y z) (hz : z.natAbs ≤ 2 ^ 53) (hf : f.IsInteger x)
    (hg : g.IsInteger y) : (op.onFloats f g).IsInteger z := by
  cases op with
  | add =>
    cases h
    exact hf.add hg hz
  | subtract =>
    cases h
    exact hf.sub hg hz
  | multiply =>
    cases h
    exact hf.mul hg hz
  | divide =>
    obtain ⟨hy, rfl⟩ := h
    exact hf.div hg hy hz
  | mod =>
    obtain rfl := tmod_of_exact h
    exact hf.rem hg h.1 hz

/-! ## When it is given -/

/-- **When an operation gives the exact result**: it and the operands are signed integers of 64
bits, or floating point arrives at it within `2⁵³`. -/
def Reaches (op : Operation) (x y z : Int) : Prop :=
  (Number.isSigned64 x ∧ Number.isSigned64 y ∧ Number.isSigned64 z) ∨
    (z.natAbs ≤ 2 ^ 53 ∧ (op.onFloats (.ofInt x) (.ofInt y)).IsInteger z)

/-- Floating point arrives at a result up to `2⁵³` if the operands are exact. -/
theorem reaches_of_isInteger (h : op.Exact x y z) (hz : z.natAbs ≤ 2 ^ 53)
    (hx : (Binary64.ofInt x).IsInteger x) (hy : (Binary64.ofInt y).IsInteger y) :
    op.Reaches x y z :=
  .inr ⟨hz, isInteger_onFloats h hz hx hy⟩

/-- The signed integers are divided with a quotient that fits, unless the result is zero or does not
fit itself. -/
theorem overflows_eq_true (h : op.Exact x y z) (hover : op.overflows x y = true) :
    x = -2 ^ 63 ∧ y = -1 ∧ (Number.isSigned64 z → op = .mod ∧ z = 0) := by
  simp only [overflows, Bool.and_eq_true, decide_eq_true_eq] at hover
  obtain ⟨⟨hop, hx⟩, rfl⟩ := hover
  replace hx : x = -2 ^ 63 := hx
  refine ⟨hx, rfl, fun hz => ?_⟩
  cases op with
  | divide =>
    obtain ⟨-, hquotient⟩ := h
    have := Number.isSigned64_iff.mp hz
    omega
  | mod =>
    obtain ⟨-, -, hsize, -⟩ := h
    exact ⟨rfl, by omega⟩
  | _ => cases hop

/-- **The exact operation on signed integers**, for a result that is an integer. -/
theorem onNumbers?_eq (ha : a.integer? = some x) (hb : b.integer? = some y)
    (h : op.Exact x y z) :
    op.onNumbers? a b =
      if Number.isSigned64 x ∧ Number.isSigned64 y ∧ Number.isSigned64 z ∧ op.overflows x y = false
      then some (.ofInt64 (.ofInt z)) else none := by
  unfold onNumbers?
  rw [Number.toInt64?_of_integer? ha, Number.toInt64?_of_integer? hb]
  by_cases hx : Number.isSigned64 x = true
  · by_cases hy : Number.isSigned64 y = true
    · have hx' := Number.isSigned64_iff.mp hx
      have hy' := Number.isSigned64_iff.mp hy
      simp only [hx, hy, if_true, true_and, Int64.toInt_ofInt_of_le hx'.1 hx'.2,
        Int64.toInt_ofInt_of_le hy'.1 hy'.2, onIntegers?_of_exact h]
      cases op.overflows x y <;> simp
    · simp [hx, hy]
  · simp [hx]

/-- The least signed integer is a power of two. -/
theorem isInteger_least : (Binary64.ofInt (-2 ^ 63)).IsInteger (-2 ^ 63) :=
  ⟨by decide +kernel, by decide +kernel⟩

/-- What is not computed on signed integers is computed in floating point. -/
theorem apply_of_onNumbers?_eq_none (hdefined : (op.divides && b.isZero) = false)
    (hnone : op.onNumbers? a b = none) :
    op.apply a b = numberValue (.float (op.onFloats a.toBinary64 b.toBinary64)) := by
  unfold apply
  rw [hdefined, hnone]
  rfl

/-- **When the exact result comes back.** -/
theorem apply_eq_iff (ha : a.integer? = some x) (hb : b.integer? = some y) (h : op.Exact x y z) :
    (∃ n, op.apply a b = .number n ∧ n.integer? = some z) ↔ op.Reaches x y z := by
  have hdefined : (op.divides && b.isZero) = false := by
    cases hop : op.divides with
    | false => rfl
    | true => simpa using mt (Number.isZero_iff hb).mp (ne_zero_of_exact h hop)
  have honNumbers := onNumbers?_eq ha hb h
  by_cases hfits : Number.isSigned64 x ∧ Number.isSigned64 y ∧ Number.isSigned64 z ∧
      op.overflows x y = false
  · rw [if_pos hfits] at honNumbers
    have happly : op.apply a b = .number (.ofInt64 (.ofInt z)) := by
      unfold apply
      rw [hdefined, honNumbers]
      rfl
    obtain ⟨hx, hy, hz, -⟩ := hfits
    have hz' := Number.isSigned64_iff.mp hz
    refine iff_of_true ⟨_, happly, ?_⟩ (.inl ⟨hx, hy, hz⟩)
    rw [Number.integer?_ofInt64, Int64.toInt_ofInt_of_le hz'.1 hz'.2]
  · rw [if_neg hfits] at honNumbers
    have hfloats : (∃ n, op.apply a b = .number n ∧ n.integer? = some z) ↔
        (op.onFloats (.ofInt x) (.ofInt y)).IsInteger z ∧ z.natAbs ≤ 2 ^ 53 := by
      rw [← Number.integer?_normalize_float, apply_of_onNumbers?_eq_none hdefined honNumbers,
        Number.toBinary64_of_integer? ha, Number.toBinary64_of_integer? hb]
      simp [numberValue]
    rw [hfloats]
    constructor
    · rintro ⟨hresult, hsize⟩
      exact .inr ⟨hsize, hresult⟩
    · rintro (⟨hx, hy, hz⟩ | ⟨hsize, hresult⟩)
      · -- the operands fit and yet are not divided: the one quotient that does not fit
        have hover : op.overflows x y = true := by
          simpa [hx, hy, hz] using hfits
        obtain ⟨rfl, rfl, hmod⟩ := overflows_eq_true h hover
        obtain ⟨rfl, rfl⟩ := hmod hz
        have hone : (Binary64.ofInt (-1)).IsInteger (-1) := Binary64.isInteger_ofInt (by decide)
        exact ⟨isInteger_onFloats h (by decide) isInteger_least hone, by decide⟩
      · exact ⟨hresult, hsize⟩

/-- **Only a division by zero has no result**, in whatever form the divisor is. -/
theorem apply_eq_undefined_iff_isZero :
    op.apply a b = .undefined ↔ op.divides = true ∧ b.isZero = true := by
  rw [← Bool.and_eq_true]
  unfold apply
  by_cases hzero : (op.divides && b.isZero) = true
  · rw [if_pos hzero]
    exact iff_of_true rfl hzero
  · rw [if_neg hzero]
    refine iff_of_false ?_ hzero
    cases op.onNumbers? a b <;> exact nofun

theorem apply_eq_undefined_iff (hb : b.integer? = some y) :
    op.apply a b = .undefined ↔ op.divides = true ∧ y = 0 := by
  rw [apply_eq_undefined_iff_isZero, Number.isZero_iff hb]

theorem divides_eq_true : op.divides = true ↔ op = .divide ∨ op = .mod := by
  cases op <;> simp [divides]

/-- What an operation gives is a number, if anything. -/
theorem exists_number_of_apply (h : op.apply a b ≠ .undefined) :
    ∃ n, op.apply a b = .number n := by
  unfold apply at h ⊢
  split at h
  · exact absurd rfl h
  · next hzero =>
    rw [if_neg hzero]
    cases op.onNumbers? a b with
    | some n => exact ⟨n, rfl⟩
    | none => exact ⟨_, rfl⟩

theorem get?_builtins (op : Operation) :
    Dict.get? op.name HelperSet.builtins = some op.helper := by
  cases op <;> rfl

end Helper.Operation

/-! ## The helpers -/

open Helper in
/-- **Arithmetic on integers is exact where it reaches.** A helper for arithmetic has no result on
two integers just if it divides by zero, and otherwise gives a number. That is the exact result,
where there is an integer that is, just if it and the operands are signed integers of 64 bits, or
floating point arrives at it within `2⁵³`; which it does if the operands are exact. -/
theorem arithmetic_exact (op : Operation) {a b : Number} {x y : Int} (ha : a.integer? = some x)
    (hb : b.integer? = some y) (named : Dict Value) :
    ∃ v, (Dict.get? op.name HelperSet.builtins).map
        (·.call [.number a, .number b] named) = some (.ok v) ∧
      (v = .undefined ↔ (op = .divide ∨ op = .mod) ∧ y = 0) ∧
      (v ≠ .undefined → ∃ n, v = .number n) ∧
      ∀ z, op.Exact x y z →
        ((∃ n, v = .number n ∧ n.integer? = some z) ↔
          (Number.isSigned64 x ∧ Number.isSigned64 y ∧ Number.isSigned64 z) ∨
            (z.natAbs ≤ 2 ^ 53 ∧ (op.onFloats (.ofInt x) (.ofInt y)).IsInteger z)) ∧
        (z.natAbs ≤ 2 ^ 53 → (Binary64.ofInt x).IsInteger x → (Binary64.ofInt y).IsInteger y →
          ∃ n, v = .number n ∧ n.integer? = some z) := by
  refine ⟨op.apply a b, ?_, ?_, Operation.exists_number_of_apply, fun z hz => ⟨?_, ?_⟩⟩
  · rw [op.get?_builtins]
    rfl
  · rw [Operation.apply_eq_undefined_iff hb, Operation.divides_eq_true]
  · exact Operation.apply_eq_iff ha hb hz
  · intro hsize hx hy
    exact (Operation.apply_eq_iff ha hb hz).mpr (Operation.reaches_of_isInteger hz hsize hx hy)

/-- Half of `2⁶⁴` divided by `2⁶²` is two, though it is no signed integer. -/
theorem arithmetic_exact_of_half :
    ∃ v, (Dict.get? "divide" HelperSet.builtins).map
        (·.call [.number (.uint 9223372036854775808), .number (.uint 4611686018427387904)] []) =
          some (.ok v) ∧
      ∃ n, v = .number n ∧ n.integer? = some 2 := by
  obtain ⟨v, hv, -, -, hexact⟩ := arithmetic_exact .divide (a := .uint 9223372036854775808)
    (b := .uint 4611686018427387904) rfl rfl []
  have hdivides : Helper.Operation.divide.Exact 9223372036854775808 4611686018427387904 2 :=
    ⟨by decide, by decide⟩
  have hx : (Binary64.ofInt 9223372036854775808).IsInteger 9223372036854775808 :=
    ⟨by decide +kernel, by decide +kernel⟩
  have hy : (Binary64.ofInt 4611686018427387904).IsInteger 4611686018427387904 :=
    ⟨by decide +kernel, by decide +kernel⟩
  exact ⟨v, hv, (hexact 2 hdivides).2 (by decide) hx hy⟩

open Helper in
/-- So arithmetic on integers is not exact wherever the exact result is an integer of 64 bits. Half
of `2⁶⁴` and zero have a sum that is no integer, and the rest of the greatest integer by ten is an
integer other than the exact one. -/
theorem not_arithmetic_exact :
    (Operation.add.Exact 9223372036854775808 0 9223372036854775808 ∧
      Operation.add.apply (.uint 9223372036854775808) (.uint 0) =
        .number (.float ⟨0x43e0000000000000⟩)) ∧
      (Operation.mod.Exact 18446744073709551615 10 5 ∧
        Operation.mod.apply (.uint 18446744073709551615) (.uint 10) = .number (.uint 6)) ∧
      ¬(∀ (op : Operation) (a b : Number) (x y z : Int), a.integer? = some x →
        b.integer? = some y → op.Exact x y z → -2 ^ 63 ≤ z → z ≤ 2 ^ 64 - 1 →
          ∃ n, op.apply a b = .number n ∧ n.integer? = some z) := by
  have hrest : Operation.mod.Exact 18446744073709551615 10 5 := by
    refine ⟨by decide, by decide, by decide, by decide, by decide⟩
  have hmod : Operation.mod.apply (.uint 18446744073709551615) (.uint 10) =
      .number (.uint 6) := by
    rw [Operation.apply_of_onNumbers?_eq_none (by decide +kernel) (by decide +kernel)]
    exact congrArg Value.number (by decide +kernel)
  have hadd : Operation.add.apply (.uint 9223372036854775808) (.uint 0) =
      .number (.float ⟨0x43e0000000000000⟩) := by
    rw [Operation.apply_of_onNumbers?_eq_none (by decide +kernel) (by decide +kernel)]
    exact congrArg Value.number (by decide +kernel)
  refine ⟨⟨rfl, hadd⟩, ⟨hrest, hmod⟩, fun h => ?_⟩
  · obtain ⟨n, hn, hvalue⟩ := h .mod (.uint 18446744073709551615) (.uint 10) _ _ _ rfl rfl hrest
      (by decide) (by decide)
    rw [hmod] at hn
    cases hn
    cases hvalue

end TypedTemplate
