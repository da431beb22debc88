import TypedTemplate.Helper.Catalogue
import TypedTemplate.Proofs.Number.Rounding

/-!
# Comparing numbers

Two integers of one form are ordered exactly, and every other two numbers as floating point. Any two
integers are equal if they are the same, and an integer equals a floating point number if that is
the nearest one. Since rounding keeps the order, the two fit together, except for different integers
with the same nearest floating point number: in two forms these are neither equal nor ordered, and
both equal the floating point number between them.

* `Number.SameForm`, `Number.Merged`, `Number.Confused`: integers of one form, different integers
  that are rounded to the same number, and such integers of two forms.
* `Number.lt_iff_of_sameForm`, `Number.lt_iff_units`: the two ways of ordering.
* **`Number.lt_trans`**: the order is transitive.
* `Number.equals_iff`, `Number.equals_trans_iff`: equality, and where it is transitive.
* `Number.Lies`, **`Number.exists_order`**: of two numbers that are not confused, one is less or they
  are equal.
* **`comparison_coherent`**: numbers, and the helpers that compare them.
-/

namespace TypedTemplate

namespace Number

/-! ## Values -/

/-- The order of the values is decided, and the first is less. -/
def lt (a b : Number) : Bool := a.compare? b = some .lt

/-- Two integers of one form. -/
inductive SameForm : Number → Number → Prop where
  | uint (m n : UInt64) : SameForm (.uint m) (.uint n)
  | int (m n : Int64) : SameForm (.int m) (.int n)

/-- **Different integers with the same nearest floating point number.** -/
def Merged (a b : Number) : Prop :=
  ∃ x y, a.integer? = some x ∧ b.integer? = some y ∧ x ≠ y ∧
    a.toBinary64.units = b.toBinary64.units

/-- **Merged integers of two forms**, which the order takes for the same and equality does not. -/
def Confused (a b : Number) : Prop := Merged a b ∧ ¬SameForm a b

variable {a b c : Number} {x y : Int}

/-- Integers keep their order in floating point. -/
theorem units_le_of_le (hx : a.integer? = some x) (hy : b.integer? = some y) (h : x ≤ y) :
    a.toBinary64.units ≤ b.toBinary64.units := by
  rw [toBinary64_of_integer? hx, toBinary64_of_integer? hy]
  exact Binary64.units_ofInt_le h (natAbs_lt_limit hx) (natAbs_lt_limit hy)

/-! ## Integers of one form -/

namespace SameForm

theorem symm (h : SameForm a b) : SameForm b a := by
  cases h with
  | uint m n => exact .uint n m
  | int m n => exact .int n m

theorem trans (h : SameForm a b) (h' : SameForm b c) : SameForm a c := by
  cases h with
  | uint m => cases h' with | uint _ n => exact .uint m n
  | int m => cases h' with | int _ n => exact .int m n

theorem exists_integers (h : SameForm a b) :
    ∃ x y, a.integer? = some x ∧ b.integer? = some y := by
  cases h with
  | uint m n => exact ⟨_, _, rfl, rfl⟩
  | int m n => exact ⟨_, _, rfl, rfl⟩

theorem compare?_eq (h : SameForm a b) (hx : a.integer? = some x) (hy : b.integer? = some y) :
    a.compare? b = some (compareInt x y) := by
  cases h with
  | uint m n => cases hx; cases hy; rfl
  | int m n => cases hx; cases hy; rfl

end SameForm

/-! ## The order -/

theorem compareInt_eq_lt : compareInt x y = .lt ↔ x < y := by
  unfold compareInt
  split
  · simp [*]
  · split <;> simp [*]

theorem compareInt_eq_eq : compareInt x y = .eq ↔ x = y := by
  unfold compareInt
  split
  · simp; omega
  · split <;> simp [*]

theorem compareInt_swap (x y : Int) : compareInt y x = (compareInt x y).swap := by
  unfold compareInt
  rcases Int.lt_trichotomy x y with hlt | rfl | hgt
  · rw [if_neg (by omega), if_neg (by omega), if_pos hlt]
    rfl
  · simp
  · rw [if_pos hgt, if_neg (by omega), if_neg (by omega)]
    rfl

/-- Numbers that are no two integers of one form are ordered as floating point. -/
theorem compare?_of_not_sameForm (h : ¬SameForm a b) (ha : a.toBinary64.isNaN = false)
    (hb : b.toBinary64.isNaN = false) :
    a.compare? b = some (compareInt a.toBinary64.units b.toBinary64.units) := by
  have hfloats : a.compare? b = a.toBinary64.compare? b.toBinary64 := by
    cases a with
    | float => rfl
    | uint m =>
      cases b with
      | uint n => exact absurd (.uint m n) h
      | _ => rfl
    | int m =>
      cases b with
      | int n => exact absurd (.int m n) h
      | _ => rfl
  rw [hfloats]
  unfold Binary64.compare? compareInt
  simp only [ha, hb, Bool.or_self, Bool.false_eq_true, if_false]
  split
  · rfl
  · split <;> rfl

/-- Two numbers are ordered, the second and the first the other way round. -/
theorem exists_compare? (ha : a.toBinary64.isNaN = false) (hb : b.toBinary64.isNaN = false) :
    ∃ o, a.compare? b = some o ∧ b.compare? a = some o.swap := by
  by_cases hform : SameForm a b
  · obtain ⟨x, y, hx, hy⟩ := hform.exists_integers
    exact ⟨_, hform.compare?_eq hx hy, compareInt_swap x y ▸ hform.symm.compare?_eq hy hx⟩
  · have hback : ¬SameForm b a := fun h => hform h.symm
    exact ⟨_, compare?_of_not_sameForm hform ha hb,
      compareInt_swap a.toBinary64.units _ ▸ compare?_of_not_sameForm hback hb ha⟩

theorem lt_iff_of_sameForm (h : SameForm a b) (hx : a.integer? = some x)
    (hy : b.integer? = some y) : a.lt b = true ↔ x < y := by
  unfold lt
  rw [h.compare?_eq hx hy]
  simpa using compareInt_eq_lt

theorem lt_iff_units (h : ¬SameForm a b) (ha : a.toBinary64.isNaN = false)
    (hb : b.toBinary64.isNaN = false) :
    a.lt b = true ↔ a.toBinary64.units < b.toBinary64.units := by
  unfold lt
  rw [compare?_of_not_sameForm h ha hb]
  simpa using compareInt_eq_lt

/-- The lesser number is not the greater one in floating point. -/
theorem units_le_of_lt (ha : a.toBinary64.isNaN = false) (hb : b.toBinary64.isNaN = false)
    (h : a.lt b = true) : a.toBinary64.units ≤ b.toBinary64.units := by
  by_cases hform : SameForm a b
  · obtain ⟨x, y, hx, hy⟩ := hform.exists_integers
    exact units_le_of_le hx hy (Int.le_of_lt ((lt_iff_of_sameForm hform hx hy).mp h))
  · exact Int.le_of_lt ((lt_iff_units hform ha hb).mp h)

/-- A number that is less in floating point is less. -/
theorem lt_of_units_lt (ha : a.toBinary64.isNaN = false) (hb : b.toBinary64.isNaN = false)
    (h : a.toBinary64.units < b.toBinary64.units) : a.lt b = true := by
  by_cases hform : SameForm a b
  · obtain ⟨x, y, hx, hy⟩ := hform.exists_integers
    refine (lt_iff_of_sameForm hform hx hy).mpr (Int.not_le.mp fun hle => ?_)
    have := units_le_of_le hy hx hle
    omega
  · exact (lt_iff_units hform ha hb).mpr h

/-- **The order is transitive.** -/
theorem lt_trans (ha : a.toBinary64.isNaN = false) (hb : b.toBinary64.isNaN = false)
    (hc : c.toBinary64.isNaN = false) (hab : a.lt b = true) (hbc : b.lt c = true) :
    a.lt c = true := by
  have hle := units_le_of_lt ha hb hab
  have hle' := units_le_of_lt hb hc hbc
  by_cases hform : SameForm a b
  · by_cases hform' : SameForm b c
    · obtain ⟨x, y, hx, hy⟩ := hform.exists_integers
      obtain ⟨_, z, -, hz⟩ := hform'.exists_integers
      have hxy := (lt_iff_of_sameForm hform hx hy).mp hab
      have hyz := (lt_iff_of_sameForm hform' hy hz).mp hbc
      exact (lt_iff_of_sameForm (hform.trans hform') hx hz).mpr (by omega)
    · have hless := (lt_iff_units hform' hb hc).mp hbc
      exact lt_of_units_lt ha hc (by omega)
  · have hless := (lt_iff_units hform ha hb).mp hab
    exact lt_of_units_lt ha hc (by omega)

/-! ## Equality -/

theorem equals_iff_of_integers (hx : a.integer? = some x) (hy : b.integer? = some y) :
    a.equals b = true ↔ x = y := by
  unfold equals
  rw [hx, hy]
  simp

theorem equals_iff_units (h : a.integer? = none ∨ b.integer? = none)
    (ha : a.toBinary64.isNaN = false) (hb : b.toBinary64.isNaN = false) :
    a.equals b = true ↔ a.toBinary64.units = b.toBinary64.units := by
  have hfloats : a.equals b = a.toBinary64.equals b.toBinary64 := by
    unfold equals
    split
    · next hx hy => simp [hx, hy] at h
    · rfl
  rw [hfloats]
  unfold Binary64.equals
  simp [ha, hb]

/-- **Numbers are equal if floating point does not tell them apart**, unless they are merged. -/
theorem equals_iff (ha : a.toBinary64.isNaN = false) (hb : b.toBinary64.isNaN = false) :
    a.equals b = true ↔ a.toBinary64.units = b.toBinary64.units ∧ ¬Merged a b := by
  cases hx : a.integer? with
  | none =>
    rw [equals_iff_units (.inl hx) ha hb]
    refine (and_iff_left ?_).symm
    rintro ⟨_, _, h, -⟩
    rw [hx] at h
    cases h
  | some x =>
    cases hy : b.integer? with
    | none =>
      rw [equals_iff_units (.inr hy) ha hb]
      refine (and_iff_left ?_).symm
      rintro ⟨_, _, -, h, -⟩
      rw [hy] at h
      cases h
    | some y =>
      rw [equals_iff_of_integers hx hy]
      constructor
      · rintro rfl
        refine ⟨?_, ?_⟩
        · rw [toBinary64_of_integer? hx, toBinary64_of_integer? hy]
        · rintro ⟨_, _, hx', hy', hne, -⟩
          rw [hx] at hx'
          rw [hy] at hy'
          cases hx'
          cases hy'
          exact hne rfl
      · rintro ⟨hunits, hnot⟩
        by_contra hne
        exact hnot ⟨x, y, hx, hy, hne, hunits⟩

/-- Numbers that equal one number are equal, unless they are merged. -/
theorem equals_trans_iff (ha : a.toBinary64.isNaN = false) (hb : b.toBinary64.isNaN = false)
    (hc : c.toBinary64.isNaN = false) (hab : a.equals b = true) (hbc : b.equals c = true) :
    a.equals c = true ↔ ¬Merged a c := by
  rw [equals_iff ha hc]
  refine and_iff_right ?_
  exact ((equals_iff ha hb).mp hab).1.trans ((equals_iff hb hc).mp hbc).1

/-! ## Equality and the order -/

/-- Integers of one form are equal if neither is less. -/
theorem equals_iff_compare? (h : SameForm a b) : a.equals b = true ↔ a.compare? b = some .eq := by
  obtain ⟨x, y, hx, hy⟩ := h.exists_integers
  rw [equals_iff_of_integers hx hy, h.compare?_eq hx hy, Option.some.injEq, compareInt_eq_eq]

/-- **Numbers of which neither is less** are equal or confused. -/
theorem compare?_eq_eq_iff (ha : a.toBinary64.isNaN = false) (hb : b.toBinary64.isNaN = false) :
    a.compare? b = some .eq ↔ a.equals b = true ∨ Confused a b := by
  unfold Confused
  by_cases hform : SameForm a b
  · rw [← equals_iff_compare? hform]
    simp [hform]
  · rw [compare?_of_not_sameForm hform ha hb, Option.some.injEq, compareInt_eq_eq,
      equals_iff ha hb]
    constructor
    · intro hunits
      by_cases hmerged : Merged a b
      · exact .inr ⟨hmerged, hform⟩
      · exact .inl ⟨hunits, hmerged⟩
    · rintro (h | ⟨⟨_, _, -, -, -, hunits⟩, -⟩)
      · exact h.1
      · exact hunits

/-- **How two numbers lie in their order**: equal, confused, or one below the other. -/
inductive Lies (a b : Number) : Ordering → Prop where
  | equal (same : a.equals b = true) (clear : ¬Confused a b) : Lies a b .eq
  | confused (apart : a.equals b = false) (confused : Confused a b) : Lies a b .eq
  | ordered {o : Ordering} (strict : o ≠ .eq) (apart : a.equals b = false)
    (clear : ¬Confused a b) : Lies a b o

/-- **Of two numbers one is less, or they are equal**, unless they are confused. -/
theorem exists_order (ha : a.toBinary64.isNaN = false) (hb : b.toBinary64.isNaN = false) :
    ∃ o, a.compare? b = some o ∧ b.compare? a = some o.swap ∧ Lies a b o := by
  obtain ⟨o, ho, hback⟩ := exists_compare? ha hb
  refine ⟨o, ho, hback, ?_⟩
  have hequal := compare?_eq_eq_iff ha hb
  rw [ho, Option.some.injEq] at hequal
  by_cases heq : o = .eq
  · subst heq
    rcases hequal.mp rfl with hsame | hconfused
    · exact .equal hsame fun h => ((equals_iff ha hb).mp hsame).2 h.1
    · refine .confused (Bool.eq_false_iff.mpr fun hsame => ?_) hconfused
      exact ((equals_iff ha hb).mp hsame).2 hconfused.1
  · have hneither := mt hequal.mpr heq
    rw [not_or, Bool.not_eq_true] at hneither
    exact .ordered heq hneither.1 hneither.2

theorem lt_eq_decide {o : Ordering} (h : a.compare? b = some o) : a.lt b = decide (o = .lt) := by
  unfold lt
  rw [h]
  simp

/-- Exactly one of the three holds of two numbers that are not confused. -/
theorem Lies.count_eq_one_iff {o : Ordering} (h : Lies a b o) :
    [decide (o = .lt), a.equals b, decide (o = .gt)].count true = 1 ↔ ¬Confused a b := by
  cases h with
  | equal same clear => simp [same, clear]
  | confused apart confused => simp [apart, confused]
  | ordered strict apart clear => cases o <;> simp_all

/-! ## Confused integers -/

/-- One of two integers of different forms has no sign. -/
theorem nonneg_of_not_sameForm (h : ¬SameForm a b) (hx : a.integer? = some x)
    (hy : b.integer? = some y) : 0 ≤ x ∨ 0 ≤ y := by
  cases a with
  | float => cases hx
  | uint => cases hx; exact .inl (by omega)
  | int m =>
    cases b with
    | float => cases hy
    | uint => cases hy; exact .inr (by omega)
    | int n => exact absurd (.int m n) h

/-- The integers of a sign stay apart from those of the other one. -/
theorem nonneg_of_units_eq (hx : x.natAbs < Binary64.limit) (hy : y.natAbs < Binary64.limit)
    (h : (Binary64.ofInt x).units = (Binary64.ofInt y).units) (hnonneg : 0 ≤ x) : 0 ≤ y := by
  by_contra hneg
  have hone : (0 : Int) < Binary64.unitsPerOne := Int.natCast_pos.mpr Binary64.unitsPerOne_pos
  have hzero : (0 : Int).natAbs < Binary64.limit := Binary64.lt_limit_of_le (by decide)
  have hminus : (-1 : Int).natAbs < Binary64.limit := Binary64.lt_limit_of_le (by decide)
  have hle := Binary64.units_ofInt_le hnonneg hzero hx
  have hle' := Binary64.units_ofInt_le (m := y) (n := -1) (by omega) hy hminus
  rw [Binary64.units_ofInt_of_small (by decide)] at hle
  rw [Binary64.units_ofInt_of_small (n := -1) (by decide)] at hle'
  omega

/-- **Confused integers are large**, and neither is negative. -/
theorem Confused.le (h : Confused a b) :
    ∃ x y, a.integer? = some x ∧ b.integer? = some y ∧ 2 ^ 53 ≤ x ∧ 2 ^ 53 ≤ y := by
  obtain ⟨⟨x, y, hx, hy, hne, hunits⟩, hform⟩ := h
  rw [toBinary64_of_integer? hx, toBinary64_of_integer? hy] at hunits
  have hlimit := natAbs_lt_limit hx
  have hlimit' := natAbs_lt_limit hy
  have hlarge := Binary64.le_natAbs_of_units_eq hlimit' hne hunits
  have hlarge' := Binary64.le_natAbs_of_units_eq hlimit hne.symm hunits.symm
  have hsigns : 0 ≤ x ∧ 0 ≤ y := by
    rcases nonneg_of_not_sameForm hform hx hy with hnonneg | hnonneg
    · exact ⟨hnonneg, nonneg_of_units_eq hlimit hlimit' hunits hnonneg⟩
    · exact ⟨nonneg_of_units_eq hlimit' hlimit hunits.symm hnonneg, hnonneg⟩
  exact ⟨x, y, hx, hy, by omega, by omega⟩

end Number

/-! ## Helpers -/

namespace Helper.Comparison

theorem get?_builtins (k : Comparison) : Dict.get? k.name HelperSet.builtins = some k.helper := by
  cases k <;> rfl

/-- The verdict of a comparison on two numbers that lie in the given order. -/
def answer (k : Comparison) (a b : Number) (o : Ordering) : Bool :=
  match k with
  | .eq => a.equals b
  | .ne => !a.equals b
  | k => k.holds o

theorem call_numbers {a b : Number} {o : Ordering} (h : a.compare? b = some o) (k : Comparison)
    (named : Dict Value) :
    k.helper.call [.number a, .number b] named = .ok (.bool (k.answer a b o)) := by
  have hsame : same (.number a) (.number b) = a.equals b := by
    simp [same, Value.equals, Value.isNullish]
  have happly : k.apply (.number a) (.number b) = .ok (k.answer a b o) := by
    cases k with
    | eq => exact congrArg Except.ok hsame
    | ne => exact congrArg (fun x => Except.ok !x) hsame
    | _ => simp only [apply, h, answer]
  show (k.apply (.number a) (.number b)).map Value.bool = _
  rw [happly]
  rfl

/-- **The answers of the helpers fit together**, unless the numbers are confused. -/
theorem answer_coherent {a b : Number} {o : Ordering} (h : a.Lies b o) :
    [answer .eq a b o, answer .lt a b o, answer .gt a b o].count true ≤ 1 ∧
      ([answer .eq a b o, answer .lt a b o, answer .gt a b o].count true = 1 ↔
        ¬Number.Confused a b) ∧
      (answer .lte a b o = (answer .lt a b o || answer .eq a b o) ↔ ¬Number.Confused a b) ∧
      (answer .gte a b o = (answer .gt a b o || answer .eq a b o) ↔ ¬Number.Confused a b) := by
  cases h with
  | equal same clear => simp [answer, holds, same, clear]
  | confused apart confused => simp [answer, holds, apart, confused]
  | ordered strict apart clear =>
    cases o with
    | eq => exact absurd rfl strict
    | lt => simp [answer, holds, apart, clear]
    | gt => simp [answer, holds, apart, clear]

end Helper.Comparison

/-! ## Coherence -/

open Helper in
/-- **Comparison is coherent** among numbers that are no NaN, but for different integers with the
same nearest floating point number. The order is transitive. Two numbers are equal just if neither
is less, exactly one of the three holds of them, and the helpers say so, unless the two are
confused, which takes integers of at least `2⁵³`. Equality is transitive, unless the ends are
merged. -/
theorem comparison_coherent {a b c : Number} (ha : a.toBinary64.isNaN = false)
    (hb : b.toBinary64.isNaN = false) (hc : c.toBinary64.isNaN = false) :
    ((a.equals b = true ↔ a.compare? b = some .eq) ↔ ¬Number.Confused a b) ∧
      ([a.lt b, a.equals b, b.lt a].count true = 1 ↔ ¬Number.Confused a b) ∧
      (a.lt b = true → b.lt c = true → a.lt c = true) ∧
      (a.equals b = true → b.equals c = true → (a.equals c = true ↔ ¬Number.Merged a c)) ∧
      (∃ verdict : Comparison → Bool,
        (∀ k named, (Dict.get? k.name HelperSet.builtins).map
          (·.call [.number a, .number b] named) = some (.ok (.bool (verdict k)))) ∧
        verdict .eq = a.equals b ∧ verdict .lt = a.lt b ∧ verdict .gt = b.lt a ∧
        verdict .ne = !verdict .eq ∧
        [verdict .eq, verdict .lt, verdict .gt].count true ≤ 1 ∧
        ([verdict .eq, verdict .lt, verdict .gt].count true = 1 ↔ ¬Number.Confused a b) ∧
        (verdict .lte = (verdict .lt || verdict .eq) ↔ ¬Number.Confused a b) ∧
        (verdict .gte = (verdict .gt || verdict .eq) ↔ ¬Number.Confused a b)) ∧
      (Number.Confused a b →
        ∃ x y, a.integer? = some x ∧ b.integer? = some y ∧ 2 ^ 53 ≤ x ∧ 2 ^ 53 ≤ y) := by
  obtain ⟨o, ho, hback, hlies⟩ := Number.exists_order ha hb
  have hless : a.lt b = decide (o = .lt) := Number.lt_eq_decide ho
  have hmore : b.lt a = decide (o = .gt) := by
    rw [Number.lt_eq_decide hback]
    cases o <;> rfl
  refine ⟨?_, ?_, Number.lt_trans ha hb hc, Number.equals_trans_iff ha hb hc,
    ⟨(·.answer a b o), ?_, rfl, hless.symm, hmore.symm, rfl, Comparison.answer_coherent hlies⟩,
    Number.Confused.le⟩
  · rw [ho, Option.some.injEq]
    cases hlies with
    | equal same clear => simp [same, clear]
    | confused apart confused => simp [apart, confused]
    | ordered strict apart clear => simp [strict, apart, clear]
  · rw [hless, hmore]
    exact hlies.count_eq_one_iff
  · intro k named
    rw [k.get?_builtins, Option.map_some, Comparison.call_numbers ho]

/-- `2⁵³` as a floating point number. -/
def lastSafe : Number := .float ⟨0x4340000000000000⟩

/-- The first integer that floating point passes over. -/
def firstUnsafe : Number := .uint 9007199254740993

/-- Around `2⁵³` an integer equals the floating point number that equals the integer below it. Its
order and its answers are as they should be, and it does not equal that integer. -/
theorem comparison_coherent_around :
    firstUnsafe.toBinary64.isNaN = false ∧ lastSafe.toBinary64.isNaN = false ∧
      (Number.uint 9007199254740992).toBinary64.isNaN = false ∧
      firstUnsafe.equals lastSafe = true ∧ lastSafe.equals (.uint 9007199254740992) = true ∧
      (firstUnsafe.equals (.uint 9007199254740992) = true ↔
        ¬Number.Merged firstUnsafe (.uint 9007199254740992)) ∧
      [firstUnsafe.lt lastSafe, firstUnsafe.equals lastSafe, lastSafe.lt firstUnsafe].count true =
        1 := by
  have hmissing : firstUnsafe.toBinary64.isNaN = false := Number.isNaN_of_integer? rfl
  have hfloat : lastSafe.toBinary64.isNaN = false := by decide +kernel
  have hwhole : (Number.uint 9007199254740992).toBinary64.isNaN = false :=
    Number.isNaN_of_integer? rfl
  have hsame : firstUnsafe.equals lastSafe = true := by decide +kernel
  have hsame' : lastSafe.equals (.uint 9007199254740992) = true := by decide +kernel
  obtain ⟨-, hone, -, hequal, -⟩ := comparison_coherent hmissing hfloat hwhole
  refine ⟨hmissing, hfloat, hwhole, hsame, hsame', hequal hsame hsame', hone.mpr ?_⟩
  rintro ⟨⟨_, _, -, h, -⟩, -⟩
  cases h

/-- So comparison is not coherent among all numbers. An integer without a sign and one with a sign
may be neither equal nor ordered, though one is at most the other; and equality leads from an
integer to a different one. -/
theorem not_comparison_coherent :
    (firstUnsafe.equals (.int 9007199254740992) = false ∧
      firstUnsafe.compare? (.int 9007199254740992) = some .eq ∧
      [firstUnsafe.lt (.int 9007199254740992), firstUnsafe.equals (.int 9007199254740992),
        (Number.int 9007199254740992).lt firstUnsafe].count true = 0) ∧
      (firstUnsafe.equals lastSafe = true ∧ lastSafe.equals (.uint 9007199254740992) = true ∧
        firstUnsafe.equals (.uint 9007199254740992) = false) ∧
      ¬(∀ a b : Number, a.toBinary64.isNaN = false → b.toBinary64.isNaN = false →
        (a.equals b = true ↔ a.compare? b = some .eq)) ∧
      ¬(∀ a b c : Number, a.toBinary64.isNaN = false → b.toBinary64.isNaN = false →
        c.toBinary64.isNaN = false → a.equals b = true → b.equals c = true →
          a.equals c = true) := by
  have hapart : firstUnsafe.equals (.int 9007199254740992) = false := by decide +kernel
  have horder : firstUnsafe.compare? (.int 9007199254740992) = some .eq := by decide +kernel
  have hsame : firstUnsafe.equals lastSafe = true := by decide +kernel
  have hsame' : lastSafe.equals (.uint 9007199254740992) = true := by decide +kernel
  have hends : firstUnsafe.equals (.uint 9007199254740992) = false := by decide +kernel
  refine ⟨⟨hapart, horder, by decide +kernel⟩, ⟨hsame, hsame', hends⟩, ?_, ?_⟩
  · intro h
    have hequal := (h _ _ (Number.isNaN_of_integer? rfl) (Number.isNaN_of_integer? rfl)).mpr horder
    rw [hapart] at hequal
    cases hequal
  · intro h
    have hequal := h _ _ _ (Number.isNaN_of_integer? rfl) (by decide +kernel)
      (Number.isNaN_of_integer? rfl) hsame hsame'
    rw [hends] at hequal
    cases hequal

end TypedTemplate
