import Mathlib.Data.List.TakeDrop
import TypedTemplate.Literal
import TypedTemplate.Proofs.Number.Range

/-!
# Numbers in rendered text

An integer is rendered as its digits, and a finite floating point number positionally, whatever its
size. So the text of either is a number as literals spell it, and reads back as a number.

* `signChars`: a minus sign, or nothing.
* `isNumberLiteral_whole`, `isNumberLiteral_fraction`: digits, and digits around a point, are
  number literals.
* `Decimal.placed_placePoint`: a finite number is written as one of the two.
* **`Number.ofText?_intChars`**: an integer of 64 bits is read back as itself.
* **`Number.reads_back`**: an integer or a finite number is rendered as a number literal that reads
  back as a number.
-/

namespace TypedTemplate

/-! ## Number literals -/

/-- A minus sign, where there is one. -/
def signChars (negative : Bool) : List Char := if negative then ['-'] else []

/-- Digits, and at least one. -/
structure Digits (cs : List Char) : Prop where
  nonempty : cs ≠ []
  digits : ∀ c ∈ cs, c.isDigit = true

namespace Digits

theorem toDigits (n : Nat) : Digits (Nat.toDigits 10 n) where
  nonempty := Nat.toDigits_ne_nil
  digits _ h := Nat.isDigit_of_mem_toDigits (by decide) (by decide) h

theorem append {as bs : List Char} (ha : Digits as) (hb : ∀ c ∈ bs, c.isDigit = true) :
    Digits (as ++ bs) where
  nonempty h := ha.nonempty (List.append_eq_nil_iff.mp h).1
  digits := List.forall_mem_append.mpr ⟨ha.digits, hb⟩

variable {cs : List Char}

theorem allDigits (h : Digits cs) : Literal.allDigits cs = true := by
  have hne : cs.isEmpty = false := List.isEmpty_eq_false_iff.mpr h.nonempty
  have hall : cs.all Char.isDigit = true := List.all_eq_true.mpr h.digits
  simp [Literal.allDigits, hne, hall]

/-- A digit is neither a point nor a sign. -/
theorem ne_of_mem (h : Digits cs) {c : Char} (hc : c ∈ cs) : c ≠ '.' ∧ c ≠ '-' ∧ c ≠ '+' := by
  have hdigit := h.digits c hc
  refine ⟨?_, ?_, ?_⟩
  · rintro rfl
    cases hdigit
  · rintro rfl
    cases hdigit
  · rintro rfl
    cases hdigit

end Digits

theorem Literal.isNumberLiteral_signed {cs : List Char} (negative : Bool)
    (h : isUnsignedLiteral cs = true) (hsign : cs.head? ≠ some '-') :
    isNumberLiteral (signChars negative ++ cs) = true := by
  cases negative with
  | true => exact h
  | false =>
    show isNumberLiteral cs = true
    unfold isNumberLiteral
    split
    · exact absurd rfl hsign
    · exact h

/-- Digits do not begin with a sign. -/
theorem Digits.head?_append_ne {cs : List Char} (h : Digits cs) (rest : List Char) :
    (cs ++ rest).head? ≠ some '-' := by
  cases cs with
  | nil => exact absurd rfl h.nonempty
  | cons c cs =>
    have hc := h.ne_of_mem List.mem_cons_self
    simpa using hc.2.1

/-- Digits up to a point, and what follows. -/
theorem Digits.span_append {cs : List Char} (h : Digits cs) {rest : List Char}
    (hrest : rest = [] ∨ rest.head? = some '.') :
    (cs ++ rest).span (· ≠ '.') = (cs, rest) := by
  have hall : ∀ c ∈ cs, decide (c ≠ '.') = true := by
    intro c hc
    exact decide_eq_true (h.ne_of_mem hc).1
  rw [List.span_eq_takeWhile_dropWhile, List.takeWhile_append_of_pos hall,
    List.dropWhile_append_of_pos hall]
  rcases hrest with rfl | hpoint
  · simp
  · obtain ⟨more, rfl⟩ := List.head?_eq_some_iff.mp hpoint
    simp

/-- Digits behind an optional sign are a number literal. -/
theorem Literal.isNumberLiteral_whole {whole : List Char} (negative : Bool) (h : Digits whole) :
    isNumberLiteral (signChars negative ++ whole) = true := by
  have hspan : whole.span (· ≠ '.') = (whole, []) := by
    have happend := h.span_append (.inl rfl)
    rwa [List.append_nil] at happend
  refine isNumberLiteral_signed negative ?_ ?_
  · unfold isUnsignedLiteral
    rw [hspan]
    exact h.allDigits
  · have hhead := h.head?_append_ne []
    rwa [List.append_nil] at hhead

/-- Digits around a point are a number literal. -/
theorem Literal.isNumberLiteral_fraction {whole fraction : List Char} (negative : Bool)
    (hwhole : Digits whole) (hfraction : Digits fraction) :
    isNumberLiteral (signChars negative ++ (whole ++ '.' :: fraction)) = true := by
  refine isNumberLiteral_signed negative ?_ (hwhole.head?_append_ne _)
  unfold isUnsignedLiteral
  rw [hwhole.span_append (.inr rfl)]
  simp [hwhole.allDigits, hfraction.allDigits]

/-! ## Reading -/

namespace Decimal.Numeral

theorem scanSign_signChars (negative : Bool) {cs : List Char} (h : Digits cs) (rest : List Char) :
    scanSign (signChars negative ++ (cs ++ rest)) = (negative, cs ++ rest) := by
  cases negative with
  | true => rfl
  | false =>
    show scanSign (cs ++ rest) = (false, cs ++ rest)
    cases cs with
    | nil => exact absurd rfl h.nonempty
    | cons c cs =>
      obtain ⟨-, hminus, hplus⟩ := h.ne_of_mem List.mem_cons_self
      unfold scanSign
      split
      · next heq => exact absurd (List.cons.inj heq).1 hminus
      · next heq => exact absurd (List.cons.inj heq).1 hplus
      · rfl

theorem spanDigits_append {cs : List Char} (h : Digits cs) {rest : List Char}
    (hrest : rest = [] ∨ rest.head? = some '.') : spanDigits (cs ++ rest) = (cs, rest) := by
  unfold spanDigits
  rw [List.takeWhile_append_of_pos h.digits, List.dropWhile_append_of_pos h.digits]
  rcases hrest with rfl | hpoint
  · simp
  · obtain ⟨more, rfl⟩ := List.head?_eq_some_iff.mp hpoint
    have hnot : Char.isDigit '.' = false := by decide
    simp [hnot]

theorem ofText?_whole {whole : List Char} (negative : Bool) (h : Digits whole) :
    ofText? (signChars negative ++ whole) = some ⟨negative, whole, none, none⟩ := by
  have hsign := scanSign_signChars negative h []
  have hspan := spanDigits_append h (.inl rfl)
  rw [List.append_nil] at hsign hspan
  have hne : whole.isEmpty = false := List.isEmpty_eq_false_iff.mpr h.nonempty
  unfold ofText? scan?
  simp [hsign, hspan, scanFraction, scanExponent, hne]

theorem ofText?_fraction {whole fraction : List Char} (negative : Bool) (hwhole : Digits whole)
    (hfraction : Digits fraction) :
    ofText? (signChars negative ++ (whole ++ '.' :: fraction)) =
      some ⟨negative, whole, some fraction, none⟩ := by
  have hsign := scanSign_signChars negative hwhole ('.' :: fraction)
  have hspan : spanDigits (whole ++ '.' :: fraction) = (whole, '.' :: fraction) :=
    spanDigits_append hwhole (.inr rfl)
  have hrest := spanDigits_append hfraction (.inl rfl)
  rw [List.append_nil] at hrest
  have hne : whole.isEmpty = false := List.isEmpty_eq_false_iff.mpr hwhole.nonempty
  unfold ofText? scan?
  simp [hsign, hspan, scanFraction, hrest, scanExponent, hne]

end Decimal.Numeral

namespace Number

theorem digits?_natChars (n : Nat) : digits? (natChars n) = some n := by
  have h := Digits.toDigits n
  have hne : (Nat.toDigits 10 n).isEmpty = false := List.isEmpty_eq_false_iff.mpr h.nonempty
  have hall : (Nat.toDigits 10 n).all Char.isDigit = true := List.all_eq_true.mpr h.digits
  unfold digits? natChars
  rw [hne, hall]
  simp [Nat.ofDigitChars_ten_toDigits]

/-- Digits are read without looking for a sign. -/
theorem unsigned?_natChars (n : Nat) :
    unsigned? (natChars n) = if n < UInt64.size then some (UInt64.ofNat n) else none := by
  have hdigits := digits?_natChars n
  have hplus : ∀ rest, natChars n ≠ '+' :: rest := by
    intro rest heq
    have hmem : '+' ∈ natChars n := heq ▸ List.mem_cons_self
    exact ((Digits.toDigits n).ne_of_mem hmem).2.2 rfl
  generalize natChars n = cs at hdigits hplus ⊢
  unfold unsigned?
  split
  · next rest => exact absurd rfl (hplus rest)
  · simp only [hdigits]

theorem unsigned?_minus (cs : List Char) : unsigned? ('-' :: cs) = none := by
  simp [unsigned?, digits?]

/-- **An integer that fits 64 bits is read back as itself.** -/
theorem ofText?_intChars {n : Int} {m : Number} (h : ofInt? n = some m) :
    ofText? (intChars n) = some m := by
  unfold ofInt? at h
  unfold intChars ofText?
  by_cases hsign : n < 0
  · rw [if_neg (by omega)] at h
    rw [if_pos hsign, unsigned?_minus]
    have hscan : Decimal.Numeral.scanSign ('-' :: natChars n.natAbs) =
        (true, natChars n.natAbs) := rfl
    have hvalue : -(n.natAbs : Int) = n := by omega
    unfold signed?
    simp only [hscan, digits?_natChars, ↓reduceIte, hvalue]
    split at h
    · next hfits =>
      obtain rfl := Option.some.inj h
      simp [hfits]
    · cases h
  · rw [if_pos (by omega)] at h
    have hnat : n.toNat = n.natAbs := by omega
    rw [if_neg hsign, unsigned?_natChars]
    split at h
    · next hfits =>
      obtain rfl := Option.some.inj h
      rw [if_pos (by omega), hnat]
    · cases h

/-- A text that spells a finite number is read as a number. -/
theorem isSome_ofText?_of_nearest {cs : List Char} {n : Decimal.Numeral}
    (h : Decimal.Numeral.ofText? cs = some n) (hfinite : n.nearest.isFinite = true) :
    (ofText? cs).isSome = true := by
  have hfloat : finite? cs = some n.nearest := by
    unfold finite?
    simp [h, hfinite]
  unfold ofText?
  split
  · rfl
  · split
    · rfl
    · rw [hfloat]
      rfl

end Number

/-! ## Finite numbers -/

namespace Decimal

/-- **The two ways to place a point**: behind the digits and zeros of a whole number, or among the
digits, or in front of them, of a fraction. -/
inductive Placed (digits : Nat) (power : Int) : List Char → Prop where
  | whole {cs : List Char} (nonneg : 0 ≤ power) (whole : Digits cs)
    (value : Nat.ofDigitChars 10 cs 0 = digits * 10 ^ power.toNat) : Placed digits power cs
  | fraction {whole fraction : List Char} (neg : power < 0) (left : Digits whole)
    (right : Digits fraction) (places : fraction.length = (-power).toNat)
    (value : Nat.ofDigitChars 10 (whole ++ fraction) 0 = digits) :
    Placed digits power (whole ++ '.' :: fraction)

theorem ofDigitChars_zeros_append (count : Nat) (cs : List Char) :
    Nat.ofDigitChars 10 (List.replicate count '0' ++ cs) 0 = Nat.ofDigitChars 10 cs 0 := by
  rw [Nat.ofDigitChars_append, Nat.ofDigitChars_replicate_zero, Nat.mul_zero]

theorem isDigit_of_mem_zeros {count : Nat} {c : Char} (h : c ∈ List.replicate count '0') :
    c.isDigit = true := by
  rw [List.eq_of_mem_replicate h]
  decide

/-- The point is placed in one of the two ways. -/
theorem placed_placePoint (digits : Nat) (power : Int) :
    Placed digits power (placePoint false (Nat.toDigits 10 digits) power) := by
  have hdigits := Digits.toDigits digits
  have hvalue := Nat.ofDigitChars_ten_toDigits (n := digits)
  generalize Nat.toDigits 10 digits = ds at hdigits hvalue ⊢
  unfold placePoint
  by_cases hpower : 0 ≤ power
  · rw [if_pos hpower]
    simp only [Bool.false_eq_true, ↓reduceIte, List.append_nil]
    refine .whole hpower (hdigits.append fun c hc => isDigit_of_mem_zeros hc) ?_
    rw [Nat.ofDigitChars_append, hvalue, Nat.ofDigitChars_replicate_zero, Nat.mul_comm]
  · rw [if_neg hpower]
    simp only
    split
    · next hshort =>
      have hsplit := List.take_append_drop (ds.length - (-power).toNat) ds
      have hleft : (ds.take (ds.length - (-power).toNat)).length = ds.length - (-power).toNat := by
        rw [List.length_take]
        omega
      have hright : (ds.drop (ds.length - (-power).toNat)).length = (-power).toNat := by
        rw [List.length_drop]
        omega
      refine .fraction (by omega) ⟨?_, ?_⟩ ⟨?_, ?_⟩ hright ?_
      · exact List.ne_nil_of_length_pos (by omega)
      · exact fun c hc => hdigits.digits c (List.mem_of_mem_take hc)
      · exact List.ne_nil_of_length_pos (by omega)
      · exact fun c hc => hdigits.digits c (List.mem_of_mem_drop hc)
      · rw [hsplit, hvalue]
    · next hlong =>
      have hplaces : (List.replicate ((-power).toNat - ds.length) '0' ++ ds).length =
          (-power).toNat := by
        rw [List.length_append, List.length_replicate]
        omega
      refine @Placed.fraction _ _ ['0'] _ (by omega) ⟨?_, ?_⟩ ⟨?_, ?_⟩ hplaces ?_
      · exact List.cons_ne_nil _ _
      · intro c hc
        obtain rfl := List.mem_singleton.mp hc
        decide
      · exact List.append_ne_nil_of_right_ne_nil _ hdigits.nonempty
      · intro c hc
        rcases List.mem_append.mp hc with hzero | hdigit
        · exact isDigit_of_mem_zeros hzero
        · exact hdigits.digits c hdigit
      · have hzeros := ofDigitChars_zeros_append ((-power).toNat - ds.length + 1) ds
        rw [hvalue, List.replicate_succ] at hzeros
        exact hzeros

/-- **A finite number is written as digits, perhaps around a point, and reads back as a finite
number.** -/
theorem exists_numeral_of_write {x : Binary64} (h : x.isFinite = true) :
    Literal.isNumberLiteral (Layout.plain.write x) = true ∧
      ∃ n, Numeral.ofText? (Layout.plain.write x) = some n ∧ n.nearest.isFinite = true := by
  have hrange := shortest_inRange .up h
  have hwrite : Layout.plain.write x = signChars x.isNegative ++
      placePoint false (Nat.toDigits 10 (shortest .up x).1) (shortest .up x).2 := by
    unfold Layout.write
    cases x.isNegative <;> rfl
  have hplaced := placed_placePoint (shortest .up x).1 (shortest .up x).2
  rw [hwrite]
  unfold InRange at hrange
  generalize placePoint false (Nat.toDigits 10 (shortest .up x).1) (shortest .up x).2 = cs
    at hplaced ⊢
  cases hplaced with
  | whole hnonneg hwhole hvalue =>
    refine ⟨Literal.isNumberLiteral_whole _ hwhole, _, Numeral.ofText?_whole _ hwhole, ?_⟩
    have hplaces : (-(shortest .up x).2).toNat = 0 := by omega
    rw [hplaces, ← hvalue] at hrange
    refine Binary64.ofDecimal_isFinite _ ?_ ?_
    · simp
    · simpa using hrange
  | fraction hneg hleft hright hplaces hvalue =>
    refine ⟨Literal.isNumberLiteral_fraction _ hleft hright, _,
      Numeral.ofText?_fraction _ hleft hright, ?_⟩
    have hwhole : (shortest .up x).2.toNat = 0 := by omega
    rw [hwhole, ← hplaces, Nat.pow_zero, Nat.mul_one, ← hvalue] at hrange
    refine Binary64.ofDecimal_isFinite _ ?_ ?_
    · simp
    · simpa using hrange

end Decimal

namespace Number

/-- The number is an integer, or a finite floating point number. -/
def IsFinite : Number → Prop
  | .float f => f.isFinite = true
  | _ => True

instance : DecidablePred IsFinite
  | .float f => inferInstanceAs (Decidable (f.isFinite = true))
  | .uint _ => .isTrue trivial
  | .int _ => .isTrue trivial

/-- A number that a text spells is finite. -/
theorem isFinite_of_ofText? {cs : List Char} {n : Number} (h : ofText? cs = some n) :
    n.IsFinite := by
  unfold ofText? at h
  split at h
  · cases h
    trivial
  · split at h
    · cases h
      trivial
    · obtain ⟨f, hf, rfl⟩ := Option.map_eq_some_iff.mp h
      unfold finite? at hf
      split at hf
      · split at hf
        · next hfinite =>
          cases hf
          exact hfinite
        · cases hf
      · cases hf

/-- An integer in decimal is a sign and the digits of its size. -/
theorem intChars_eq (n : Int) : intChars n = signChars (decide (n < 0)) ++ natChars n.natAbs := by
  unfold intChars
  by_cases hsign : n < 0
  · simp [hsign, signChars]
  · simp [hsign, signChars]

theorem isNumberLiteral_intChars (n : Int) : Literal.isNumberLiteral (intChars n) = true := by
  rw [intChars_eq]
  exact Literal.isNumberLiteral_whole _ (Digits.toDigits n.natAbs)

theorem natChars_eq_intChars (n : Nat) : natChars n = intChars n := by
  have hnonneg : ¬(n : Int) < 0 := by omega
  unfold intChars
  rw [if_neg hnonneg, Int.natAbs_natCast]

theorem ofInt?_toNat (m : UInt64) : ofInt? (m.toNat : Int) = some (.uint m) := by
  have hfits : m.toNat < UInt64.size := m.toNat_lt_size
  unfold ofInt?
  rw [if_pos (by omega), if_pos (by omega)]
  simp

/-- An integer without a sign is read back as itself. -/
theorem ofText?_chars_uint (m : UInt64) : ofText? (Number.uint m).chars = some (.uint m) := by
  show ofText? (natChars m.toNat) = some (.uint m)
  rw [natChars_eq_intChars]
  exact ofText?_intChars (ofInt?_toNat m)

/-- A signed integer that is not negative is the same integer without a sign. -/
theorem toNat_toUInt64_of_nonneg {m : Int64} (h : 0 ≤ m.toInt) :
    (m.toUInt64.toNat : Int) = m.toInt := by
  have hcond : m.toInt =
      if 2 * m.toUInt64.toNat < 2 ^ 64 then (m.toUInt64.toNat : Int)
      else (m.toUInt64.toNat : Int) - (2 ^ 64 : Nat) := BitVec.toInt_eq_toNat_cond m.toBitVec
  have hsize : m.toUInt64.toNat < 2 ^ 64 := m.toUInt64.toNat_lt_size
  split at hcond
  · exact hcond.symm
  · omega

/-- Leaving out a sign that is not needed changes nothing about an integer. -/
theorem integer?_ofInt64 (n : Int64) : (ofInt64 n).integer? = some n.toInt := by
  unfold ofInt64
  split
  · next hsign => exact congrArg some (toNat_toUInt64_of_nonneg hsign)
  · rfl

theorem ofInt?_toInt (m : Int64) : ofInt? m.toInt = some (ofInt64 m) := by
  unfold ofInt? ofInt64
  by_cases hsign : 0 ≤ m.toInt
  · have hvalue := toNat_toUInt64_of_nonneg hsign
    have hsize := m.toUInt64.toNat_lt_size
    have hfits : m.toInt < UInt64.size := by omega
    have hsame : UInt64.ofNat m.toInt.toNat = m.toUInt64 := by
      have hnat : m.toInt.toNat = m.toUInt64.toNat := by omega
      rw [hnat, UInt64.ofNat_toNat]
    rw [if_pos hsign, if_pos hsign, if_pos hfits, hsame]
  · have hfits : isSigned64 m.toInt = true := by
      unfold isSigned64
      rw [Bool.and_eq_true]
      exact ⟨decide_eq_true m.minValue_le_toInt, decide_eq_true m.toInt_le⟩
    rw [if_neg hsign, if_neg hsign, if_pos hfits, Int64.ofInt_toInt]

/-- An integer with a sign is read back as itself, without a sign where it needs none. -/
theorem ofText?_chars_int (m : Int64) : ofText? (Number.int m).chars = some (ofInt64 m) := by
  exact ofText?_intChars (ofInt?_toInt m)

/-- The whole part of a number within the exact range fits 64 bits. -/
theorem exists_ofInt?_truncate {f : Binary64} (h : isSafeWhole f = true) :
    ∃ m, ofInt? f.truncate = some m := by
  have hsize : f.truncate.natAbs ≤ 2 ^ 53 := by
    unfold isSafeWhole at h
    rw [Bool.and_eq_true] at h
    have hmagnitude := of_decide_eq_true h.2
    unfold Binary64.truncate
    generalize Binary64.unitsPerOne = one at hmagnitude ⊢
    rw [Int.natAbs_tdiv, f.natAbs_units, Int.natAbs_natCast]
    rw [Nat.mul_comm] at hmagnitude
    exact Nat.div_le_of_le_mul hmagnitude
  unfold ofInt?
  by_cases hsign : 0 ≤ f.truncate
  · have hfits : f.truncate < UInt64.size := by
      show f.truncate < (2 ^ 64 : Nat)
      omega
    rw [if_pos hsign, if_pos hfits]
    exact ⟨_, rfl⟩
  · have hfits : isSigned64 f.truncate = true := by
      unfold isSigned64
      rw [Bool.and_eq_true]
      constructor
      · refine decide_eq_true ?_
        show (-(2 ^ 63) : Int) ≤ f.truncate
        omega
      · refine decide_eq_true ?_
        show f.truncate ≤ (2 ^ 63 - 1 : Int)
        omega
    rw [if_neg hsign, if_pos hfits]
    exact ⟨_, rfl⟩

/-- **A number is rendered as one**: the text of an integer or of a finite number is a number
literal, and is read as a number. -/
theorem reads_back {n : Number} (h : n.IsFinite) :
    Literal.isNumberLiteral n.chars = true ∧ (ofText? n.chars).isSome = true := by
  cases n with
  | uint m =>
    constructor
    · show Literal.isNumberLiteral (natChars m.toNat) = true
      rw [natChars_eq_intChars]
      exact isNumberLiteral_intChars _
    · rw [ofText?_chars_uint]
      rfl
  | int m =>
    constructor
    · exact isNumberLiteral_intChars _
    · rw [ofText?_chars_int]
      rfl
  | float f =>
    have hfinite : f.isFinite = true := h
    have hchars : (Number.float f).chars =
        if isSafeWhole f then intChars f.truncate else Decimal.Layout.plain.write f := by
      simp [chars, Binary64.isNaN, Binary64.isInfinite, hfinite]
    rw [hchars]
    split
    · next hsafe =>
      obtain ⟨m, hm⟩ := exists_ofInt?_truncate hsafe
      refine ⟨isNumberLiteral_intChars _, ?_⟩
      rw [ofText?_intChars hm]
      rfl
    · obtain ⟨hliteral, n, hn, hnearest⟩ := Decimal.exists_numeral_of_write hfinite
      exact ⟨hliteral, isSome_ofText?_of_nearest hn hnearest⟩

end Number

end TypedTemplate
