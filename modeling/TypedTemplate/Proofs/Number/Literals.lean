import TypedTemplate.Proofs.Number.Display

/-!
# Number literals that are read

The grammar of number literals sets no bound on digits. What is read off a literal is an integer of
64 bits or a finite floating point number, so there is a bound on the number: halfway between the
greatest finite number and the next power of two. Below it every literal is read, whatever its sign,
its digits and its decimal places, and from there on none is.

* `Literal.exists_parts`: a number literal is a sign and digits, perhaps around a point.
* `Literal.digitsValue`, `Literal.places`, `Literal.InRange`: the bound.
* `Literal.exists_numeral`: the number nearest to a literal is finite just below the bound.
* **`Literal.isSome_ofText?_iff`**: a literal is read just below the bound.
-/

namespace TypedTemplate

/-! ## The parts of a literal -/

theorem Digits.of_allDigits {cs : List Char} (h : Literal.allDigits cs = true) : Digits cs := by
  unfold Literal.allDigits at h
  rw [Bool.and_eq_true, Bool.not_eq_true'] at h
  exact ⟨List.isEmpty_eq_false_iff.mp h.1, List.all_eq_true.mp h.2⟩

theorem Digits.filter_eq {cs : List Char} (h : Digits cs) : cs.filter Char.isDigit = cs :=
  List.filter_eq_self.mpr h.digits

namespace Literal

/-- A number without a sign is digits, or digits around a point. -/
theorem exists_parts_of_isUnsignedLiteral {cs : List Char} (h : isUnsignedLiteral cs = true) :
    Digits cs ∨ ∃ whole fraction, Digits whole ∧ Digits fraction ∧ cs = whole ++ '.' :: fraction := by
  unfold isUnsignedLiteral at h
  rw [List.span_eq_takeWhile_dropWhile] at h
  have hsplit := List.takeWhile_append_dropWhile (p := (· ≠ '.')) (l := cs)
  cases hrest : cs.dropWhile (· ≠ '.') with
  | nil =>
    rw [hrest] at h hsplit
    rw [List.append_nil] at hsplit
    rw [hsplit] at h
    exact .inl (.of_allDigits h)
  | cons point fraction =>
    have hpoint : point = '.' := by
      have hhead := List.head?_dropWhile_not (fun c : Char => decide (c ≠ '.')) cs
      rw [hrest] at hhead
      simpa using hhead
    rw [hrest] at h hsplit
    rw [Bool.and_eq_true] at h
    rw [hpoint] at hsplit
    exact .inr ⟨_, fraction, .of_allDigits h.1, .of_allDigits h.2, hsplit.symm⟩

/-- **A number literal is a sign and digits**, or a sign and digits around a point. -/
theorem exists_parts {cs : List Char} (h : isNumberLiteral cs = true) :
    ∃ negative whole, Digits whole ∧ (cs = signChars negative ++ whole ∨
      ∃ fraction, Digits fraction ∧ cs = signChars negative ++ (whole ++ '.' :: fraction)) := by
  have hsigned : ∃ negative unsigned, isUnsignedLiteral unsigned = true ∧
      cs = signChars negative ++ unsigned := by
    unfold isNumberLiteral at h
    split at h
    · exact ⟨true, _, h, rfl⟩
    · exact ⟨false, _, h, rfl⟩
  obtain ⟨negative, unsigned, hunsigned, rfl⟩ := hsigned
  rcases exists_parts_of_isUnsignedLiteral hunsigned with hdigits |
    ⟨whole, fraction, hwhole, hfraction, rfl⟩
  · exact ⟨negative, unsigned, hdigits, .inl rfl⟩
  · exact ⟨negative, whole, hwhole, .inr ⟨fraction, hfraction, rfl⟩⟩

/-! ## The bound -/

/-- The digits of a text, read as one integer. -/
def digitsValue (cs : List Char) : Nat := Nat.ofDigitChars 10 (cs.filter Char.isDigit) 0

/-- How many characters stand behind the point. -/
def places (cs : List Char) : Nat := (cs.dropWhile (· ≠ '.')).length - 1

/-- **The literal lies within the numbers**: its digits, scaled by its decimal places, are below the
limit of floating point. -/
def InRange (cs : List Char) : Prop := digitsValue cs < Binary64.limit * 10 ^ places cs

instance : DecidablePred InRange := fun cs =>
  inferInstanceAs (Decidable (digitsValue cs < Binary64.limit * 10 ^ places cs))

/-- Whatever fits 64 bits is in range. -/
theorem inRange_of_lt {cs : List Char} (h : digitsValue cs < UInt64.size) : InRange cs := by
  have hlimit : UInt64.size ≤ Binary64.limit := Nat.le_of_lt (Binary64.lt_limit_of_le (by decide))
  calc digitsValue cs < UInt64.size := h
    _ ≤ Binary64.limit := hlimit
    _ ≤ Binary64.limit * 10 ^ places cs := Nat.le_mul_of_pos_right _ (Nat.pow_pos (by decide))

theorem filter_signChars (negative : Bool) (cs : List Char) :
    (signChars negative ++ cs).filter Char.isDigit = cs.filter Char.isDigit := by
  cases negative with
  | true => exact List.filter_cons_of_neg (by decide)
  | false => rfl

theorem places_signChars (negative : Bool) (cs : List Char) :
    places (signChars negative ++ cs) = places cs := by
  cases negative with
  | true =>
    unfold places
    rw [signChars, if_pos rfl, List.singleton_append, List.dropWhile_cons_of_pos (by decide)]
  | false => rfl

/-- **The number nearest to a literal is finite just where the literal is in range.** -/
theorem exists_numeral {cs : List Char} (h : isNumberLiteral cs = true) :
    ∃ n, Decimal.Numeral.ofText? cs = some n ∧ (n.nearest.isFinite = true ↔ InRange cs) := by
  unfold InRange digitsValue
  obtain ⟨negative, whole, hwhole, rfl | ⟨fraction, hfraction, rfl⟩⟩ := exists_parts h
  · have hspan := hwhole.span_append (.inl rfl)
    rw [List.append_nil, List.span_eq_takeWhile_dropWhile] at hspan
    have hplaces : places whole = 0 := by
      unfold places
      rw [(Prod.mk.inj hspan).2]
      rfl
    refine ⟨_, Decimal.Numeral.ofText?_whole negative hwhole, ?_⟩
    rw [filter_signChars, places_signChars, hplaces, hwhole.filter_eq]
    have hfinite := Binary64.ofDecimal_isFinite_iff negative hwhole.digits 0
    simpa [Decimal.Numeral.nearest] using hfinite
  · have hspan : (whole ++ '.' :: fraction).span (· ≠ '.') = (whole, '.' :: fraction) :=
      hwhole.span_append (.inr rfl)
    rw [List.span_eq_takeWhile_dropWhile] at hspan
    have hplaces : places (whole ++ '.' :: fraction) = fraction.length := by
      unfold places
      rw [(Prod.mk.inj hspan).2]
      rfl
    have hdigits := hwhole.append hfraction.digits
    have hfilter : (whole ++ '.' :: fraction).filter Char.isDigit = whole ++ fraction := by
      rw [List.filter_append, List.filter_cons_of_neg (by decide), hwhole.filter_eq,
        hfraction.filter_eq]
    refine ⟨_, Decimal.Numeral.ofText?_fraction negative hwhole hfraction, ?_⟩
    rw [filter_signChars, places_signChars, hplaces, hfilter]
    have hfinite := Binary64.ofDecimal_isFinite_iff negative hdigits.digits fraction.length
    simpa [Decimal.Numeral.nearest] using hfinite

/-! ## Reading -/

/-- The digits behind a sign that is read off are those of the text. -/
theorem digitsValue_of_digits? {cs digits : List Char} {n : Nat}
    (hdigits : digits.filter Char.isDigit = cs.filter Char.isDigit)
    (h : Number.digits? digits = some n) : digitsValue cs = n := by
  unfold Number.digits? at h
  split at h
  · next hall =>
    cases h
    unfold digitsValue
    rw [← hdigits, Digits.filter_eq (.of_allDigits hall)]
  · cases h

theorem inRange_of_unsigned? {cs : List Char} {n : UInt64} (h : Number.unsigned? cs = some n) :
    InRange cs := by
  unfold Number.unsigned? at h
  simp only at h
  split at h
  · next value hvalue =>
    split at h
    · next hfits =>
      refine inRange_of_lt ?_
      rwa [digitsValue_of_digits? ?_ hvalue]
      split
      · exact (List.filter_cons_of_neg (by decide)).symm
      · rfl
    · cases h
  · cases h

theorem filter_scanSign (cs : List Char) :
    (Decimal.Numeral.scanSign cs).2.filter Char.isDigit = cs.filter Char.isDigit := by
  unfold Decimal.Numeral.scanSign
  split
  · exact (List.filter_cons_of_neg (by decide)).symm
  · exact (List.filter_cons_of_neg (by decide)).symm
  · rfl

theorem inRange_of_signed? {cs : List Char} {n : Int64} (h : Number.signed? cs = some n) :
    InRange cs := by
  unfold Number.signed? at h
  simp only at h
  split at h
  · next value hvalue =>
    have hfits : Number.isSigned64
        (if (Decimal.Numeral.scanSign cs).1 then -(value : Int) else value) = true := by
      refine Decidable.byContradiction fun hnot => ?_
      rw [if_neg hnot] at h
      cases h
    unfold Number.isSigned64 at hfits
    rw [Bool.and_eq_true, decide_eq_true_eq, decide_eq_true_eq] at hfits
    obtain ⟨hlow, hhigh⟩ := hfits
    have hmin : Int64.minValue.toInt = -2 ^ 63 := rfl
    have hmax : Int64.maxValue.toInt = 2 ^ 63 - 1 := rfl
    refine inRange_of_lt ?_
    rw [digitsValue_of_digits? (filter_scanSign cs) hvalue]
    show value < 2 ^ 64
    cases hsign : (Decimal.Numeral.scanSign cs).1 with
    | true =>
      rw [hsign, if_pos rfl] at hlow
      omega
    | false =>
      rw [hsign, if_neg Bool.false_ne_true] at hhigh
      omega
  · cases h

/-- **A number literal is read just where it is in range.** -/
theorem isSome_ofText?_iff {cs : List Char} (h : isNumberLiteral cs = true) :
    (Number.ofText? cs).isSome = true ↔ InRange cs := by
  obtain ⟨n, hn, hfinite⟩ := exists_numeral h
  constructor
  · intro hsome
    unfold Number.ofText? at hsome
    split at hsome
    · next hunsigned => exact inRange_of_unsigned? hunsigned
    · split at hsome
      · next hsigned => exact inRange_of_signed? hsigned
      · refine hfinite.mp ?_
        unfold Number.finite? at hsome
        simp only [hn] at hsome
        split at hsome
        · next hnearest => exact hnearest
        · cases hsome
  · intro hrange
    exact Number.isSome_ofText?_of_nearest hn (hfinite.mpr hrange)

end Literal

end TypedTemplate
