/-!
# The order of texts

Names are listed in the order of their code points, the first difference deciding.

* `precedes`: the strict order.
* `precedes_irrefl`, `precedes_trans`, `precedes_total`: it is a strict total order.
* `sortNames`: the names of a list, each once, in order; `mem_sortNames`: no other names.
* `pairwise_sortNames`: each name comes strictly before all later ones.
-/

namespace TypedTemplate.Text

/-- The first list of characters comes strictly before the second. -/
def precedesChars : List Char → List Char → Bool
  | _, [] => false
  | [], _ :: _ => true
  | a :: as, b :: bs => a.toNat < b.toNat || (a.toNat = b.toNat && precedesChars as bs)

/-- The first text comes strictly before the second. -/
def precedes (a b : String) : Bool := precedesChars a.toList b.toList

/-! ## A strict total order -/

theorem precedesChars_irrefl (as : List Char) : precedesChars as as = false := by
  induction as with
  | nil => rfl
  | cons a as ih => simp [precedesChars, ih]

theorem precedesChars_trans {as bs cs : List Char} (h : precedesChars as bs = true)
    (h' : precedesChars bs cs = true) : precedesChars as cs = true := by
  induction as generalizing bs cs with
  | nil => cases bs <;> cases cs <;> simp_all [precedesChars]
  | cons a as ih =>
    cases bs with
    | nil => simp [precedesChars] at h
    | cons b bs =>
      cases cs with
      | nil => simp [precedesChars] at h'
      | cons c cs =>
        simp only [precedesChars, Bool.or_eq_true, Bool.and_eq_true, decide_eq_true_eq] at h h' ⊢
        rcases h with h | ⟨h, ht⟩ <;> rcases h' with h' | ⟨h', ht'⟩
        · exact .inl (by omega)
        · exact .inl (by omega)
        · exact .inl (by omega)
        · exact .inr ⟨by omega, ih ht ht'⟩

theorem precedesChars_total {as bs : List Char} (h : precedesChars as bs = false)
    (h' : precedesChars bs as = false) : as = bs := by
  induction as generalizing bs with
  | nil => cases bs <;> simp_all [precedesChars]
  | cons a as ih =>
    cases bs with
    | nil => simp [precedesChars] at h'
    | cons b bs =>
      simp only [precedesChars, Bool.or_eq_false_iff, Bool.and_eq_false_iff,
        decide_eq_false_iff_not] at h h'
      have heq : a.toNat = b.toNat := by omega
      have hab : a = b := Char.ext (UInt32.toNat_inj.mp heq)
      subst hab
      rw [ih (h.2.resolve_left (by simp)) (h'.2.resolve_left (by simp))]

/-- No text precedes itself. -/
theorem precedes_irrefl (a : String) : precedes a a = false := precedesChars_irrefl _

/-- The order is transitive. -/
theorem precedes_trans {a b c : String} (h : precedes a b = true) (h' : precedes b c = true) :
    precedes a c = true := precedesChars_trans h h'

/-- Two texts of which neither precedes the other are the same. -/
theorem precedes_total {a b : String} (h : precedes a b = false) (h' : precedes b a = false) :
    a = b := String.toList_inj.mp (precedesChars_total h h')

/-! ## Sorted names -/

/-- Put a name at the place where it sorts, unless it is there. -/
def insertName (name : String) : List String → List String
  | [] => [name]
  | n :: rest =>
    if n = name then n :: rest
    else if precedes name n then name :: n :: rest
    else n :: insertName name rest

/-- The names of a list, each once, in order. -/
def sortNames (names : List String) : List String := names.foldr insertName []

theorem mem_insertName {name n : String} {names : List String} :
    n ∈ insertName name names ↔ n = name ∨ n ∈ names := by
  induction names with
  | nil => simp [insertName]
  | cons m rest ih =>
    simp only [insertName]
    split
    · next h => subst h; simp
    · split
      · simp
      · simp only [List.mem_cons, ih]
        exact or_left_comm

/-- Sorting names adds none and loses none. -/
theorem mem_sortNames {n : String} {names : List String} : n ∈ sortNames names ↔ n ∈ names := by
  induction names with
  | nil => simp [sortNames]
  | cons m rest ih =>
    rw [List.mem_cons, ← ih]
    exact mem_insertName

/-- A name takes its place in names that strictly increase. -/
theorem pairwise_insertName {name : String} {names : List String}
    (h : names.Pairwise fun a b => precedes a b = true) :
    (insertName name names).Pairwise fun a b => precedes a b = true := by
  induction names with
  | nil => exact List.pairwise_singleton _ _
  | cons m rest ih =>
    obtain ⟨hfirst, hrest⟩ := List.pairwise_cons.mp h
    unfold insertName
    split
    · exact h
    · next hne =>
      split
      · next hbefore =>
        refine List.pairwise_cons.mpr ⟨?_, h⟩
        intro b hb
        rcases List.mem_cons.mp hb with rfl | hb
        · exact hbefore
        · exact precedes_trans hbefore (hfirst b hb)
      · next hnot =>
        -- The name is another one and does not come before, so it comes behind.
        have hafter : precedes m name = true := by
          cases hm : precedes m name with
          | true => rfl
          | false => exact absurd (precedes_total hm (Bool.eq_false_iff.mpr hnot)) hne
        refine List.pairwise_cons.mpr ⟨?_, ih hrest⟩
        intro b hb
        rcases mem_insertName.mp hb with rfl | hb
        · exact hafter
        · exact hfirst b hb

/-- **Sorted names strictly increase.** -/
theorem pairwise_sortNames (names : List String) :
    (sortNames names).Pairwise fun a b => precedes a b = true := by
  induction names with
  | nil => exact .nil
  | cons m rest ih => exact pairwise_insertName ih

end TypedTemplate.Text
