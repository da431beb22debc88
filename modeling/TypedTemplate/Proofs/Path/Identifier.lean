import TypedTemplate.Identifier
import TypedTemplate.Proofs.Number.Literals

/-!
# Segments that end in the number of a source

The number of a side source stands behind the last colon of the last segment. A name may have colons
of its own and a number zeros in front, so it is said here just which lists of segments are split,
into what, and that every other list is left as it is.

* `splitLastColon?_eq_some`: a text is split at its last colon.
* `IsSelector`: the form of a segment that is split; **`splitIdentifier?_eq_some`**: no other one is.
* `EndsInSelector`: lists of segments that end in such a segment, and what they become.
* `extractIdentifier_append`: the segments in front are never looked at.
* `isSelector_append`: a name behind which the number of a source is put.
* **`extractIdentifier_exact`**: what becomes of a list of segments, whatever it is.
-/

namespace TypedTemplate

/-! ## The form of a selector -/

/-- A text is split at its last colon. -/
theorem splitLastColon?_eq_some {cs name rest : List Char} :
    splitLastColon? cs = some (name, rest) ↔ cs = name ++ ':' :: rest ∧ ':' ∉ rest := by
  unfold splitLastColon?
  constructor
  · intro h
    split at h
    · cases h
    · next c front hdrop =>
      obtain ⟨rfl, rfl⟩ := Prod.mk.inj (Option.some.inj h)
      have hcolon : c = ':' := by
        have hhead := List.head?_dropWhile_not (fun c : Char => decide (c ≠ ':')) cs.reverse
        rw [hdrop] at hhead
        simpa using hhead
      have hsplit : cs.reverse.takeWhile (fun c => decide (c ≠ ':')) ++ c :: front =
          cs.reverse := by
        rw [← hdrop]
        exact List.takeWhile_append_dropWhile
      constructor
      · have hcs := congrArg List.reverse hsplit
        rw [List.reverse_reverse, hcolon] at hcs
        simpa using hcs.symm
      · intro hmem
        have hne := List.all_eq_true.mp (List.all_takeWhile (l := cs.reverse)) ':'
          (List.mem_reverse.mp hmem)
        simp at hne
  · rintro ⟨rfl, hrest⟩
    have hne : ∀ c ∈ rest.reverse, decide (c ≠ ':') = true := by
      intro c hc
      rw [decide_eq_true_iff]
      rintro rfl
      exact hrest (List.mem_reverse.mp hc)
    have hreverse : (name ++ ':' :: rest).reverse = rest.reverse ++ ':' :: name.reverse := by simp
    rw [hreverse, List.dropWhile_append_of_pos hne, List.takeWhile_append_of_pos hne]
    simp

/-- **The form of a selector**: a name, a colon, and the digits of the number of a source. -/
def IsSelector (segment name : String) (id : UInt64) : Prop :=
  ∃ digits, segment.toList = name.toList ++ ':' :: digits ∧ name ≠ "" ∧
    Literal.allDigits digits = true ∧ Nat.ofDigitChars 10 digits 0 = id.toNat

/-- **A segment is split where it has the form of a selector**, and nowhere else. -/
theorem splitIdentifier?_eq_some {segment name : String} {id : UInt64} :
    splitIdentifier? segment = some (name, id) ↔ IsSelector segment name id := by
  unfold splitIdentifier? IsSelector
  constructor
  · intro h
    split at h
    · cases h
    · next front digits hsplit =>
      obtain ⟨hchars, -⟩ := splitLastColon?_eq_some.1 hsplit
      split at h
      · cases h
      · next hform =>
        simp only [Bool.or_eq_true, Bool.not_eq_true', not_or, Bool.not_eq_true,
          Bool.not_eq_false] at hform
        simp only at h
        split at h
        · next hsize =>
          obtain ⟨rfl, rfl⟩ := Prod.mk.inj (Option.some.inj h)
          refine ⟨digits, by rw [hchars, String.toList_ofList], ?_, hform.2, ?_⟩
          · rintro hempty
            have hfront : front = [] := by simpa using congrArg String.toList hempty
            rw [hfront] at hform
            cases hform.1
          · exact (UInt64.toNat_ofNat_of_lt' hsize).symm
        · cases h
  · rintro ⟨digits, hchars, hname, hdigits, hid⟩
    have hcolon : ':' ∉ digits := by
      intro hmem
      have hdigit := (Digits.of_allDigits hdigits).digits _ hmem
      cases hdigit
    rw [splitLastColon?_eq_some.2 ⟨hchars, hcolon⟩]
    have hform : (name.toList.isEmpty || !Literal.allDigits digits) = false := by
      simpa [hdigits] using hname
    have hsize : Nat.ofDigitChars 10 digits 0 < UInt64.size := by
      rw [hid]
      exact id.toNat_lt
    simp only [hform, Bool.false_eq_true, if_false, if_pos hsize, String.ofList_toList]
    rw [hid, UInt64.ofNat_toNat]

/-- **A name behind which a colon and the number of a source are put** has the form of a selector,
whatever colons the name has itself. -/
theorem isSelector_append {name : String} (h : name ≠ "") (id : UInt64) :
    IsSelector (name ++ ":" ++ toString id.toNat) name id := by
  have hdigits : Digits (Nat.toDigits 10 id.toNat) := Digits.toDigits id.toNat
  refine ⟨Nat.toDigits 10 id.toNat, ?_, h, hdigits.allDigits, Nat.ofDigitChars_ten_toDigits⟩
  have hnumber : (toString id.toNat).toList = Nat.toDigits 10 id.toNat := Nat.toList_repr
  rw [String.toList_append, String.toList_append, hnumber, List.append_assoc]
  rfl

/-! ## Lists of segments -/

/-- The segments in front of the last one are never looked at. -/
theorem extractIdentifier_append (front : List String) (last : String) :
    extractIdentifier (front ++ [last]) =
      match splitIdentifier? last with
      | some (name, id) => (front ++ [name], some id)
      | none => (front ++ [last], none) := by
  induction front with
  | nil =>
    rw [List.nil_append, extractIdentifier]
    cases splitIdentifier? last <;> rfl
  | cons segment rest ih =>
    cases hrest : rest ++ [last] with
    | nil => simp at hrest
    | cons next more =>
      rw [List.cons_append, hrest, extractIdentifier, ← hrest, ih]
      cases splitIdentifier? last <;> rfl

/-- **The segments end in a selector**: the last one does, and the cleaned segments have its name in
its place. -/
def EndsInSelector (segments cleaned : List String) (id : UInt64) : Prop :=
  ∃ front last name, segments = front ++ [last] ∧ IsSelector last name id ∧
    cleaned = front ++ [name]

variable {segments cleaned : List String} {id : UInt64}

/-- **Segments are split where they end in a selector**, and nowhere else. -/
theorem extractIdentifier_eq_some :
    extractIdentifier segments = (cleaned, some id) ↔ EndsInSelector segments cleaned id := by
  constructor
  · intro h
    rcases List.eq_nil_or_concat segments with rfl | ⟨front, last, rfl⟩
    · cases h
    · rw [List.concat_eq_append, extractIdentifier_append] at h
      cases hsplit : splitIdentifier? last with
      | none =>
        rw [hsplit] at h
        cases h
      | some selector =>
        rw [hsplit] at h
        cases h
        exact ⟨front, last, selector.1, List.concat_eq_append, splitIdentifier?_eq_some.1 hsplit,
          rfl⟩
  · rintro ⟨front, last, name, rfl, hselector, rfl⟩
    rw [extractIdentifier_append, splitIdentifier?_eq_some.2 hselector]

/-- What is not split is left as it is. -/
theorem eq_of_extractIdentifier_eq_none (h : extractIdentifier segments = (cleaned, none)) :
    cleaned = segments := by
  rcases List.eq_nil_or_concat segments with rfl | ⟨front, last, rfl⟩
  · cases h
    rfl
  · rw [List.concat_eq_append, extractIdentifier_append] at h
    cases hsplit : splitIdentifier? last with
    | none =>
      rw [hsplit] at h
      cases h
      exact List.concat_eq_append.symm
    | some selector =>
      rw [hsplit] at h
      cases h

/-- **Segments that do not end in a selector are left as they are.** -/
theorem extractIdentifier_eq_none :
    extractIdentifier segments = (cleaned, none) ↔
      cleaned = segments ∧ ∀ without id, ¬EndsInSelector segments without id := by
  constructor
  · intro h
    refine ⟨eq_of_extractIdentifier_eq_none h, ?_⟩
    intro without id hends
    rw [extractIdentifier_eq_some.2 hends] at h
    cases h
  · rintro ⟨rfl, hnot⟩
    cases hextract : extractIdentifier cleaned with
    | mk without id? =>
      cases id? with
      | none => rw [eq_of_extractIdentifier_eq_none hextract]
      | some id => exact absurd (extractIdentifier_eq_some.1 hextract) (hnot without id)

/-- **What becomes of a list of segments.** A number is split off just where the list is not empty
and its last segment is a name, a colon and digits of a number of 64 bits; the name then takes the
place of that segment, and every other list is left as it is. So a number that is put behind a colon
behind the last segment is split off again, whatever the segments are, as long as the last one is
not empty. -/
theorem extractIdentifier_exact (segments : List String) :
    (∀ cleaned id, extractIdentifier segments = (cleaned, some id) ↔
      EndsInSelector segments cleaned id) ∧
    (∀ cleaned, extractIdentifier segments = (cleaned, none) ↔
      cleaned = segments ∧ ∀ without id, ¬EndsInSelector segments without id) ∧
    (∀ front name, segments = front ++ [name] → name ≠ "" → ∀ id : UInt64,
      extractIdentifier (front ++ [name ++ ":" ++ toString id.toNat]) = (segments, some id)) := by
  refine ⟨fun _ _ => extractIdentifier_eq_some, fun _ => extractIdentifier_eq_none, ?_⟩
  rintro front name rfl hname id
  exact extractIdentifier_eq_some.2 ⟨front, _, name, rfl, isSelector_append hname id, rfl⟩

/-- A name with a colon, a number with zeros in front, and an earlier segment that looks like a
selector. -/
theorem floorSegments_extracted :
    (IsSelector "room:b:007" "room:b" 7 ∧
      extractIdentifier ["floor:2", "room:b:007"] = (["floor:2", "room:b"], some 7)) ∧
    ("room:b" ≠ "" ∧ extractIdentifier ["floor:2", "room:b:18446744073709551615"] =
      (["floor:2", "room:b"], some 18446744073709551615)) := by
  obtain ⟨hsplit, -, -⟩ := extractIdentifier_exact ["floor:2", "room:b:007"]
  obtain ⟨-, -, happend⟩ := extractIdentifier_exact ["floor:2", "room:b"]
  have hselector : IsSelector "room:b:007" "room:b" 7 :=
    ⟨['0', '0', '7'], by decide, by decide, by decide, by decide⟩
  refine ⟨⟨hselector, ?_⟩, by decide, ?_⟩
  · exact (hsplit _ _).mpr ⟨["floor:2"], _, "room:b", rfl, hselector, rfl⟩
  · exact happend ["floor:2"] "room:b" rfl (by decide) 18446744073709551615

end TypedTemplate
