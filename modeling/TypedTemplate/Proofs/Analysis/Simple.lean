import TypedTemplate.Proofs.Analysis.Plain
import TypedTemplate.Proofs.Execution.Scalars

/-!
# Simple schemas and values that fit them

A *simple* schema has one type at every part, and neither alternatives nor conjuncts. A value
*fits* it when it has that type, and when every property that is declared is there. An array may
be short all the same, so an index may lead past its end; along any other segments, the walk
through the schema is matched by the walk through the value.

* `Schema.Simple`, `Schema.Fits`: the two conditions, with the lemmas by which they are shown of
  schemas as they are built.
* `Value.inRange`: no index along the segments is past the end of an array.
* `Simple.step?_cases`: the ways to go one segment further.
* **`follow_fits`**: where a simple schema leads, the value fits if there is one, and there is one
  if no index is out of range.
* **`Fits.shows`**: a value of a schema of numbers or booleans is a number or a boolean.
-/

namespace TypedTemplate

/-- Only a number may have a type that is not its own. -/
theorem Value.HasType.ofValue?_eq {v : Value} {t : TypeName} (h : v.HasType t)
    (hnumber : ∀ n, v ≠ .number n) : TypeName.ofValue? v = some t := by
  rcases h with h | ⟨-, h⟩
  · exact h
  · cases v with
    | number n => exact absurd rfl (hnumber n)
    | _ => cases h

namespace Schema

/-! ## Conditions -/

/-- **A simple schema**: one type at every part, and no alternatives or conjuncts. -/
inductive Simple : Schema → Prop where
  | intro {s : Schema} (t : TypeName) (type : s.type = some (.single t)) (anyOf : s.anyOf = [])
    (oneOf : s.oneOf = []) (allOf : s.allOf = []) (properties : ∀ p ∈ s.properties, Simple p.2)
    (items : ∀ i, s.items = some i → Simple i) : Simple s

/-- **A value of the shape of a schema**: it has the type, the elements fit, and every declared
property is there and fits. -/
inductive Fits : Schema → Value → Prop where
  | intro {s : Schema} {v : Value} (type : ∀ t, s.type = some (.single t) → v.HasType t)
    (items : ∀ i elements, s.items = some i → v = .array elements → ∀ w ∈ elements, Fits i w)
    (present : ∀ p ∈ s.properties, ∃ members, v = .object members ∧ Dict.get? p.1 members ≠ none)
    (properties : ∀ p ∈ s.properties, ∀ members w, v = .object members →
      Dict.get? p.1 members = some w → Fits p.2 w) : Fits s v

variable {s : Schema} {v : Value}

theorem simple_ofType (t : TypeName) : (ofType t).Simple :=
  .intro t rfl rfl rfl rfl (fun _ hp => absurd hp List.not_mem_nil) (fun _ hi => by cases hi)

theorem fits_ofType {t : TypeName} (h : v.HasType t) : (ofType t).Fits v :=
  .intro (fun t' ht' => by cases ht'; exact h) (fun _ _ hi => by cases hi)
    (fun _ hp => absurd hp List.not_mem_nil) (fun _ hp => absurd hp List.not_mem_nil)

theorem fits_number (n : Number) : (ofType .number).Fits (.number n) := by
  refine fits_ofType ?_
  cases hn : n.isInteger with
  | true => exact .inr ⟨rfl, by simp [TypeName.ofValue?, hn]⟩
  | false => exact .inl (by simp [TypeName.ofValue?, hn])

theorem simple_arrayOf {i : Schema} (h : i.Simple) : (arrayOf i).Simple :=
  .intro .array rfl rfl rfl rfl (fun _ hp => absurd hp List.not_mem_nil)
    (fun _ hi => by cases hi; exact h)

theorem fits_arrayOf {i : Schema} {elements : List Value} (h : ∀ w ∈ elements, i.Fits w) :
    (arrayOf i).Fits (.array elements) :=
  .intro (fun t ht => by cases ht; exact .inl rfl) (fun _ _ hi hv => by cases hi; cases hv; exact h)
    (fun _ hp => absurd hp List.not_mem_nil) (fun _ hp => absurd hp List.not_mem_nil)

theorem simple_ofProperties {properties : Dict Schema} (h : ∀ p ∈ properties, p.2.Simple) :
    (ofProperties properties).Simple :=
  .intro .object rfl rfl rfl rfl h (fun _ hi => by cases hi)

theorem fits_ofProperties {properties : Dict Schema} {members : Dict Value}
    (h : ∀ p ∈ properties, ∃ w, Dict.get? p.1 members = some w ∧ p.2.Fits w) :
    (ofProperties properties).Fits (.object members) := by
  refine .intro (fun t ht => by cases ht; exact .inl rfl) (fun _ _ hi => by cases hi) ?_ ?_
  · intro p hp
    obtain ⟨w, hw, -⟩ := h p hp
    exact ⟨members, rfl, hw ▸ Option.some_ne_none w⟩
  · intro p hp _ w hv hw
    cases hv
    obtain ⟨w', hw', hfits⟩ := h p hp
    rw [hw] at hw'
    exact Option.some.inj hw' ▸ hfits

theorem Simple.exists_type (hs : s.Simple) : ∃ t, s.type = some (.single t) := by
  cases hs with
  | intro t type => exact ⟨t, type⟩

theorem Simple.property (hs : s.Simple) {p : String × Schema} (hp : p ∈ s.properties) :
    p.2.Simple := by
  cases hs with
  | intro _ _ _ _ _ properties => exact properties p hp

theorem Simple.element (hs : s.Simple) {i : Schema} (hi : s.items = some i) : i.Simple := by
  cases hs with
  | intro _ _ _ _ _ _ items => exact items i hi

theorem Fits.hasType (hv : s.Fits v) {t : TypeName} (h : s.type = some (.single t)) :
    v.HasType t := by
  cases hv with
  | intro type => exact type t h

/-- What is declared is there, and fits. -/
theorem Fits.exists_property (hv : s.Fits v) {p : String × Schema} (hp : p ∈ s.properties) :
    ∃ members w, v = .object members ∧ Dict.get? p.1 members = some w ∧ p.2.Fits w := by
  cases hv with
  | intro _ _ present properties =>
    obtain ⟨members, rfl, hmember⟩ := present p hp
    obtain ⟨w, hw⟩ := Option.ne_none_iff_exists'.mp hmember
    exact ⟨members, w, rfl, hw, properties p hp members w rfl hw⟩

theorem Fits.element {elements : List Value} (hv : s.Fits (.array elements)) {i : Schema}
    (hi : s.items = some i) {w : Value} (hw : w ∈ elements) : i.Fits w := by
  cases hv with
  | intro _ items => exact items i elements hi rfl w hw

theorem Fits.ne_undefined (hs : s.Simple) (hv : s.Fits v) : v ≠ .undefined := by
  obtain ⟨t, ht⟩ := hs.exists_type
  exact (hv.hasType ht).ne_undefined

/-! ## Walking -/

/-- **The ways to go one segment further** in a simple schema: staying, a declared property, or the
elements of an array. -/
theorem Simple.step?_cases (hs : s.Simple) {segment : String} {next : Schema}
    (h : s.step? segment = some next) :
    (isSelfSegment segment = true ∧ next = s) ∨
      (isSelfSegment segment = false ∧ (segment, next) ∈ s.properties) ∨
      (isSelfSegment segment = false ∧ isIndexSegment segment = true ∧
        s.type = some (.single .array) ∧ s.items = some next) := by
  cases hs with
  | intro t type anyOf oneOf allOf =>
    rw [step?] at h
    by_cases hself : isSelfSegment segment = true
    · rw [if_pos hself] at h
      cases h
      exact .inl ⟨hself, rfl⟩
    · rw [if_neg hself, property?_eq, anyOf, oneOf, allOf] at h
      have hother : isSelfSegment segment = false := Bool.eq_false_iff.mpr hself
      cases hown : Dict.get? segment s.properties with
      | some p =>
        rw [hown] at h
        cases h
        exact .inr (.inl ⟨hother, Dict.mem_of_get? hown⟩)
      | none =>
        have harray : s.isArray = decide (t = .array) := by
          rw [isArray_eq, hasType, types?_of_type type, type, anyOf, oneOf, allOf]
          cases t <;> rfl
        have helement : s.element? = s.items := by
          obtain ⟨_, _, _, own, _, _, _, any, one, all⟩ := s
          obtain rfl : any = [] := anyOf
          obtain rfl : one = [] := oneOf
          obtain rfl : all = [] := allOf
          cases own <;> rfl
        rw [hown, harray, helement] at h
        simp only [Option.orElse_none, propertyIn?] at h
        split at h
        · next hindex =>
          rw [Bool.and_eq_true, decide_eq_true_iff] at hindex
          obtain ⟨hdigits, rfl⟩ := hindex
          exact .inr (.inr ⟨hother, hdigits, type, h⟩)
        · cases h

end Schema

/-- No segment is an index past the end of the array that it is taken of. -/
def Value.inRange (v : Value) : List String → Bool
  | [] => true
  | segment :: rest =>
    (match v with
      | .array items => !isIndexSegment segment || indexOfSegment segment < items.length
      | _ => true) &&
    match v.step? segment with
    | some w => w.inRange rest
    | none => true

namespace Schema

variable {s : Schema} {v : Value}

/-- One segment further, what is there fits. -/
theorem step?_fits (hs : s.Simple) (hv : s.Fits v) {segment : String} {next : Schema}
    (h : s.step? segment = some next) {w : Value} (hw : v.step? segment = some w) :
    next.Simple ∧ next.Fits w := by
  unfold Value.step? at hw
  obtain ⟨hself, rfl⟩ | ⟨hother, hmem⟩ | ⟨hother, hindex, harray, hitems⟩ := hs.step?_cases h
  · rw [if_pos hself] at hw
    cases hw
    exact ⟨hs, hv⟩
  · obtain ⟨members, u, rfl, hu, hfits⟩ := hv.exists_property hmem
    rw [hother] at hw
    obtain rfl : u = w := Option.some.inj (hu.symm.trans hw)
    exact ⟨hs.property hmem, hfits⟩
  · obtain ⟨elements, rfl⟩ := (hv.hasType harray).exists_array
    rw [hother, hindex] at hw
    exact ⟨hs.element hitems, hv.element hitems (List.mem_of_getElem? hw)⟩

/-- One segment further, there is something, unless the segment is an index out of range. -/
theorem exists_step? (hs : s.Simple) (hv : s.Fits v) {segment : String} {next : Schema}
    (h : s.step? segment = some next) {rest : List String}
    (hrange : v.inRange (segment :: rest) = true) :
    ∃ w, v.step? segment = some w ∧ w.inRange rest = true := by
  unfold Value.inRange at hrange
  rw [Bool.and_eq_true] at hrange
  have hsome : ∃ w, v.step? segment = some w := by
    unfold Value.step?
    obtain ⟨hself, -⟩ | ⟨hother, hmem⟩ | ⟨hother, hindex, harray, -⟩ := hs.step?_cases h
    · exact ⟨v, if_pos hself⟩
    · obtain ⟨members, w, rfl, hw, -⟩ := hv.exists_property hmem
      rw [hother]
      exact ⟨w, hw⟩
    · obtain ⟨elements, rfl⟩ := (hv.hasType harray).exists_array
      have hlength : indexOfSegment segment < elements.length := by
        simpa [hindex] using hrange.1
      rw [hother, hindex]
      exact ⟨elements[indexOfSegment segment], List.getElem?_eq_getElem hlength⟩
  obtain ⟨w, hw⟩ := hsome
  rw [hw] at hrange
  exact ⟨w, hw, hrange.2⟩

/-- Along segments, what is there fits, and there is something if no index is out of range. -/
theorem walkFrom_fits (hs : s.Simple) (hv : s.Fits v) {segments : List String} {index : Nat}
    {found : Schema} (h : s.walkFrom index segments = .ok found) :
    (∀ w, segments.foldlM Value.step? v = some w → found.Simple ∧ found.Fits w) ∧
      (v.inRange segments = true → ∃ w, segments.foldlM Value.step? v = some w) := by
  induction segments generalizing s v index with
  | nil =>
    cases h
    refine ⟨?_, fun _ => ⟨v, rfl⟩⟩
    rintro w hw
    cases hw
    exact ⟨hs, hv⟩
  | cons segment rest ih =>
    rw [walkFrom] at h
    split at h
    · next next hnext =>
      rw [List.foldlM_cons]
      constructor
      · intro w hw
        obtain ⟨u, hu, hrest⟩ := Option.bind_eq_some_iff.mp hw
        obtain ⟨hsimple, hfits⟩ := step?_fits hs hv hnext hu
        exact (ih hsimple hfits h).1 w hrest
      · intro hrange
        obtain ⟨u, hu, hrest⟩ := exists_step? hs hv hnext hrange
        obtain ⟨hsimple, hfits⟩ := step?_fits hs hv hnext hu
        rw [hu]
        exact (ih hsimple hfits h).2 hrest
    · cases h

/-- **Where a simple schema leads, the value fits if there is one**, and there is one if no index is
out of range. -/
theorem follow_fits (hs : s.Simple) (hv : s.Fits v) {segments : List String} {found : Schema}
    (h : s.walk segments = .ok found) :
    (v.follow segments ≠ .undefined → found.Simple ∧ found.Fits (v.follow segments)) ∧
      (v.inRange segments = true → v.follow segments ≠ .undefined) := by
  obtain ⟨hfits, hexists⟩ := walkFrom_fits hs hv h
  have hfollow : ∀ w, segments.foldlM Value.step? v = some w → v.follow segments = w := by
    intro w hw
    unfold Value.follow Value.walk?
    rw [hw]
    cases w <;> rfl
  constructor
  · intro hdefined
    cases hw : segments.foldlM Value.step? v with
    | none =>
      refine absurd ?_ hdefined
      unfold Value.follow Value.walk?
      rw [hw]
      rfl
    | some w =>
      rw [hfollow w hw]
      exact hfits w hw
  · intro hrange
    obtain ⟨w, hw⟩ := hexists hrange
    obtain ⟨hsimple, hw'⟩ := hfits w hw
    rw [hfollow w hw]
    exact hw'.ne_undefined hsimple

/-! ## Kinds -/

theorem category?_of_type {t : TypeName} (h : s.type = some (.single t)) :
    s.category? = match t with
      | .number | .integer => some .number
      | .boolean => some .boolean
      | .null => some .null
      | .string | .array | .object => none := by
  unfold category?
  rw [types?_of_type h]
  cases t <;> rfl

/-- **A value of a schema of numbers or booleans is a number or a boolean**, and rendering spells
it out if it is finite. -/
theorem Fits.shows (hs : s.Simple) (hv : s.Fits v) {c : Literal.Category}
    (hc : s.category? = some c) (hnull : c ≠ .null) (hfinite : ∀ n, v = .number n → n.IsFinite) :
    v.Shows c := by
  obtain ⟨t, ht⟩ := hs.exists_type
  rw [category?_of_type ht] at hc
  have htype := hv.hasType ht
  cases v with
  | number n =>
    rcases htype.numeric with rfl | rfl
    · cases hc
      exact hfinite n rfl
    · cases hc
      exact hfinite n rfl
  | bool b =>
    cases htype.ofValue?_eq (by simp)
    cases hc
    trivial
  | null =>
    cases htype.ofValue?_eq (by simp)
    cases hc
    exact absurd rfl hnull
  | string =>
    cases htype.ofValue?_eq (by simp)
    cases hc
  | array =>
    cases htype.ofValue?_eq (by simp)
    cases hc
  | object =>
    cases htype.ofValue?_eq (by simp)
    cases hc
  | undefined => exact absurd rfl htype.ne_undefined

end Schema

end TypedTemplate
