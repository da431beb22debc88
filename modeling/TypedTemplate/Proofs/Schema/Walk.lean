import TypedTemplate.Render.Scope

/-!
# Walking a schema and walking its values

The same segments lead through a schema and through data, by different rules: a property is
searched for through the conjuncts of a schema, and an index asks whether there is an array at all,
while data is an object or an array as it stands. Where a schema is *unambiguous*, having one type
at every part and no alternatives, the two walks agree: what they arrive at, if they both arrive, is
a value that the schema allows.

* `Value.HasType`, `Value.HasOneOf`: the value has a type, or one of several.
* `Schema.Unambiguous`, `Schema.Allows`: the condition on schemas, and the values of a schema.
* `property?_allows`, `exists_array`, `element?_allows`: properties and elements, looked for through
  conjuncts.
* `step?_allows`: one segment.
* **`walk_allows`**: any segments.
-/

namespace TypedTemplate

/-! ## Types of values -/

/-- The runtime type of a value is a type; an integer counts as a number. -/
def Value.HasType (v : Value) (t : TypeName) : Prop :=
  TypeName.ofValue? v = some t ∨ t = .number ∧ TypeName.ofValue? v = some .integer

/-- The names that the keyword lists. -/
def TypeTag.names : TypeTag → List TypeName
  | .single t => [t]
  | .many ts => ts

namespace Value

/-- The type of the value is one of several. -/
def HasOneOf (v : Value) (ts : List TypeName) : Prop := ∃ t ∈ ts, v.HasType t

theorem HasOneOf.mono {v : Value} {ts us : List TypeName} (h : v.HasOneOf ts)
    (hsub : ∀ t ∈ ts, t ∈ us) : v.HasOneOf us := by
  obtain ⟨t, ht, hv⟩ := h
  exact ⟨t, hsub t ht, hv⟩

theorem hasOneOf_single {v : Value} {t : TypeName} :
    v.HasOneOf (TypeTag.single t).names ↔ v.HasType t := by
  simp [HasOneOf, TypeTag.names]

theorem HasType.eq_array {elements : List Value} {t : TypeName} (h : (array elements).HasType t) :
    t = .array := by
  rcases h with h | ⟨-, h⟩ <;> cases h
  rfl

/-- A number has no other types than those of numbers. -/
theorem HasType.numeric {n : Number} {t : TypeName} (h : (number n).HasType t) :
    t = .number ∨ t = .integer := by
  rcases h with h | ⟨h, -⟩
  · rw [TypeName.ofValue?] at h
    split at h
    · cases h
      exact .inr rfl
    · cases h
      exact .inl rfl
  · exact .inl h

theorem HasType.exists_array {v : Value} (h : v.HasType .array) :
    ∃ elements, v = .array elements := by
  cases v with
  | array elements => exact ⟨elements, rfl⟩
  | number n => rcases h.numeric with h | h <;> cases h
  | _ => rcases h with h | ⟨-, h⟩ <;> cases h

theorem HasType.exists_object {v : Value} (h : v.HasType .object) :
    ∃ members, v = .object members := by
  cases v with
  | object members => exact ⟨members, rfl⟩
  | number n => rcases h.numeric with h | h <;> cases h
  | _ => rcases h with h | ⟨-, h⟩ <;> cases h

theorem HasType.exists_number {v : Value} {t : TypeName} (h : v.HasType t)
    (ht : t = .number ∨ t = .integer) : ∃ n, v = .number n := by
  cases v with
  | number n => exact ⟨n, rfl⟩
  | _ => rcases ht with rfl | rfl <;> rcases h with h | ⟨-, h⟩ <;> cases h

theorem HasType.exists_bool {v : Value} (h : v.HasType .boolean) : ∃ b, v = .bool b := by
  cases v with
  | bool b => exact ⟨b, rfl⟩
  | number n => rcases h.numeric with h | h <;> cases h
  | _ => rcases h with h | ⟨-, h⟩ <;> cases h

theorem HasType.eq_null {v : Value} (h : v.HasType .null) : v = .null := by
  cases v with
  | null => rfl
  | number n => rcases h.numeric with h | h <;> cases h
  | _ => rcases h with h | ⟨-, h⟩ <;> cases h

theorem HasType.ne_undefined {v : Value} {t : TypeName} (h : v.HasType t) : v ≠ .undefined := by
  rintro rfl
  rcases h with h | ⟨-, h⟩ <;> cases h

end Value

theorem Dict.mem_of_get? {α : Type} {key : String} {d : Dict α} {v : α}
    (h : Dict.get? key d = some v) : (key, v) ∈ d := by
  induction d with
  | nil => cases h
  | cons e rest ih =>
    obtain ⟨k, w⟩ := e
    rw [get?] at h
    split at h
    · next heq =>
      cases h
      subst heq
      exact List.mem_cons_self
    · exact List.mem_cons_of_mem _ (ih h)

namespace Schema

/-! ## Conditions -/

/-- **An unambiguous schema**: no alternatives, one type at every part, and no property that is
called like an index. -/
inductive Unambiguous : Schema → Prop where
  | intro {s : Schema} (t : TypeName) (type : s.type = some (.single t)) (anyOf : s.anyOf = [])
    (oneOf : s.oneOf = []) (names : ∀ p ∈ s.properties, isIndexSegment p.1 = false)
    (properties : ∀ p ∈ s.properties, Unambiguous p.2)
    (items : ∀ i, s.items = some i → Unambiguous i)
    (allOf : ∀ b ∈ s.allOf, Unambiguous b) : Unambiguous s

/-- **A value that a schema allows**: it has one of the types, the members that are declared and
there are allowed, and so are all elements, and every conjunct allows the value too. -/
inductive Allows : Schema → Value → Prop where
  | intro {s : Schema} {v : Value} (type : ∀ tag, s.type = some tag → v.HasOneOf tag.names)
    (items : ∀ i elements, s.items = some i → v = .array elements → ∀ w ∈ elements, Allows i w)
    (properties : ∀ members, v = .object members → ∀ name p, Dict.get? name s.properties = some p →
      ∀ w, Dict.get? name members = some w → Allows p w)
    (allOf : ∀ b ∈ s.allOf, Allows b v) : Allows s v

variable {s : Schema} {v : Value}

/-! ## Properties -/

theorem property?_eq (name : String) (s : Schema) :
    s.property? name =
      (((Dict.get? name s.properties).orElse fun _ => propertyIn? name s.anyOf).orElse fun _ =>
        propertyIn? name s.oneOf).orElse fun _ => propertyIn? name s.allOf := by
  cases s
  rfl

theorem propertyIn?_eq_findSome? (name : String) (bs : List Schema) :
    propertyIn? name bs = bs.findSome? (property? name) := by
  induction bs with
  | nil => rfl
  | cons b rest ih =>
    rw [propertyIn?, List.findSome?_cons, ih]
    cases property? name b <;> rfl

theorem exists_branch_of_propertyIn? {name : String} {bs : List Schema} {p : Schema}
    (h : propertyIn? name bs = some p) : ∃ b ∈ bs, b.property? name = some p := by
  rw [propertyIn?_eq_findSome?] at h
  exact List.exists_of_findSome?_eq_some h

/-- **A property that the schema leads to**, itself or by a conjunct, is no index, and allows the
member of its name. -/
theorem property?_allows (hs : s.Unambiguous) (hv : s.Allows v) {name : String} {p : Schema}
    (h : s.property? name = some p) :
    isIndexSegment name = false ∧ p.Unambiguous ∧
      ∀ members w, v = .object members → Dict.get? name members = some w → p.Allows w := by
  induction hs with
  | intro t type anyOf oneOf names hproperties _ _ _ _ ihAllOf =>
    cases hv with
    | intro _ _ properties allOf =>
      rw [property?_eq, anyOf, oneOf] at h
      cases hown : Dict.get? name _ with
      | some q =>
        rw [hown] at h
        obtain rfl : q = p := Option.some.inj h
        have hmem := Dict.mem_of_get? hown
        exact ⟨names (name, q) hmem, hproperties (name, q) hmem,
          fun members w hobject hw => properties members hobject name q hown w hw⟩
      | none =>
        rw [hown] at h
        obtain ⟨b, hb, hbp⟩ := exists_branch_of_propertyIn? h
        exact ihAllOf b hb (allOf b hb) hbp

/-! ## Arrays -/

theorem types?_of_type {t : TypeName} (h : s.type = some (.single t)) : s.types? = some [t] := by
  obtain ⟨type, _, _, _, _, _, _, _, _, _⟩ := s
  obtain rfl : type = some (.single t) := h
  cases t <;> rfl

theorem isArray_eq (s : Schema) :
    s.isArray = (s.hasType .array || (s.type.isNone && s.items.isSome) ||
      (if !s.anyOf.isEmpty then allArrays s.anyOf else !s.oneOf.isEmpty && allArrays s.oneOf) ||
        someArray s.allOf) := by
  cases s
  rfl

theorem someArray_eq_any (bs : List Schema) : someArray bs = bs.any isArray := by
  induction bs with
  | nil => rfl
  | cons b rest ih => rw [someArray, List.any_cons, ih]

/-- A schema of arrays allows nothing else. -/
theorem exists_array (hs : s.Unambiguous) (hv : s.Allows v) (h : s.isArray = true) :
    ∃ elements, v = .array elements := by
  induction hs with
  | intro t type anyOf oneOf _ _ _ _ _ _ ihAllOf =>
    cases hv with
    | intro typed _ _ allOf =>
      rw [isArray_eq, hasType, types?_of_type type, type, anyOf, oneOf] at h
      simp only [Option.isNone_some, Bool.false_and, Bool.or_false, List.isEmpty_nil, Bool.not_true,
        Bool.false_eq_true, if_false, Bool.or_eq_true] at h
      rcases h with h | h
      · obtain rfl : TypeName.array = t := by simpa using h
        exact (Value.hasOneOf_single.mp (typed _ type)).exists_array
      · rw [someArray_eq_any, List.any_eq_true] at h
        obtain ⟨b, hb, hbArray⟩ := h
        exact ihAllOf b hb (allOf b hb) hbArray

theorem element?_eq (s : Schema) :
    s.element? =
      ((s.items.orElse fun _ => elementIn? s.anyOf).orElse fun _ => elementIn? s.oneOf).orElse
        fun _ => elementIn? s.allOf := by
  obtain ⟨_, _, _, own, _, _, _, _, _, _⟩ := s
  cases own <;> rfl

theorem elementIn?_eq_findSome? (bs : List Schema) : elementIn? bs = bs.findSome? element? := by
  induction bs with
  | nil => rfl
  | cons b rest ih =>
    rw [elementIn?, List.findSome?_cons, ih]
    cases element? b <;> rfl

/-- **The schema of elements**, from the schema itself or a conjunct, allows every element. -/
theorem element?_allows (hs : s.Unambiguous) (hv : s.Allows v) {i : Schema}
    (h : s.element? = some i) :
    i.Unambiguous ∧ ∀ elements, v = .array elements → ∀ w ∈ elements, i.Allows w := by
  induction hs with
  | intro t type anyOf oneOf _ _ hitems _ _ _ ihAllOf =>
    cases hv with
    | intro _ items _ allOf =>
      rw [element?_eq, anyOf, oneOf] at h
      cases hown : Schema.items _ with
      | some j =>
        rw [hown] at h
        cases h
        exact ⟨hitems _ hown, fun elements harray => items _ elements hown harray⟩
      | none =>
        rw [hown] at h
        obtain ⟨b, hb, hbi⟩ := List.exists_of_findSome?_eq_some
          ((elementIn?_eq_findSome? _).symm.trans h)
        exact ihAllOf b hb (allOf b hb) hbi

/-! ## Walking -/

/-- **One segment further**, what is there is allowed. -/
theorem step?_allows (hs : s.Unambiguous) (hv : s.Allows v) {segment : String} {next : Schema}
    (h : s.step? segment = some next) {w : Value} (hw : v.step? segment = some w) :
    next.Unambiguous ∧ next.Allows w := by
  unfold step? at h
  unfold Value.step? at hw
  by_cases hself : isSelfSegment segment = true
  · rw [if_pos hself] at h hw
    cases h
    cases hw
    exact ⟨hs, hv⟩
  · rw [if_neg hself] at h hw
    cases hproperty : s.property? segment with
    | some p =>
      rw [hproperty] at h
      cases h
      obtain ⟨hindex, hnext, hmember⟩ := property?_allows hs hv hproperty
      -- The property is called like no index, so the value is no array.
      cases v with
      | object members => exact ⟨hnext, hmember members w rfl hw⟩
      | array => simp [hindex] at hw
      | _ => cases hw
    | none =>
      rw [hproperty] at h
      simp only [Option.ite_none_right_eq_some, Bool.and_eq_true] at h
      obtain ⟨⟨hindex, harray⟩, helement⟩ := h
      obtain ⟨elements, rfl⟩ := exists_array hs hv harray
      obtain ⟨hnext, helements⟩ := element?_allows hs hv helement
      simp only [hindex, if_true] at hw
      exact ⟨hnext, helements elements rfl w (List.mem_of_getElem? hw)⟩

/-- Along any segments, what is there is allowed. -/
theorem walkFrom_allows (hs : s.Unambiguous) (hv : s.Allows v) {segments : List String}
    {index : Nat} {found : Schema} (h : s.walkFrom index segments = .ok found) {w : Value}
    (hw : segments.foldlM Value.step? v = some w) : found.Allows w := by
  induction segments generalizing s v index with
  | nil =>
    cases h
    cases hw
    exact hv
  | cons segment rest ih =>
    rw [walkFrom] at h
    rw [List.foldlM_cons] at hw
    obtain ⟨u, hu, hrest⟩ := Option.bind_eq_some_iff.mp hw
    split at h
    · next next hnext =>
      obtain ⟨hunambiguous, hallows⟩ := step?_allows hs hv hnext hu
      exact ih hunambiguous hallows h hrest
    · cases h

/-- **Where schema and value both lead, the schema allows the value.** -/
theorem walk_allows (hs : s.Unambiguous) (hv : s.Allows v) {segments : List String} {found : Schema}
    (h : s.walk segments = .ok found) {w : Value} (hw : v.walk? segments = some w) :
    found.Allows w := by
  unfold Value.walk? at hw
  split at hw
  · next u hu =>
    split at hw
    · cases hw
    · cases hw
      exact walkFrom_allows hs hv h hu
  · cases hw

/-- What a value has at the end of segments is missing or allowed. -/
theorem follow_allows (hs : s.Unambiguous) (hv : s.Allows v) {segments : List String}
    {found : Schema} (h : s.walk segments = .ok found) :
    v.follow segments = .undefined ∨ found.Allows (v.follow segments) := by
  unfold Value.follow
  cases hw : v.walk? segments with
  | none => exact .inl rfl
  | some w => exact .inr (walk_allows hs hv h hw)

end Schema

end TypedTemplate
