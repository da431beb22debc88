import TypedTemplate.Proofs.Schema.Walk

/-!
# Plain schemas and complete values

A schema with alternatives says of a value only that it is one of several things. A *plain* schema
has none: each of its parts has one type. A value is *complete* for it when everything that the
schema declares is there. Along any segments that are no index, the walk through a plain schema is
then matched, step by step, by the walk through a complete value.

* `Schema.Plain`, `Schema.Complete`: the two conditions; a plain schema is unambiguous, and allows
  what is complete for it.
* `plain_ofProperties`, `complete_ofProperties`, and the same for `ofType` and `arrayOf`: the
  conditions for schemas as they are built.
* `exists_property`, `exists_element`: what is declared is there.
* `step?_complete`: one segment.
* **`follow_complete`**: where the schema leads, there is a value, and it is complete again.
-/

namespace TypedTemplate

/-! ## Conditions -/

namespace Schema

/-- **A plain schema**: no alternatives, and one type at every part. -/
inductive Plain : Schema → Prop where
  | intro {s : Schema} (t : TypeName) (type : s.type = some (.single t)) (anyOf : s.anyOf = [])
    (oneOf : s.oneOf = []) (names : ∀ p ∈ s.properties, isIndexSegment p.1 = false)
    (objectOnly : s.properties ≠ [] → t = .object) (arrayItems : t = .array → s.items ≠ none)
    (properties : ∀ p ∈ s.properties, Plain p.2) (items : ∀ i, s.items = some i → Plain i)
    (allOf : ∀ b ∈ s.allOf, Plain b) : Plain s

/-- **A complete value**: it has the type of the schema, and all that the schema declares. -/
inductive Complete : Schema → Value → Prop where
  | intro {s : Schema} {v : Value} (type : ∀ t, s.type = some (.single t) → v.HasType t)
    (items : ∀ i elements, s.items = some i → v = .array elements → ∀ w ∈ elements, Complete i w)
    (present : ∀ members, v = .object members → ∀ p ∈ s.properties,
      Dict.get? p.1 members ≠ none)
    (properties : ∀ members, v = .object members → ∀ p ∈ s.properties, ∀ w,
      Dict.get? p.1 members = some w → Complete p.2 w)
    (allOf : ∀ b ∈ s.allOf, Complete b v) : Complete s v

variable {s : Schema} {v : Value}

theorem Plain.exists_type (hs : s.Plain) : ∃ t, s.type = some (.single t) := by
  cases hs with
  | intro t type => exact ⟨t, type⟩

theorem Plain.unambiguous (hs : s.Plain) : s.Unambiguous := by
  induction hs with
  | intro t type anyOf oneOf names _ _ _ _ _ properties items allOf =>
    exact .intro t type anyOf oneOf names properties items allOf

/-- A plain schema allows what is complete for it. -/
theorem Complete.allows (hs : s.Plain) (hv : s.Complete v) : s.Allows v := by
  induction hs generalizing v with
  | intro t type _ _ _ _ _ _ _ _ properties items allOf =>
    cases hv with
    | intro typed elements _ members conjuncts =>
      refine .intro ?_ ?_ ?_ ?_
      · intro tag htag
        rw [type] at htag
        cases htag
        exact Value.hasOneOf_single.mpr (typed t type)
      · exact fun i ws hi harray w hw => items i hi (elements i ws hi harray w hw)
      · intro ms hobject name p hp w hw
        have hmem := Dict.mem_of_get? hp
        exact properties _ hmem (members ms hobject _ hmem w hw)
      · exact fun b hb => allOf b hb (conjuncts b hb)

theorem Complete.ne_undefined (hs : s.Plain) (hv : s.Complete v) : v ≠ .undefined := by
  obtain ⟨t, ht⟩ := hs.exists_type
  cases hv with
  | intro type => exact (type t ht).ne_undefined

/-- The schema of one type other than array, without anything else. -/
theorem plain_ofType {t : TypeName} (h : t ≠ .array) : (ofType t).Plain :=
  .intro t rfl rfl rfl (fun _ hp => absurd hp List.not_mem_nil) (fun hne => absurd rfl hne)
    (fun ht => absurd ht h) (fun _ hp => absurd hp List.not_mem_nil)
    (fun _ hi => by cases hi) (fun _ hb => absurd hb List.not_mem_nil)

theorem complete_ofType {t : TypeName} (h : v.HasType t) : (ofType t).Complete v :=
  .intro (fun t' ht' => by cases ht'; exact h) (fun _ _ hi => by cases hi)
    (fun _ _ _ hp => absurd hp List.not_mem_nil) (fun _ _ _ hp => absurd hp List.not_mem_nil)
    (fun _ hb => absurd hb List.not_mem_nil)

/-- The schema of an array with elements of a schema. -/
def arrayOf (i : Schema) : Schema := { ofType .array with items := some i }

theorem plain_arrayOf {i : Schema} (h : i.Plain) : (arrayOf i).Plain :=
  .intro .array rfl rfl rfl (fun _ hp => absurd hp List.not_mem_nil) (fun hne => absurd rfl hne)
    (fun _ => Option.some_ne_none i) (fun _ hp => absurd hp List.not_mem_nil)
    (fun _ hi => by cases hi; exact h) (fun _ hb => absurd hb List.not_mem_nil)

theorem complete_arrayOf {i : Schema} {elements : List Value} (h : ∀ w ∈ elements, i.Complete w) :
    (arrayOf i).Complete (.array elements) :=
  .intro (fun t ht => by cases ht; exact .inl rfl)
    (fun _ _ hi hv => by cases hi; cases hv; exact h)
    (fun _ _ _ hp => absurd hp List.not_mem_nil) (fun _ _ _ hp => absurd hp List.not_mem_nil)
    (fun _ hb => absurd hb List.not_mem_nil)

theorem plain_ofProperties {properties : Dict Schema}
    (h : ∀ p ∈ properties, isIndexSegment p.1 = false ∧ p.2.Plain) :
    (ofProperties properties).Plain :=
  .intro .object rfl rfl rfl (fun p hp => (h p hp).1) (fun _ => rfl) (fun ht => by cases ht)
    (fun p hp => (h p hp).2) (fun _ hi => by cases hi) (fun _ hb => absurd hb List.not_mem_nil)

theorem complete_ofProperties {properties : Dict Schema} {members : Dict Value}
    (h : ∀ p ∈ properties, ∃ w, Dict.get? p.1 members = some w ∧ p.2.Complete w) :
    (ofProperties properties).Complete (.object members) := by
  refine .intro (fun t ht => by cases ht; exact .inl rfl) (fun _ _ hi => by cases hi) ?_ ?_
    (fun _ hb => absurd hb List.not_mem_nil)
  · intro _ hv p hp hnone
    cases hv
    obtain ⟨w, hw, -⟩ := h p hp
    rw [hw] at hnone
    cases hnone
  · intro _ hv p hp w hw
    cases hv
    obtain ⟨w', hw', hcomplete⟩ := h p hp
    rw [hw] at hw'
    exact Option.some.inj hw' ▸ hcomplete

/-! ## Properties -/

/-- **A property that the schema leads to is there.** -/
theorem exists_property (hs : s.Plain) (hv : s.Complete v) {name : String} {p : Schema}
    (h : s.property? name = some p) :
    p.Plain ∧ ∃ members w, v = .object members ∧ Dict.get? name members = some w ∧
      p.Complete w := by
  induction hs with
  | intro t type anyOf oneOf _ objectOnly _ hproperties _ _ _ _ ihAllOf =>
    cases hv with
    | intro typed _ present properties allOf =>
      rw [property?_eq, anyOf, oneOf] at h
      cases hown : Dict.get? name _ with
      | some q =>
        rw [hown] at h
        cases h
        have hmem := Dict.mem_of_get? hown
        obtain rfl := objectOnly (List.ne_nil_of_mem hmem)
        obtain ⟨members, rfl⟩ := (typed _ type).exists_object
        obtain ⟨w, hw⟩ := Option.ne_none_iff_exists'.mp (present members rfl _ hmem)
        exact ⟨hproperties _ hmem, members, w, rfl, hw, properties members rfl _ hmem w hw⟩
      | none =>
        rw [hown] at h
        obtain ⟨b, hb, hbp⟩ := exists_branch_of_propertyIn? h
        exact ihAllOf b hb (allOf b hb) hbp

/-! ## Arrays -/

/-- **The elements of an array are complete** for the element schema, and there is one. -/
theorem exists_element {elements : List Value} (hs : s.Plain) (hv : s.Complete (.array elements)) :
    ∃ i, s.element? = some i ∧ i.Plain ∧ ∀ w ∈ elements, i.Complete w := by
  cases hs with
  | intro t type _ _ _ _ arrayItems _ plainItems =>
    cases hv with
    | intro typed items =>
      obtain ⟨i, hi⟩ := Option.ne_none_iff_exists'.mp (arrayItems (typed t type).eq_array)
      refine ⟨i, ?_, plainItems i hi, items i elements hi rfl⟩
      obtain ⟨_, _, _, own, _, _, _, _, _, _⟩ := s
      obtain rfl : own = some i := hi
      rfl

/-! ## Walking -/

/-- One segment further, schema and value lead to the same place. -/
theorem step?_complete (hs : s.Plain) (hv : s.Complete v) {segment : String}
    (hsegment : isIndexSegment segment = false) {next : Schema} (h : s.step? segment = some next) :
    next.Plain ∧ ∃ w, v.step? segment = some w ∧ next.Complete w := by
  rw [step?] at h
  by_cases hself : isSelfSegment segment = true
  · rw [if_pos hself] at h
    cases h
    exact ⟨hs, v, if_pos hself, hv⟩
  · rw [if_neg hself] at h
    split at h
    · next p hp =>
      cases h
      obtain ⟨hplain, members, w, rfl, hw, hcomplete⟩ := exists_property hs hv hp
      exact ⟨hplain, w, (if_neg hself).trans hw, hcomplete⟩
    · rw [hsegment] at h
      cases h

/-- Along segments that are no index, the walk through the schema is matched by the value. -/
theorem walkFrom_complete (hs : s.Plain) (hv : s.Complete v) {segments : List String}
    (hsegments : ∀ segment ∈ segments, isIndexSegment segment = false) {index : Nat}
    {found : Schema} (h : s.walkFrom index segments = .ok found) :
    found.Plain ∧ ∃ w, segments.foldlM Value.step? v = some w ∧ found.Complete w := by
  induction segments generalizing s v index with
  | nil =>
    cases h
    exact ⟨hs, v, rfl, hv⟩
  | cons segment rest ih =>
    rw [List.forall_mem_cons] at hsegments
    rw [walkFrom] at h
    split at h
    · next next hnext =>
      obtain ⟨hplain, w, hw, hcomplete⟩ := step?_complete hs hv hsegments.1 hnext
      rw [List.foldlM_cons, hw]
      exact ih hplain hcomplete hsegments.2 h
    · cases h

/-- **Where a plain schema leads, a complete value has something complete.** -/
theorem follow_complete (hs : s.Plain) (hv : s.Complete v) {segments : List String}
    (hsegments : ∀ segment ∈ segments, isIndexSegment segment = false) {found : Schema}
    (h : s.walk segments = .ok found) : found.Plain ∧ found.Complete (v.follow segments) := by
  obtain ⟨hplain, w, hw, hcomplete⟩ := walkFrom_complete hs hv hsegments h
  have hdefined : w.isUndefined = false := by
    cases w with
    | undefined => exact absurd rfl (Complete.ne_undefined hplain hcomplete)
    | _ => rfl
  rw [Value.follow, Value.walk?, hw]
  simp only [hdefined, Bool.false_eq_true, if_false]
  exact ⟨hplain, hcomplete⟩

end Schema

end TypedTemplate
