import TypedTemplate.Proofs.Schema.Types

/-!
# What could have stood in place of a missing segment

Where a schema does not lead along a segment, the miss lists the names that could have stood there.
The names are gathered by one recursion through the branches of the schema and a property is looked
for by another one, which stops at the first branch that has it. The two agree, whatever is nested
in whatever: a name is listed just when the search finds something.

* `Dict.isSome_get?_iff`: the keys of a dictionary are what is found in it.
* `isSome_property?_iff`, `mem_propertyNames_iff`: the names that are gathered are those that are
  found.
* `walkFrom_eq_error_iff`: a walk misses at the first segment that the schema at hand does not lead
  along.
* `index_le_of_walkFrom`: no miss lies before the segments that are walked.
* **`misses_suggest`**: a miss points at its segment, lists just the properties of the schema there,
  and each of them leads on.
-/

namespace TypedTemplate

/-- A key is listed just when it has a value. -/
theorem Dict.isSome_get?_iff {α : Type} {key : String} {d : Dict α} :
    (Dict.get? key d).isSome = true ↔ key ∈ d.keys := by
  induction d with
  | nil => simp [get?, keys]
  | cons e rest ih =>
    obtain ⟨k, v⟩ := e
    unfold get?
    by_cases h : k = key
    · simp [h, keys]
    · rw [if_neg h, ih]
      simp [keys, Ne.symm h]

namespace Schema

/-! ## Names that are gathered and names that are found -/

theorem declaredNames_eq (s : Schema) :
    s.declaredNames =
      Dict.keys s.properties ++ declaredNamesIn s.anyOf ++ declaredNamesIn s.oneOf ++
        declaredNamesIn s.allOf := by
  cases s
  rfl

theorem declaredNamesIn_eq_flatMap (bs : List Schema) :
    declaredNamesIn bs = bs.flatMap declaredNames := by
  induction bs with
  | nil => rfl
  | cons b rest ih => rw [declaredNamesIn, List.flatMap_cons, ih]

/-- If branch by branch the search finds what is gathered, then so it does in all of them. -/
theorem isSome_propertyIn?_iff {name : String} {bs : List Schema}
    (h : ∀ b ∈ bs, ((b.property? name).isSome = true ↔ name ∈ b.declaredNames)) :
    (propertyIn? name bs).isSome = true ↔ name ∈ declaredNamesIn bs := by
  rw [propertyIn?_eq_findSome?, declaredNamesIn_eq_flatMap, List.findSome?_isSome_iff,
    List.mem_flatMap]
  constructor
  · rintro ⟨b, hb, hfound⟩
    exact ⟨b, hb, (h b hb).mp hfound⟩
  · rintro ⟨b, hb, hdeclared⟩
    exact ⟨b, hb, (h b hb).mpr hdeclared⟩

/-- **The search finds a property just when its name is gathered**, however the branches are
nested. -/
theorem isSome_property?_iff {name : String} {s : Schema} :
    (s.property? name).isSome = true ↔ name ∈ s.declaredNames := by
  induction s using Schema.induction with
  | step s _ _ ihAnyOf ihOneOf ihAllOf =>
    rw [property?_eq, declaredNames_eq]
    simp only [Option.orElse_eq_or, Option.isSome_or, Bool.or_eq_true, List.mem_append, Dict.isSome_get?_iff,
      isSome_propertyIn?_iff ihAnyOf, isSome_propertyIn?_iff ihOneOf,
      isSome_propertyIn?_iff ihAllOf]

theorem mem_propertyNames_iff {name : String} {s : Schema} :
    name ∈ s.propertyNames ↔ (s.property? name).isSome = true := by
  rw [propertyNames, Text.mem_sortNames, isSome_property?_iff]

/-- A property that is found leads on. -/
theorem exists_step?_of_property? {name : String} {s : Schema}
    (h : (s.property? name).isSome = true) : ∃ next, s.step? name = some next := by
  obtain ⟨p, hp⟩ := Option.isSome_iff_exists.mp h
  unfold step?
  by_cases hself : isSelfSegment name = true
  · exact ⟨s, if_pos hself⟩
  · rw [if_neg hself, hp]
    exact ⟨p, rfl⟩

/-! ## Where a walk misses -/

/-- **A walk misses at the first segment that the schema at hand does not lead along**, and the miss
lists the properties of that schema. -/
theorem walkFrom_eq_error_iff {s : Schema} {index : Nat} {segments : List String} {miss : Miss} :
    s.walkFrom index segments = .error miss ↔
      ∃ before segment after t, segments = before ++ segment :: after ∧
        s.walkFrom index before = .ok t ∧ t.step? segment = none ∧
          miss = ⟨index + before.length, segment, t.propertyNames⟩ := by
  constructor
  · intro h
    induction segments generalizing s index with
    | nil => cases h
    | cons segment rest ih =>
      rw [walkFrom] at h
      cases hstep : s.step? segment with
      | none =>
        rw [hstep] at h
        cases h
        exact ⟨[], segment, rest, s, rfl, rfl, hstep, rfl⟩
      | some next =>
        rw [hstep] at h
        obtain ⟨before, missing, after, t, rfl, hbefore, hnone, rfl⟩ := ih h
        refine ⟨segment :: before, missing, after, t, rfl, ?_, hnone, ?_⟩
        · rw [walkFrom, hstep]
          exact hbefore
        · rw [List.length_cons, Nat.add_assoc, Nat.add_comm 1]
  · rintro ⟨before, segment, after, t, rfl, hbefore, hnone, rfl⟩
    rw [walkFrom_append, hbefore]
    simp only
    rw [walkFrom, hnone]

/-- No miss lies before the segments that are walked. -/
theorem index_le_of_walkFrom {s : Schema} {index : Nat} {segments : List String} {miss : Miss}
    (h : s.walkFrom index segments = .error miss) : index ≤ miss.index := by
  obtain ⟨before, segment, after, t, -, -, -, rfl⟩ := walkFrom_eq_error_iff.mp h
  exact Nat.le_add_right index before.length

/-- With a segment that leads on in place of the one that does not, a walk arrives or misses
later. -/
theorem walk_replaced {s t next : Schema} {before after : List String} {segment : String}
    (hbefore : s.walk before = .ok t) (hnext : t.step? segment = some next) :
    (∃ found, s.walk (before ++ segment :: after) = .ok found) ∨
      ∃ later, s.walk (before ++ segment :: after) = .error later ∧ before.length < later.index := by
  unfold walk at hbefore ⊢
  rw [walkFrom_append, hbefore]
  simp only [Nat.zero_add, walkFrom, hnext]
  cases hrest : next.walkFrom (before.length + 1) after with
  | ok found => exact .inl ⟨found, rfl⟩
  | error later => exact .inr ⟨later, rfl, index_le_of_walkFrom hrest⟩

/-- **A miss says what could have stood there.** The segments before it lead to some schema, and the
segment of the miss is the next one. The names that are available strictly increase, and they are
just those of the properties that the schema has, of which the segment is none; and any of them in
place of the segment leads on, so that the walk arrives or misses at a later segment. -/
theorem misses_suggest {s : Schema} {segments : List String} {miss : Miss}
    (h : s.walk segments = .error miss) :
    (∃ t, s.walk (segments.take miss.index) = .ok t ∧
        ∀ name, name ∈ miss.available ↔ (t.property? name).isSome = true) ∧
      segments[miss.index]? = some miss.segment ∧
      (miss.available.Pairwise fun a b => Text.precedes a b = true) ∧
      miss.segment ∉ miss.available ∧
      ∀ name ∈ miss.available,
        (∃ found, s.walk (segments.set miss.index name) = .ok found) ∨
          ∃ later, s.walk (segments.set miss.index name) = .error later ∧
            miss.index < later.index := by
  obtain ⟨before, segment, after, t, rfl, hbefore, hnone, rfl⟩ := walkFrom_eq_error_iff.mp h
  simp only [Nat.zero_add]
  refine ⟨⟨t, ?_, fun name => mem_propertyNames_iff⟩, ?_, Text.pairwise_sortNames _, ?_, ?_⟩
  · rw [List.take_left]
    exact hbefore
  · simp
  · intro hmem
    obtain ⟨next, hnext⟩ := exists_step?_of_property? (mem_propertyNames_iff.mp hmem)
    rw [hnone] at hnext
    cases hnext
  · intro name hname
    obtain ⟨next, hnext⟩ := exists_step?_of_property? (mem_propertyNames_iff.mp hname)
    rw [List.set_append_right _ _ (Nat.le_refl _), Nat.sub_self, List.set_cons_zero]
    exact walk_replaced hbefore hnext

end Schema

/-- A list of orders: each has a total, and is paid in one of two ways. -/
def ordersSchema : Schema :=
  .ofProperties [("orders", { Schema.any with
    items := some { Schema.any with
      properties := [("total", .ofType .number)]
      allOf := [{ Schema.any with anyOf := [
        .ofProperties [("card", .ofType .string)],
        .ofProperties [("account", .ofType .string), ("total", .ofType .number)]] }] } })]

/-- The first order has no price; it may have an account, which leads on, and then no name. -/
theorem orders_suggest :
    ∃ miss, ordersSchema.walk ["orders", "0", "price", "name"] = .error miss ∧
      miss.available = ["account", "card", "total"] ∧
      ((∃ found, ordersSchema.walk ["orders", "0", "account", "name"] = .ok found) ∨
        ∃ later, ordersSchema.walk ["orders", "0", "account", "name"] = .error later ∧
          2 < later.index) := by
  have hmiss : ordersSchema.walk ["orders", "0", "price", "name"] =
      .error ⟨2, "price", ["account", "card", "total"]⟩ := by
    rfl
  obtain ⟨-, -, -, -, hreplaced⟩ := Schema.misses_suggest hmiss
  exact ⟨_, hmiss, rfl, hreplaced "account" List.mem_cons_self⟩

end TypedTemplate
