import TypedTemplate.Proofs.Execution.Scalars
import TypedTemplate.Proofs.Schema.Walk

/-!
# What a schema says of its values

The analysis never sees a value. It knows a schema by the types that it admits, by the kind of
scalar that it admits alone, and by whether another schema accepts it. A value *inhabits* a schema
when it has one of its types, is one of the values that it lists, and inhabits its branches: every
conjunct, and one of the alternatives where there are any. This file says that what the analysis
knows is true of every value that inhabits the schema, however its branches are nested and whichever
keywords stand together.

* `Value.Inhabits`: the condition; `Value.inhabits_iff` says it keyword by keyword.
* `Schema.induction`: induction over the parts of a schema.
* `hasOneOf_of_declaredTypes?`: the types that a schema names itself.
* **`hasOneOf_of_types?`**: the types that a schema admits.
* `HasOneOf.of_accepts`, `HasOneOf.isOf`: from one schema to one that accepts it, and to a kind of
  scalar.
* **`abstractions_sound`**: all three for every value that inhabits the schema.
-/

namespace TypedTemplate

/-! ## Values of a schema -/

namespace Value

mutual

/-- **The value inhabits the schema.** Keywords about the parts of a value have no say in it. -/
def Inhabits (v : Value) : Schema → Prop
  | ⟨type, _, _, _, enum, const, _, anyOf, oneOf, allOf⟩ =>
    (∀ tag, type = some tag → v.HasOneOf tag.names) ∧ (∀ c, const = some c → v = c) ∧
      (∀ vs, enum = some vs → v ∈ vs) ∧ (anyOf ≠ [] → InhabitsSome v anyOf) ∧
      (oneOf ≠ [] → InhabitsSome v oneOf) ∧ InhabitsAll v allOf
termination_by structural s => s

/-- The value inhabits one of the branches. -/
def InhabitsSome (v : Value) : List Schema → Prop
  | [] => False
  | b :: rest => Inhabits v b ∨ InhabitsSome v rest
termination_by structural bs => bs

/-- The value inhabits each of the branches. -/
def InhabitsAll (v : Value) : List Schema → Prop
  | [] => True
  | b :: rest => Inhabits v b ∧ InhabitsAll v rest
termination_by structural bs => bs

end

theorem inhabitsSome_iff {v : Value} {bs : List Schema} :
    InhabitsSome v bs ↔ ∃ b ∈ bs, v.Inhabits b := by
  induction bs with
  | nil => simp [InhabitsSome]
  | cons b rest ih => simp [InhabitsSome, ih]

theorem inhabitsAll_iff {v : Value} {bs : List Schema} :
    InhabitsAll v bs ↔ ∀ b ∈ bs, v.Inhabits b := by
  induction bs with
  | nil => simp [InhabitsAll]
  | cons b rest ih => simp [InhabitsAll, ih]

/-- **What it takes to inhabit a schema**, keyword by keyword. -/
theorem inhabits_iff {v : Value} {s : Schema} :
    v.Inhabits s ↔
      (∀ tag, s.type = some tag → v.HasOneOf tag.names) ∧ (∀ c, s.const = some c → v = c) ∧
        (∀ vs, s.enum = some vs → v ∈ vs) ∧ (s.anyOf ≠ [] → ∃ b ∈ s.anyOf, v.Inhabits b) ∧
        (s.oneOf ≠ [] → ∃ b ∈ s.oneOf, v.Inhabits b) ∧ ∀ b ∈ s.allOf, v.Inhabits b := by
  rw [← inhabitsSome_iff, ← inhabitsSome_iff, ← inhabitsAll_iff]
  cases s
  exact Iff.rfl

end Value

/-- **Induction over a schema**, its properties and branches being members of lists. -/
@[elab_as_elim]
theorem Schema.induction {motive : Schema → Prop}
    (step : ∀ s : Schema, (∀ p ∈ s.properties, motive p.2) → (∀ i, s.items = some i → motive i) →
      (∀ b ∈ s.anyOf, motive b) → (∀ b ∈ s.oneOf, motive b) → (∀ b ∈ s.allOf, motive b) → motive s)
    (s : Schema) : motive s :=
  Schema.rec (motive_1 := motive) (motive_2 := fun ps => ∀ p ∈ ps, motive p.2)
    (motive_3 := fun item => ∀ i, item = some i → motive i)
    (motive_4 := fun bs => ∀ b ∈ bs, motive b) (motive_5 := fun p => motive p.2)
    (fun _ _ _ _ _ _ _ _ _ _ properties items anyOf oneOf allOf =>
      step _ properties items anyOf oneOf allOf)
    (fun _ h => absurd h List.not_mem_nil)
    (fun _ _ head tail _ h => (List.mem_cons.mp h).elim (fun heq => heq ▸ head) (tail _))
    (fun _ h => by cases h)
    (fun _ ih _ h => Option.some.inj h ▸ ih)
    (fun _ h => absurd h List.not_mem_nil)
    (fun _ _ head tail _ h => (List.mem_cons.mp h).elim (fun heq => heq ▸ head) (tail _))
    (fun _ _ h => h) s

/-! ## Sets of types -/

namespace TypeSet

theorem mem_ofList {ts : List TypeName} {t : TypeName} : t ∈ ofList ts ↔ t ∈ ts := by
  have hall : t ∈ TypeName.all := by cases t <;> decide
  simp [ofList, hall]

theorem mem_union {a b : TypeSet} {t : TypeName} : t ∈ union a b ↔ t ∈ a ∨ t ∈ b := by
  rw [union, mem_ofList, List.mem_append]

/-- The types of listed values have that of each of them. -/
theorem mem_of_ofValues? {vs : List Value} {ts : TypeSet} (h : ofValues? vs = some ts) {v : Value}
    (hv : v ∈ vs) : ∃ t ∈ ts, TypeName.ofValue? v = some t := by
  obtain ⟨us, hus, rfl⟩ := Option.map_eq_some_iff.mp h
  simp only [mem_ofList]
  clear h
  induction vs generalizing us with
  | nil => cases hv
  | cons w vs ih =>
    rw [List.mapM_cons] at hus
    obtain ⟨t, ht, hrest⟩ := Option.bind_eq_some_iff.mp hus
    obtain ⟨us', hus', heq⟩ := Option.bind_eq_some_iff.mp hrest
    cases heq
    rcases List.mem_cons.mp hv with rfl | hv
    · exact ⟨t, List.mem_cons_self, ht⟩
    · obtain ⟨u, hu, hvu⟩ := ih hv us' hus'
      exact ⟨u, List.mem_cons_of_mem t hu, hvu⟩

end TypeSet

namespace Schema

/-- The types that a schema admits: its own, or the union over alternatives, or the first that a
conjunct gives. -/
theorem types?_eq (s : Schema) :
    s.types? =
      match s.declaredTypes? with
      | some ts => some ts
      | none =>
        if !s.anyOf.isEmpty then unionTypes? s.anyOf
        else if !s.oneOf.isEmpty then unionTypes? s.oneOf
        else firstTypes? s.allOf := by
  cases s
  rfl

/-- The union over alternatives has the types of each of them. -/
theorem exists_types_of_unionTypes? {bs : List Schema} {ts : TypeSet}
    (h : unionTypes? bs = some ts) {b : Schema} (hb : b ∈ bs) :
    ∃ us, b.types? = some us ∧ ∀ t ∈ us, t ∈ ts := by
  induction bs generalizing ts with
  | nil => cases hb
  | cons c rest ih =>
    rw [unionTypes?] at h
    split at h
    · next us vs hus hvs =>
      cases h
      rcases List.mem_cons.mp hb with rfl | hb
      · exact ⟨us, hus, fun t ht => TypeSet.mem_union.mpr (.inl ht)⟩
      · obtain ⟨ws, hws, hsub⟩ := ih hvs hb
        exact ⟨ws, hws, fun t ht => TypeSet.mem_union.mpr (.inr (hsub t ht))⟩
    · cases h

/-- The types of the first conjunct that gives any. -/
theorem firstTypes?_eq_findSome? (bs : List Schema) : firstTypes? bs = bs.findSome? types? := by
  induction bs with
  | nil => rfl
  | cons b rest ih =>
    rw [firstTypes?, List.findSome?_cons, ih]
    cases types? b <;> rfl

end Schema

/-! ## Soundness -/

section Soundness

variable {s : Schema} {v : Value}

/-- The types that a schema names itself have that of every value of it. -/
theorem hasOneOf_of_declaredTypes? (hv : v.Inhabits s) {ts : TypeSet}
    (h : s.declaredTypes? = some ts) : v.HasOneOf ts := by
  obtain ⟨htype, hconst, henum, -⟩ := Value.inhabits_iff.mp hv
  have hvalues {vs : List Value} (hlisted : TypeSet.ofValues? vs = some ts) (hmem : v ∈ vs) :
      v.HasOneOf ts := by
    obtain ⟨t, ht, hvt⟩ := TypeSet.mem_of_ofValues? hlisted hmem
    exact ⟨t, ht, .inl hvt⟩
  unfold Schema.declaredTypes? at h
  split at h
  · next t heq =>
    cases h
    exact (htype _ heq).mono fun u hu => TypeSet.mem_ofList.mpr hu
  · next us heq =>
    cases h
    exact (htype _ heq).mono fun u hu => TypeSet.mem_ofList.mpr hu
  · next c _ heq =>
    exact hvalues h (List.mem_singleton.mpr (hconst c heq))
  · next w ws _ _ heq =>
    exact hvalues h (henum _ heq)
  · cases h

/-- **The types that a schema admits have that of every value of it.** -/
theorem hasOneOf_of_types? (hv : v.Inhabits s) {ts : TypeSet} (h : s.types? = some ts) :
    v.HasOneOf ts := by
  induction s using Schema.induction generalizing ts with
  | step s _ _ ihAnyOf ihOneOf ihAllOf =>
    obtain ⟨-, -, -, hany, hone, hall⟩ := Value.inhabits_iff.mp hv
    rw [Schema.types?_eq] at h
    cases hdeclared : s.declaredTypes? with
    | some us =>
      rw [hdeclared] at h
      cases h
      exact hasOneOf_of_declaredTypes? hv hdeclared
    | none =>
      rw [hdeclared] at h
      simp only [Bool.not_eq_true', List.isEmpty_eq_false_iff] at h
      by_cases hanyOf : s.anyOf ≠ []
      · rw [if_pos hanyOf] at h
        obtain ⟨b, hb, hvb⟩ := hany hanyOf
        obtain ⟨us, hus, hsub⟩ := Schema.exists_types_of_unionTypes? h hb
        exact (ihAnyOf b hb hvb hus).mono hsub
      · rw [if_neg hanyOf] at h
        by_cases honeOf : s.oneOf ≠ []
        · rw [if_pos honeOf] at h
          obtain ⟨b, hb, hvb⟩ := hone honeOf
          obtain ⟨us, hus, hsub⟩ := Schema.exists_types_of_unionTypes? h hb
          exact (ihOneOf b hb hvb hus).mono hsub
        · rw [if_neg honeOf] at h
          rw [Schema.firstTypes?_eq_findSome?] at h
          obtain ⟨b, hb, hts⟩ := List.exists_of_findSome?_eq_some h
          exact ihAllOf b hb (hall b hb) hts

/-- A value of a kind of types is a scalar of the kind. -/
theorem Value.HasOneOf.isOf {ts : TypeSet} (hv : v.HasOneOf ts) (hts : s.types? = some ts)
    {c : Literal.Category} (hc : s.category? = some c) : v.IsOf c := by
  obtain ⟨t, ht, hvt⟩ := hv
  unfold Schema.category? at hc
  rw [hts] at hc
  split at hc
  · cases hc
  · cases hc
  · next us _ heq =>
    cases heq
    split at hc
    · next hnumeric =>
      cases hc
      have hnumber := List.all_eq_true.mp hnumeric t ht
      exact hvt.exists_number (by simpa using hnumber)
    · split at hc
      · next hboolean =>
        cases hc
        rw [hboolean, List.mem_singleton] at ht
        exact (ht ▸ hvt).exists_bool
      · split at hc
        · next hnull =>
          cases hc
          rw [hnull, List.mem_singleton] at ht
          exact (ht ▸ hvt).eq_null
        · cases hc

/-- What one schema admits, another schema that accepts it admits too. -/
theorem Value.HasOneOf.of_accepts {e : Schema} (haccepts : e.accepts s = true) {es ts : TypeSet}
    (hes : e.types? = some es) (hts : s.types? = some ts) (hv : v.HasOneOf ts) :
    v.HasOneOf es := by
  obtain ⟨t, ht, hvt⟩ := hv
  unfold Schema.accepts at haccepts
  rw [hes, hts] at haccepts
  have hadmits := List.all_eq_true.mp haccepts t ht
  unfold Schema.admits at hadmits
  simp only [Bool.or_eq_true, Bool.and_eq_true, List.contains_iff_mem, decide_eq_true_eq] at hadmits
  rcases hadmits with hmem | ⟨rfl, hmem⟩
  · exact ⟨t, hmem, hvt⟩
  · -- An integer is expected to be a number, and a value of type integer has no other type.
    have hinteger : TypeName.ofValue? v = some .integer := by
      rcases hvt with h | ⟨h, -⟩
      · exact h
      · cases h
    exact ⟨.number, hmem, .inr ⟨rfl, hinteger⟩⟩

/-- **What the analysis knows of a schema is true of its values.** Every value that inhabits the
schema has one of the types that the schema admits, unless it leaves them open; it is a scalar of
the kind that the schema admits alone; and it has one of the types of every schema that accepts this
one, unless either leaves them open. What the parts of the value are, and whether they are there at
all, makes no difference. -/
theorem abstractions_sound (hv : v.Inhabits s) :
    (∀ ts, s.types? = some ts → v.HasOneOf ts) ∧
      (∀ c, s.category? = some c → v.IsOf c) ∧
      ∀ e : Schema, e.accepts s = true → ∀ es ts, e.types? = some es → s.types? = some ts →
        v.HasOneOf es := by
  refine ⟨fun ts hts => hasOneOf_of_types? hv hts, ?_, ?_⟩
  · intro c hc
    cases hts : s.types? with
    | some ts => exact (hasOneOf_of_types? hv hts).isOf hts hc
    | none =>
      unfold Schema.category? at hc
      rw [hts] at hc
      cases hc
  · intro e haccepts es ts hes hts
    exact .of_accepts haccepts hes hts (hasOneOf_of_types? hv hts)

end Soundness

/-- An amount: any number, or one of a few; a conjunct allows texts as well. -/
def amountSchema : Schema :=
  { Schema.any with
    anyOf := [.ofType .number, { Schema.any with oneOf := [
      { Schema.any with const := some (.number (.uint 5)) },
      { Schema.any with enum := some [.number (.uint 1), .number (.uint 2)] }] }]
    allOf := [.any, { Schema.any with type := some (.many [.string, .number]) }] }

/-- Five is an amount, and is known to be a number by its type, by its kind and by what accepts
amounts. -/
theorem amount_sound :
    ∃ v : Value, v.Inhabits amountSchema ∧ v.HasOneOf [.number, .integer] ∧ v.IsOf .number ∧
      v.HasOneOf [.number] := by
  have hinhabits : (Value.number (.uint 5)).Inhabits amountSchema := by
    simp [amountSchema, Schema.any, Schema.ofType, Value.Inhabits, Value.InhabitsSome,
      Value.InhabitsAll, Value.HasOneOf, Value.HasType, TypeTag.names, TypeName.ofValue?,
      Number.isInteger]
  obtain ⟨htypes, hkind, haccepts⟩ := abstractions_sound hinhabits
  exact ⟨.number (.uint 5), hinhabits, htypes _ rfl, hkind _ rfl,
    haccepts (.ofType .number) rfl _ _ rfl rfl⟩

end TypedTemplate
