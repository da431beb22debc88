import TypedTemplate.Proofs.Schema.Types

/-!
# The levels of a schema

A schema holds schemas of its properties, of its elements and of its branches, however deep. What is
said of each of them is said level by level, and schemas that differ in their values alone are
compared level by level.

* `Everywhere`: something holds of a schema and of all schemas inside it.
* `mapValues`: other enumerations and other constants at every level.
* **`equals_mapValues_iff`**: such schemas are the same just where their values are, at every level.
-/

namespace TypedTemplate.Schema

/-! ## Schemas inside a schema -/

/-- **Something holds of the schema and of all schemas inside it.** -/
inductive Everywhere (P : Schema → Prop) : Schema → Prop where
  | intro {s : Schema} (here : P s) (properties : ∀ e ∈ s.properties, Everywhere P e.2)
    (items : ∀ i, s.items = some i → Everywhere P i) (anyOf : ∀ b ∈ s.anyOf, Everywhere P b)
    (oneOf : ∀ b ∈ s.oneOf, Everywhere P b) (allOf : ∀ b ∈ s.allOf, Everywhere P b) :
    Everywhere P s

variable {s : Schema} {P Q : Schema → Prop}

theorem everywhere_iff :
    s.Everywhere P ↔
      P s ∧ (∀ e ∈ s.properties, e.2.Everywhere P) ∧ (∀ i, s.items = some i → i.Everywhere P) ∧
        (∀ b ∈ s.anyOf, b.Everywhere P) ∧ (∀ b ∈ s.oneOf, b.Everywhere P) ∧
        ∀ b ∈ s.allOf, b.Everywhere P := by
  constructor
  · rintro ⟨here, properties, items, anyOf, oneOf, allOf⟩
    exact ⟨here, properties, items, anyOf, oneOf, allOf⟩
  · rintro ⟨here, properties, items, anyOf, oneOf, allOf⟩
    exact .intro here properties items anyOf oneOf allOf

/-- A schema without schemas inside it has one level. -/
theorem everywhere_of_leaf (here : P s) (properties : s.properties = []) (items : s.items = none)
    (anyOf : s.anyOf = []) (oneOf : s.oneOf = []) (allOf : s.allOf = []) : s.Everywhere P := by
  rw [everywhere_iff, properties, items, anyOf, oneOf, allOf]
  simp [here]

theorem Everywhere.imp (h : s.Everywhere P) (himp : ∀ t, P t → Q t) : s.Everywhere Q := by
  induction h with
  | intro here _ _ _ _ _ properties items anyOf oneOf allOf =>
    exact .intro (himp _ here) properties items anyOf oneOf allOf

theorem Everywhere.and (hp : s.Everywhere P) (hq : s.Everywhere Q) :
    s.Everywhere fun t => P t ∧ Q t := by
  induction hp with
  | intro here _ _ _ _ _ properties items anyOf oneOf allOf =>
    obtain ⟨here', properties', items', anyOf', oneOf', allOf'⟩ := hq
    exact .intro ⟨here, here'⟩ (fun e he => properties e he (properties' e he))
      (fun i hi => items i hi (items' i hi)) (fun b hb => anyOf b hb (anyOf' b hb))
      (fun b hb => oneOf b hb (oneOf' b hb)) fun b hb => allOf b hb (allOf' b hb)

/-! ## Other values -/

section Values

variable (enum : Option (List Value) → Option (List Value)) (const : Option Value → Option Value)

mutual

/-- The schema with other enumerations and other constants, at every level. -/
def mapValues : Schema → Schema
  | ⟨t, d, ps, i, e, c, r, any, one, all⟩ =>
    ⟨t, d, mapValuesProperties ps, mapValuesItems i, enum e, const c, r, mapValuesBranches any,
      mapValuesBranches one, mapValuesBranches all⟩
termination_by structural s => s

/-- The properties with other values. -/
def mapValuesProperties : List (String × Schema) → List (String × Schema)
  | [] => []
  | (k, s) :: rest => (k, mapValues s) :: mapValuesProperties rest
termination_by structural ps => ps

/-- The element schema with other values. -/
def mapValuesItems : Option Schema → Option Schema
  | none => none
  | some s => some (mapValues s)
termination_by structural i => i

/-- The branches with other values. -/
def mapValuesBranches : List Schema → List Schema
  | [] => []
  | s :: rest => mapValues s :: mapValuesBranches rest
termination_by structural bs => bs

end

theorem mapValuesProperties_eq (ps : List (String × Schema)) :
    mapValuesProperties enum const ps = ps.map fun e => (e.1, e.2.mapValues enum const) := by
  induction ps with
  | nil => rfl
  | cons e rest ih => exact congrArg (_ :: ·) ih

theorem mapValuesItems_eq (i : Option Schema) :
    mapValuesItems enum const i = i.map (mapValues enum const) := by
  cases i <;> rfl

theorem mapValuesBranches_eq (bs : List Schema) :
    mapValuesBranches enum const bs = bs.map (mapValues enum const) := by
  induction bs with
  | nil => rfl
  | cons b rest ih => exact congrArg (_ :: ·) ih

/-- Other values, keyword by keyword. -/
theorem mapValues_eq (s : Schema) :
    s.mapValues enum const =
      ⟨s.type, s.description, s.properties.map fun e => (e.1, e.2.mapValues enum const),
        s.items.map (mapValues enum const), enum s.enum, const s.const, s.required,
        s.anyOf.map (mapValues enum const), s.oneOf.map (mapValues enum const),
        s.allOf.map (mapValues enum const)⟩ := by
  obtain ⟨t, d, ps, i, e, c, r, any, one, all⟩ := s
  simp only [mapValues, mapValuesProperties_eq, mapValuesItems_eq, mapValuesBranches_eq]

end Values

/-! ## Equality -/

/-- Schemas are the same, keyword by keyword. -/
theorem equals_iff {s t : Schema} :
    s.equals t = true ↔
      s.type = t.type ∧ s.description = t.description ∧
        equalsProperties s.properties t.properties = true ∧ equalsItems s.items t.items = true ∧
        equalsEnum s.enum t.enum = true ∧ equalsConst s.const t.const = true ∧
        s.required = t.required ∧ equalsBranches s.anyOf t.anyOf = true ∧
        equalsBranches s.oneOf t.oneOf = true ∧ equalsBranches s.allOf t.allOf = true := by
  cases s
  simp only [equals, Bool.and_eq_true, decide_eq_true_eq, and_assoc]

section Equality

variable (f g : Schema → Schema)

theorem equalsProperties_map_iff {ps : List (String × Schema)} :
    equalsProperties (ps.map fun e => (e.1, f e.2)) (ps.map fun e => (e.1, g e.2)) = true ↔
      ∀ e ∈ ps, (f e.2).equals (g e.2) = true := by
  induction ps with
  | nil => simp [equalsProperties]
  | cons e rest ih => simp [equalsProperties, ih]

theorem equalsItems_map_iff {i? : Option Schema} :
    equalsItems (i?.map f) (i?.map g) = true ↔ ∀ i, i? = some i → (f i).equals (g i) = true := by
  cases i? with
  | none => simp [equalsItems]
  | some i => simp [equalsItems]

theorem equalsBranches_map_iff {bs : List Schema} :
    equalsBranches (bs.map f) (bs.map g) = true ↔ ∀ b ∈ bs, (f b).equals (g b) = true := by
  induction bs with
  | nil => simp [equalsBranches]
  | cons b rest ih => simp [equalsBranches, ih]

end Equality

variable (enum enum' : Option (List Value) → Option (List Value))
  (const const' : Option Value → Option Value)

/-- **Schemas that differ in their values alone are the same just where the values are the same at
every level.** -/
theorem equals_mapValues_iff (s : Schema) :
    (s.mapValues enum const).equals (s.mapValues enum' const') = true ↔
      s.Everywhere fun t =>
        equalsEnum (enum t.enum) (enum' t.enum) = true ∧
          equalsConst (const t.const) (const' t.const) = true := by
  induction s using Schema.induction with
  | step s properties items anyOf oneOf allOf =>
    have hproperties := forall₂_congr properties
    have hitems := forall₂_congr items
    have hany := forall₂_congr anyOf
    have hone := forall₂_congr oneOf
    have hall := forall₂_congr allOf
    rw [everywhere_iff, equals_iff, mapValues_eq, mapValues_eq]
    simp only [equalsProperties_map_iff, equalsItems_map_iff, equalsBranches_map_iff, hproperties,
      hitems, hany, hone, hall, true_and]
    constructor
    · rintro ⟨hps, hi, hvs, hc, hany, hone, hall⟩
      exact ⟨⟨hvs, hc⟩, hps, hi, hany, hone, hall⟩
    · rintro ⟨⟨hvs, hc⟩, hps, hi, hany, hone, hall⟩
      exact ⟨hps, hi, hvs, hc, hany, hone, hall⟩

/-- The schema has its own values. -/
theorem mapValues_id (s : Schema) : s.mapValues id id = s := by
  induction s using Schema.induction with
  | step s properties items anyOf oneOf allOf =>
    have hproperties : (s.properties.map fun e => (e.1, e.2.mapValues id id)) = s.properties := by
      refine (List.map_congr_left fun e he => ?_).trans (List.map_id s.properties)
      exact Prod.ext rfl (properties e he)
    have hitems : s.items.map (mapValues id id) = s.items := by
      cases hs : s.items with
      | none => rfl
      | some i => exact congrArg some (items i hs)
    have hbranches : ∀ bs : List Schema, (∀ b ∈ bs, b.mapValues id id = b) →
        bs.map (mapValues id id) = bs := by
      intro bs hbs
      exact (List.map_congr_left hbs).trans (List.map_id bs)
    rw [mapValues_eq, hproperties, hitems, hbranches _ anyOf, hbranches _ oneOf, hbranches _ allOf]
    cases s
    rfl

end TypedTemplate.Schema
