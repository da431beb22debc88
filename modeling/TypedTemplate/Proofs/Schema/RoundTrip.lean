import TypedTemplate.Proofs.Schema.Levels
import TypedTemplate.Proofs.Value.RoundTrip
import TypedTemplate.Schema.Reader

/-!
# Schemas survive JSON

A schema is written as a JSON object that leaves out what it does not say, and read from it keyword
by keyword. So a keyword must come back from what is written of it, and must be the default where
nothing is written. Null stands for both in one place: the constant null is written as null, and
null is read as a keyword that is left out.

* `Schema.Exact`: the schemas that JSON says exactly.
* `Schema.toJson_eq`: what is written, keyword by keyword.
* `Schema.Restores`: a keyword comes back; `Schema.ofMembers?_members` reads them one after
  another.
* **`Schema.Exact.ofJson?_toJson`**: such a schema comes back as `Schema.reread`.
* **`Schema.toJson_reads_back`**: what comes back is the schema without its constants null, and so
  the schema itself just where none of its constants is null.
-/

namespace TypedTemplate

@[simp] theorem TypeName.ofText?_text (t : TypeName) : TypeName.ofText? t.text = some t := by
  cases t <;> decide

namespace Schema

/-! ## What JSON says exactly -/

variable {s : Schema}

/-- A constant, unless it is null. -/
def nonNull? : Option Value → Option Value
  | some .null => none
  | c => c

theorem nonNull?_some {c : Value} (h : c ≠ .null) : nonNull? (some c) = some c := by
  cases c with
  | null => exact absurd rfl h
  | _ => rfl

/-- **The schema without its constants null**, at every level. -/
def withoutNulls (s : Schema) : Schema := s.mapValues id nonNull?

/-- **The form in which a schema comes back**: without its constants null, and the integers of its
values without a sign where they need none. -/
def reread (s : Schema) : Schema :=
  s.mapValues (·.map Value.rereadItems) fun c => (nonNull? c).map Value.reread

/-- What JSON says exactly of a schema at its own level: the properties are in key order, and its
values are such that JSON says them exactly. -/
structure ExactHere (s : Schema) : Prop where
  sorted : Dict.Sorted s.properties
  enum : ∀ vs, s.enum = some vs → ∀ v ∈ vs, v.Exact
  const : ∀ c, s.const = some c → c.Exact

/-- **The schemas that JSON says exactly**, at every level. -/
def Exact (s : Schema) : Prop := s.Everywhere ExactHere

/-- **No constant is null**, at any level. -/
def NullFree (s : Schema) : Prop := s.Everywhere fun t => t.const ≠ some .null

/-! ## What is written -/

/-- What a schema says under a keyword, if anything. -/
def said (s : Schema) : Keyword → Option Json
  | .type => s.type.map typeJson
  | .description => s.description.map .string
  | .properties =>
    if s.properties.isEmpty then none else some (.object (toJsonProperties s.properties))
  | .items => s.items.map toJson
  | .enum => s.enum.map fun vs => .array (vs.map Value.toJson)
  | .const => s.const.map Value.toJson
  | .required => if s.required.isEmpty then none else some (textsJson s.required)
  | .anyOf => if s.anyOf.isEmpty then none else some (.array (toJsonBranches s.anyOf))
  | .oneOf => if s.oneOf.isEmpty then none else some (.array (toJsonBranches s.oneOf))
  | .allOf => if s.allOf.isEmpty then none else some (.array (toJsonBranches s.allOf))

/-- The members that say something under some keywords. -/
def members (s : Schema) (ks : List Keyword) : List (String × Json) :=
  ks.flatMap fun k => memberIf k.text (s.said k)

/-- **A schema is written keyword by keyword.** -/
theorem toJson_eq (s : Schema) : s.toJson = .object (s.members Keyword.all) := by
  obtain ⟨t, d, ps, i, e, c, r, any, one, all⟩ := s
  have hitems : toJsonItems i = memberIf "items" (i.map toJson) := by cases i <;> rfl
  simp only [toJson, hitems, members, Keyword.all, List.flatMap_cons, List.flatMap_nil,
    List.append_nil, List.append_assoc, said, Keyword.text]

/-! ## What is read -/

/-- The schema with some of its keywords alone. -/
def keeping (s : Schema) (ks : List Keyword) : Schema where
  type := if .type ∈ ks then s.type else none
  description := if .description ∈ ks then s.description else none
  properties := if .properties ∈ ks then s.properties else []
  items := if .items ∈ ks then s.items else none
  enum := if .enum ∈ ks then s.enum else none
  const := if .const ∈ ks then s.const else none
  required := if .required ∈ ks then s.required else []
  anyOf := if .anyOf ∈ ks then s.anyOf else []
  oneOf := if .oneOf ∈ ks then s.oneOf else []
  allOf := if .allOf ∈ ks then s.allOf else []

theorem keeping_nil (s : Schema) : s.keeping [] = any := by
  simp [keeping, any]

theorem keeping_of_forall_mem (s : Schema) {ks : List Keyword} (h : ∀ k, k ∈ ks) :
    s.keeping ks = s := by
  cases s
  simp [keeping, h]

@[simp] theorem Keyword.ofText?_text (k : Keyword) : Keyword.ofText? k.text = some k := by
  cases k <;> decide

/-- **What one schema says under a keyword is read as what the other has there**: the default where
nothing is said. -/
structure Restores (s t : Schema) (k : Keyword) : Prop where
  silent : s.said k = none → ∀ ks, t.keeping (k :: ks) = t.keeping ks
  said : ∀ j, s.said k = some j →
    ∀ ks, withKeyword? Number.ofJsonLiteral? (t.keeping ks) k j = some (t.keeping (k :: ks))

/-- A keyword that is not yet read is read, or was not written. -/
theorem ofMembers?_memberIf {t : Schema} {k : Keyword} (h : s.Restores t k) {seen : List Keyword}
    (hfresh : k ∉ seen) (done : List Keyword) (rest : List (String × Json)) :
    ∃ seen', (∀ l ∈ seen', l = k ∨ l ∈ seen) ∧
      ofMembers? Number.ofJsonLiteral? seen (t.keeping done) (memberIf k.text (s.said k) ++ rest) =
        ofMembers? Number.ofJsonLiteral? seen' (t.keeping (k :: done)) rest := by
  cases hsaid : s.said k with
  | none =>
    refine ⟨seen, fun l hl => .inr hl, ?_⟩
    rw [h.silent hsaid done]
    rfl
  | some j =>
    refine ⟨k :: seen, fun l hl => List.mem_cons.mp hl, ?_⟩
    simp [memberIf, ofMembers?, hfresh, h.said j hsaid done]

/-- **Keywords are read one after another.** -/
theorem ofMembers?_members {t : Schema} (h : ∀ k, s.Restores t k) {ks seen : List Keyword}
    (hnodup : ks.Nodup) (hfresh : ∀ l ∈ seen, l ∉ ks) (done : List Keyword) :
    ofMembers? Number.ofJsonLiteral? seen (t.keeping done) (s.members ks) =
      some (t.keeping (ks.reverse ++ done)) := by
  induction ks generalizing seen done with
  | nil => rfl
  | cons k ks ih =>
    -- What has been seen are keywords in front of `k`, or `k` itself where it was written.
    obtain ⟨hk, hks⟩ := List.nodup_cons.mp hnodup
    have hknew : k ∉ seen := fun hmem => hfresh k hmem List.mem_cons_self
    obtain ⟨seen', hseen', hstep⟩ := ofMembers?_memberIf (h k) hknew done (s.members ks)
    have hrest : ∀ l ∈ seen', l ∉ ks := by
      intro l hl hmem
      rcases hseen' l hl with rfl | hold
      · exact hk hmem
      · exact hfresh l hold (List.mem_cons_of_mem k hmem)
    have hmembers : s.members (k :: ks) = memberIf k.text (s.said k) ++ s.members ks := rfl
    rw [hmembers, hstep, ih hks hrest]
    simp

/-! ## Keyword by keyword -/

theorem mapM_typeName? (ts : List TypeName) :
    ((ts.map TypeName.text).map Json.string).mapM typeName? = some ts := by
  induction ts with
  | nil => rfl
  | cons t ts ih =>
    simp only [List.map_cons, List.mapM_cons, typeName?, TypeName.ofText?_text, ih]
    rfl

theorem typeTag?_typeJson (tag : TypeTag) : typeTag? (typeJson tag) = some (some tag) := by
  cases tag with
  | single t => simp only [typeJson, typeTag?, typeName?, TypeName.ofText?_text, Option.map_some]
  | many ts => simp only [typeJson, textsJson, typeTag?, mapM_typeName?, Option.map_some]

theorem texts?_textsJson (texts : List String) : texts? (textsJson texts) = some texts := by
  unfold textsJson texts?
  induction texts with
  | nil => rfl
  | cons text texts ih =>
    simp only [List.map_cons, List.mapM_cons, text?, ih]
    rfl

theorem ofProperties?_toJsonProperties {ps : List (String × Schema)}
    (h : ∀ e ∈ ps, ofJson? Number.ofJsonLiteral? e.2.toJson = some e.2.reread) :
    ofProperties? Number.ofJsonLiteral? (toJsonProperties ps) =
      some (ps.map fun e => (e.1, e.2.reread)) := by
  induction ps with
  | nil => rfl
  | cons e rest ih =>
    have hhead := h e List.mem_cons_self
    have htail := ih fun e' he' => h e' (List.mem_cons_of_mem e he')
    simp only [toJsonProperties, ofProperties?, hhead, htail, List.map_cons]

theorem ofBranches?_toJsonBranches {bs : List Schema}
    (h : ∀ b ∈ bs, ofJson? Number.ofJsonLiteral? b.toJson = some b.reread) :
    ofBranches? Number.ofJsonLiteral? (toJsonBranches bs) = some (bs.map reread) := by
  induction bs with
  | nil => rfl
  | cons b rest ih =>
    have hhead := h b List.mem_cons_self
    have htail := ih fun b' hb' => h b' (List.mem_cons_of_mem b hb')
    simp only [toJsonBranches, ofBranches?, hhead, htail, List.map_cons]

variable {t : Schema}

theorem restores_type (h : t.type = s.type) : s.Restores t .type where
  silent hsilent ks := by
    have hnone : s.type = none := Option.map_eq_none_iff.mp hsilent
    simp [keeping, h, hnone]
  said j hsaid ks := by
    obtain ⟨tag, htag, rfl⟩ := Option.map_eq_some_iff.mp hsaid
    rw [withKeyword?_type, typeTag?_typeJson]
    simp [keeping, h, htag]

theorem restores_description (h : t.description = s.description) : s.Restores t .description where
  silent hsilent ks := by
    have hnone : s.description = none := Option.map_eq_none_iff.mp hsilent
    simp [keeping, h, hnone]
  said j hsaid ks := by
    obtain ⟨text, htext, rfl⟩ := Option.map_eq_some_iff.mp hsaid
    rw [withKeyword?_description]
    simp [keeping, h, htext]

theorem restores_properties (hsorted : Dict.Sorted s.properties)
    (hread : ∀ e ∈ s.properties, ofJson? Number.ofJsonLiteral? e.2.toJson = some e.2.reread)
    (h : t.properties = s.properties.map fun e => (e.1, e.2.reread)) :
    s.Restores t .properties where
  silent hsilent ks := by
    have hnil : s.properties = [] := by simpa [said] using hsilent
    simp [keeping, h, hnil]
  said j hsaid ks := by
    have hj : j = .object (toJsonProperties s.properties) := by
      simpa [said] using (Option.ite_none_left_eq_some.mp hsaid).2.symm
    have hkeys : Dict.keys (s.properties.map fun e => (e.1, e.2.reread)) =
        Dict.keys s.properties := by
      simp [Dict.keys]
    have hcollect : Dict.ofList t.properties = t.properties := by
      refine Dict.ofList_of_sorted ?_
      unfold Dict.Sorted
      rw [h, hkeys]
      exact hsorted
    have hproperties := ofProperties?_toJsonProperties hread
    rw [← h] at hproperties
    rw [hj, withKeyword?_properties, hproperties]
    simp [hcollect, keeping]

theorem restores_items
    (hread : ∀ i, s.items = some i → ofJson? Number.ofJsonLiteral? i.toJson = some i.reread)
    (h : t.items = s.items.map reread) : s.Restores t .items where
  silent hsilent ks := by
    have hnone : s.items = none := Option.map_eq_none_iff.mp hsilent
    simp [keeping, h, hnone]
  said j hsaid ks := by
    obtain ⟨i, hi, rfl⟩ := Option.map_eq_some_iff.mp hsaid
    have hmembers := hread i hi
    rw [toJson_eq] at hmembers ⊢
    rw [withKeyword?_items, hmembers]
    simp [keeping, h, hi]

theorem restores_enum (hexact : ∀ vs, s.enum = some vs → ∀ v ∈ vs, v.Exact)
    (h : t.enum = s.enum.map Value.rereadItems) : s.Restores t .enum where
  silent hsilent ks := by
    have hnone : s.enum = none := Option.map_eq_none_iff.mp hsilent
    simp [keeping, h, hnone]
  said j hsaid ks := by
    obtain ⟨vs, hvs, rfl⟩ := Option.map_eq_some_iff.mp hsaid
    have hread := Value.ofJsonItems?_toJsonItems fun v hv => (hexact vs hvs v hv).ofJson?_toJson
    rw [Value.toJsonItems_eq] at hread
    rw [withKeyword?_enum, hread]
    simp [keeping, h, hvs]

theorem restores_const (hexact : ∀ c, s.const = some c → c.Exact)
    (h : t.const = (nonNull? s.const).map Value.reread) : s.Restores t .const where
  silent hsilent ks := by
    have hnone : s.const = none := Option.map_eq_none_iff.mp hsilent
    simp [keeping, h, hnone, nonNull?]
  said j hsaid ks := by
    obtain ⟨c, hc, rfl⟩ := Option.map_eq_some_iff.mp hsaid
    have hread := (hexact c hc).ofJson?_toJson
    by_cases hnull : c = .null
    · -- What is written is null, and null is read as nothing.
      subst hnull
      rw [Value.toJson, withKeyword?_const_null]
      simp [keeping, h, hc, nonNull?]
    · have hkept : nonNull? s.const = some c := hc ▸ nonNull?_some hnull
      rw [withKeyword?_const _ ((hexact c hc).toJson_ne_null hnull), hread]
      simp [keeping, h, hkept]

theorem restores_required (h : t.required = s.required) : s.Restores t .required where
  silent hsilent ks := by
    have hnil : s.required = [] := by simpa [said] using hsilent
    simp [keeping, h, hnil]
  said j hsaid ks := by
    have hj : j = textsJson s.required := by
      simpa [said] using (Option.ite_none_left_eq_some.mp hsaid).2.symm
    rw [hj, withKeyword?_required, texts?_textsJson]
    simp [keeping, h]

/-- The branches under a keyword that has any. -/
def branches (s : Schema) : Keyword → List Schema
  | .anyOf => s.anyOf
  | .oneOf => s.oneOf
  | .allOf => s.allOf
  | _ => []

theorem restores_branches {k : Keyword} (hk : k = .anyOf ∨ k = .oneOf ∨ k = .allOf)
    (hread : ∀ b ∈ s.branches k, ofJson? Number.ofJsonLiteral? b.toJson = some b.reread)
    (h : t.branches k = (s.branches k).map reread) : s.Restores t k where
  silent hsilent ks := by
    have hnil : s.branches k = [] := by
      rcases hk with rfl | rfl | rfl <;> simpa [said, branches] using hsilent
    rw [hnil] at h
    rcases hk with rfl | rfl | rfl <;> simp_all [keeping, branches]
  said j hsaid ks := by
    have hj : j = .array (toJsonBranches (s.branches k)) := by
      rcases hk with rfl | rfl | rfl <;>
        exact (Option.some.inj (Option.ite_none_left_eq_some.mp hsaid).2).symm
    have hbranches := ofBranches?_toJsonBranches hread
    rw [← h] at hbranches
    rw [hj]
    rcases hk with rfl | rfl | rfl
    · rw [withKeyword?_anyOf, hbranches]
      simp [keeping, branches]
    · rw [withKeyword?_oneOf, hbranches]
      simp [keeping, branches]
    · rw [withKeyword?_allOf, hbranches]
      simp [keeping, branches]

/-! ## The whole schema -/

/-- **A schema that JSON says exactly is read back**, without its constants null. -/
theorem Exact.ofJson?_toJson (h : s.Exact) :
    ofJson? Number.ofJsonLiteral? s.toJson = some s.reread := by
  unfold Exact at h
  induction h with
  | @intro s here _ _ _ _ _ properties items anyOf oneOf allOf =>
    have hreread : s.reread = _ := mapValues_eq _ _ s
    have hrestores : ∀ k, s.Restores s.reread k := by
      intro k
      cases k with
      | type => exact restores_type (by rw [hreread])
      | description => exact restores_description (by rw [hreread])
      | properties => exact restores_properties here.sorted properties (by rw [hreread]; rfl)
      | items => exact restores_items items (by rw [hreread]; rfl)
      | enum => exact restores_enum here.enum (by rw [hreread])
      | const => exact restores_const here.const (by rw [hreread])
      | required => exact restores_required (by rw [hreread])
      | anyOf => exact restores_branches (.inl rfl) anyOf (by rw [hreread]; rfl)
      | oneOf => exact restores_branches (.inr (.inl rfl)) oneOf (by rw [hreread]; rfl)
      | allOf => exact restores_branches (.inr (.inr rfl)) allOf (by rw [hreread]; rfl)
    have hall : ∀ k : Keyword, k ∈ Keyword.all.reverse ++ [] := by
      intro k
      cases k <;> decide
    have hnodup : Keyword.all.Nodup := by decide
    have hfresh : ∀ l ∈ ([] : List Keyword), l ∉ Keyword.all := by
      intro l hl
      cases hl
    have hread := ofMembers?_members hrestores hnodup hfresh []
    rw [keeping_nil, keeping_of_forall_mem _ hall] at hread
    rw [toJson_eq]
    exact hread

theorem ExactHere.equalsEnum_reread (h : s.ExactHere) :
    equalsEnum s.enum (s.enum.map Value.rereadItems) = true := by
  cases hs : s.enum with
  | none => rfl
  | some vs => exact Value.equalsItems_rereadItems fun v hv => (h.enum vs hs v hv).equals_reread

/-- A constant comes back as it was unless it is null, and then does not. -/
theorem ExactHere.equalsConst_reread (h : s.ExactHere) :
    equalsConst (nonNull? s.const) ((nonNull? s.const).map Value.reread) = true ∧
      (equalsConst s.const ((nonNull? s.const).map Value.reread) = true ↔
        s.const ≠ some .null) := by
  cases hs : s.const with
  | none => simp [nonNull?, equalsConst]
  | some c =>
    have hsame := (h.const c hs).equals_reread
    by_cases hnull : c = .null
    · subst hnull
      simp [nonNull?, equalsConst]
    · simp [nonNull?_some hnull, equalsConst, hsame, hnull]

/-- **What comes back is the schema without its constants null.** -/
theorem Exact.equals_reread (h : s.Exact) : s.withoutNulls.equals s.reread = true := by
  refine (equals_mapValues_iff _ _ _ _ s).mpr (h.imp fun t ht => ?_)
  exact ⟨ht.equalsEnum_reread, ht.equalsConst_reread.1⟩

/-- What comes back is the schema itself just where none of its constants is null. -/
theorem Exact.equals_reread_iff (h : s.Exact) : s.equals s.reread = true ↔ s.NullFree := by
  have hlevels := equals_mapValues_iff id (·.map Value.rereadItems) id
    (fun c => (nonNull? c).map Value.reread) s
  rw [mapValues_id] at hlevels
  refine hlevels.trans ⟨fun hsame => ?_, fun hfree => ?_⟩
  · exact (h.and hsame).imp fun t ht => ht.1.equalsConst_reread.2.mp ht.2.2
  · exact (h.and hfree).imp fun t ht =>
      ⟨ht.1.equalsEnum_reread, ht.1.equalsConst_reread.2.mpr ht.2⟩

/-- **A schema survives JSON but for its constants null.** A schema that JSON says exactly is
written and read back. What comes back is the schema without its constants null, at every level; so
it is the schema itself if and only if no constant is null. -/
theorem toJson_reads_back (h : s.Exact) :
    ∃ t, ofJson? Number.ofJsonLiteral? s.toJson = some t ∧ s.withoutNulls.equals t = true ∧
      (s.equals t = true ↔ s.NullFree) := by
  exact ⟨s.reread, h.ofJson?_toJson, h.equals_reread, h.equals_reread_iff⟩

/-- A rate: an integer that is kept with a sign, or an array of nothing. -/
def rateSchema : Schema := { any with enum := some [.number (.int 5), .array [.null]] }

/-- So much for each. -/
def eachSchema : Schema := { any with const := some (.object [("each", .number (.uint 2))]) }

/-- An order with its rates, perhaps with so much for each. -/
def orderSchema : Schema :=
  { any with
    type := some (.many [.object, .null])
    properties := [("rates", { ofType .array with items := some rateSchema })]
    required := ["rates"]
    anyOf := [eachSchema, any] }

theorem rateSchema_levels :
    rateSchema.Everywhere fun t => t.ExactHere ∧ t.const ≠ some .null := by
  have hfive : (Value.number (.int 5)).Exact := .number rfl
  have hnothing : (Value.array [.null]).Exact := .array (by simpa using Value.Exact.null)
  refine everywhere_of_leaf ⟨⟨.nil, ?_, ?_⟩, ?_⟩ rfl rfl rfl rfl rfl
  · simpa [rateSchema] using And.intro hfive hnothing
  · simp [rateSchema, any]
  · simp [rateSchema, any]

theorem eachSchema_levels :
    eachSchema.Everywhere fun t => t.ExactHere ∧ t.const ≠ some .null := by
  have htwo : (Value.number (.uint 2)).Exact := .number rfl
  have heach : (Value.object [("each", .number (.uint 2))]).Exact :=
    .object (by decide) (by simpa using htwo)
  refine everywhere_of_leaf ⟨⟨.nil, ?_, ?_⟩, ?_⟩ rfl rfl rfl rfl rfl
  · simp [eachSchema, any]
  · simpa [eachSchema] using heach
  · simp [eachSchema]

theorem orderSchema_levels :
    orderSchema.Everywhere fun t => t.ExactHere ∧ t.const ≠ some .null := by
  have hplain : ∀ t : Schema, Dict.Sorted t.properties → t.enum = none → t.const = none →
      t.ExactHere ∧ t.const ≠ some .null := by
    intro t hsorted henum hconst
    refine ⟨⟨hsorted, ?_, ?_⟩, ?_⟩ <;> simp [henum, hconst]
  have hany : any.Everywhere fun t => t.ExactHere ∧ t.const ≠ some .null :=
    everywhere_of_leaf (hplain _ .nil rfl rfl) rfl rfl rfl rfl rfl
  have hrates : Schema.Everywhere (fun t => t.ExactHere ∧ t.const ≠ some .null)
      { ofType .array with items := some rateSchema } := by
    refine .intro (hplain _ .nil rfl rfl) ?_ ?items ?_ ?_ ?_
    case items => simpa using rateSchema_levels
    all_goals simp [ofType, any]
  refine .intro (hplain _ (by decide) rfl rfl) ?properties ?_ ?anyOf ?_ ?_
  case properties => simpa [orderSchema] using hrates
  case anyOf => simpa [orderSchema] using And.intro eachSchema_levels hany
  all_goals simp [orderSchema, any]

/-- The order reads back as itself. -/
theorem orderSchema_reads_back :
    orderSchema.Exact ∧ ∃ t, ofJson? Number.ofJsonLiteral? orderSchema.toJson = some t ∧
      orderSchema.equals t = true := by
  have hexact : orderSchema.Exact := orderSchema_levels.imp fun _ ht => ht.1
  have hfree : orderSchema.NullFree := orderSchema_levels.imp fun _ ht => ht.2
  obtain ⟨t, hread, -, hsame⟩ := toJson_reads_back hexact
  exact ⟨hexact, t, hread, hsame.mpr hfree⟩

/-- The constant null alone is lost. -/
theorem not_reads_back_null :
    ∃ s : Schema, s.Exact ∧
      ¬∃ t, ofJson? Number.ofJsonLiteral? s.toJson = some t ∧ s.equals t = true := by
  refine ⟨{ any with const := some .null }, ?_, ?_⟩
  · refine everywhere_of_leaf ⟨.nil, ?_, ?_⟩ rfl rfl rfl rfl rfl
    · simp [any]
    · simpa [any] using Value.Exact.null
  · rintro ⟨t, hread, hsame⟩
    cases hread
    cases hsame

end Schema

end TypedTemplate
