import TypedTemplate.Proofs.Program.Reading
import TypedTemplate.Template

/-!
# Well-formed programs

A program has more shapes than reading produces. Those that it does produce are *well formed*: the
marks of a path do not contradict one another, arguments belong to a call that names its helper,
and a block has the one argument that its kind takes.

* `Path.WellFormed`, `Statement.WellFormed`: the two conditions.
* **`wellFormed_of_readProgram`**: every statement of a program that was read is well formed, at
  every level; `Template.wellFormed_of_read` says it of a template.
-/

namespace TypedTemplate

/-! ## Paths -/

namespace Path

/-- The marks of a path do not contradict one another. -/
structure WellFormed (p : Path) : Prop where
  /-- A variable has a name, and no other mark. -/
  of_data : p.data = true → p.depth = 0 ∧ p.this = false ∧ p.parts ≠ []
  /-- A path without segments says where it starts. -/
  of_parts_nil : p.parts = [] → p.this = true ∨ 0 < p.depth

theorem ne_nil_of_splitFrom? {segment : List Char} {bracketed inside : Bool} {cs : List Char}
    {parts : List (List Char)} (h : splitFrom? segment bracketed inside cs = some parts) :
    parts ≠ [] := by
  induction cs generalizing segment bracketed inside parts with
  | nil =>
    rw [splitFrom?] at h
    split at h
    · cases h
    · cases h; exact List.cons_ne_nil _ _
  | cons c rest ih =>
    rw [splitFrom?] at h
    split at h
    · exact ih h
    · split at h
      · exact ih h
      · split at h
        · split at h
          · cases h
          · obtain ⟨tail, -, rfl⟩ := Option.map_eq_some_iff.mp h
            exact List.cons_ne_nil _ _
        · exact ih h

theorem ne_nil_of_splitSegments? {cs : List Char} {parts : List String}
    (h : splitSegments? cs = some parts) : parts ≠ [] := by
  obtain ⟨segments, hs, rfl⟩ := Option.map_eq_some_iff.mp h
  exact fun hnil => ne_nil_of_splitFrom? hs (List.map_eq_nil_iff.mp hnil)

/-- The path of a word is well formed. -/
theorem wellFormed_of_read {word : Excerpt} {p : Path} (h : read word = .ok p) : p.WellFormed := by
  rw [read] at h
  simp only at h
  split at h
  · cases h
  · split at h
    · split at h
      · next parts hparts =>
        cases h
        have hne := ne_nil_of_splitSegments? hparts
        exact ⟨fun _ => ⟨rfl, rfl, hne⟩, fun hnil => absurd hnil hne⟩
      · cases h
    · split at h
      · split at h
        · next hmark =>
          cases h
          refine ⟨fun hdata => Bool.noConfusion hdata, fun _ => ?_⟩
          simpa [or_comm] using hmark
        · cases h
      · split at h
        · next parts hparts =>
          cases h
          exact ⟨fun hdata => Bool.noConfusion hdata,
            fun hnil => absurd hnil (ne_nil_of_splitSegments? hparts)⟩
        · cases h

end Path

/-! ## Statements -/

namespace Statement

/-- An expression with arguments names a helper, and a block whose kind calls none has one argument
without a name. -/
def WellShaped : Statement → Prop
  | .content _ _ => True
  | .expression _ head params hash =>
    params ≠ [] ∨ hash ≠ [] → (helperName? head params hash).isSome = true
  | .block _ kind params hash _ _ =>
    kind.isCustom = false → (∃ target, params = [target]) ∧ hash = []

/-- The tag of the statement makes sense. -/
structure WellFormed (s : Statement) : Prop where
  shape : s.WellShaped
  paths : ∀ e ∈ s.exprs, ∀ p ∈ e.paths, p.WellFormed

/-- A tag that calls no helper has no arguments. -/
theorem WellFormed.arguments_eq_nil {span : Span} {head : Expr} {params : List Expr}
    {hash : List (String × Expr)} (hs : (expression span head params hash).WellFormed)
    (h : helperName? head params hash = none) : params = [] ∧ hash = [] := by
  by_cases hne : params ≠ [] ∨ hash ≠ []
  · have hsome := hs.shape hne
    rw [h] at hsome
    cases hsome
  · rwa [not_or, Decidable.not_not, Decidable.not_not] at hne

end Statement

/-! ## What is read -/

namespace Expr

/-- The expression is no path, or a well-formed one. -/
def WellMarked (e : Expr) : Prop := ∀ p, e.path? = some p → p.WellFormed

/-- The expression of a token is no path, or a well-formed one. -/
theorem wellMarked_of_ofToken {t : Token} {e : Expr} (h : ofToken t = .ok e) : e.WellMarked := by
  rcases ofToken_eq_ok h with ⟨v, rfl⟩ | ⟨p, hp, rfl⟩
  · intro p hp
    cases hp
  · intro q hq
    cases hq
    exact Path.wellFormed_of_read hp

/-- What holds of every token's expression and of every call holds in the arguments of a tag. -/
theorem forall_parts_of_operands {S : Expr → Prop} (htoken : ∀ t e, ofToken t = .ok e → S e)
    (hcall : ∀ span name params hash, S (.call span name params hash)) {stop : Position}
    {gs : List Group} {params : List Expr} {hash : HashArgs}
    (h : arguments stop false gs = .ok (params, hash)) :
    ∀ e ∈ params ++ hash.map Prod.snd, ∀ x ∈ e.parts, S x := by
  obtain ⟨hp, hh⟩ :=
    forall_parts_of_arguments (fun g _ => forall_parts_of_ofGroup htoken hcall g) h
  refine List.forall_mem_append.mpr ⟨hp, fun e he => ?_⟩
  obtain ⟨named, hnamed, rfl⟩ := List.mem_map.mp he
  exact hh named hnamed

theorem wellFormed_of_mem_paths {e : Expr} (h : ∀ x ∈ e.parts, x.WellMarked) :
    ∀ p ∈ e.paths, p.WellFormed := by
  intro p hp
  obtain ⟨x, hx, hxp⟩ := List.mem_filterMap.mp hp
  exact h x hx p hxp

end Expr

/-- An expression with arguments is a call. -/
theorem isHelperCall_of_arguments (head : Expr) {params : List Expr} {hash : HashArgs}
    (hne : params ≠ [] ∨ hash ≠ []) : isHelperCall head params hash = true := by
  rcases hne with hne | hne <;> simp [isHelperCall, hne]

/-- A path with arguments names a helper if it may. -/
theorem helperName?_of_arguments (p : Path) {params : List Expr} {hash : HashArgs}
    (hne : params ≠ [] ∨ hash ≠ []) : helperName? (.path p) params hash = p.simpleName? := by
  rw [helperName?, if_pos (isHelperCall_of_arguments _ hne)]

/-- What may name a helper names the helper of an expression with arguments. -/
theorem isSome_helperName?_of_mayCall {head : Expr} {params : List Expr} {hash : HashArgs}
    (hne : params ≠ [] ∨ hash ≠ []) (h : mayCall head = true) :
    (helperName? head params hash).isSome = true := by
  cases head with
  | literal => cases h
  | call => cases h
  | path p =>
    rw [helperName?_of_arguments p hne]
    exact h

/-- **What holds of every token's expression and of every call holds in every tag.** -/
theorem readsAs_parts {S : Expr → Prop} (htoken : ∀ t e, Expr.ofToken t = .ok e → S e)
    (hcall : ∀ span name params hash, S (.call span name params hash)) :
    ReadsAs fun s => ∀ e ∈ s.exprs, ∀ x ∈ e.parts, S x where
  content _ _ _ := fun _ he => absurd he List.not_mem_nil
  expression span inner s h := by
    obtain ⟨g, rest, head, params, hash, -, hhead, hargs, -, rfl⟩ := readExpression_eq_ok h
    intro e he
    rcases List.mem_cons.mp he with rfl | he
    · exact Expr.forall_parts_of_ofGroup htoken hcall g e hhead
    · exact Expr.forall_parts_of_operands htoken hcall hargs e he
  header span text h hread program inverse := by
    obtain ⟨name, rest, params, hash, -, -, hargs, rfl, -⟩ := readHeader_eq_ok hread
    exact Expr.forall_parts_of_operands htoken hcall hargs

theorem readsAs_wellMarked : ReadsAs fun s => ∀ e ∈ s.exprs, ∀ x ∈ e.parts, x.WellMarked :=
  readsAs_parts (fun _ _ h => Expr.wellMarked_of_ofToken h) (fun _ _ _ _ _ hp => by cases hp)

/-- Texts, expressions and headers that are read are well formed. -/
theorem readsAs_wellFormed : ReadsAs Statement.WellFormed where
  content _ _ _ := ⟨trivial, fun _ he => absurd he List.not_mem_nil⟩
  expression span inner s h := by
    have hmarked := readsAs_wellMarked.expression span inner s h
    obtain ⟨g, rest, head, params, hash, -, -, -, hcall, rfl⟩ := readExpression_eq_ok h
    exact ⟨fun hne => isSome_helperName?_of_mayCall hne (hcall hne),
      fun e he => Expr.wellFormed_of_mem_paths (hmarked e he)⟩
  header span text h hread program inverse := by
    have hmarked := readsAs_wellMarked.header span text h hread program inverse
    obtain ⟨name, rest, params, hash, -, -, -, rfl, hone⟩ := readHeader_eq_ok hread
    refine ⟨fun hk => ?_, fun e he => Expr.wellFormed_of_mem_paths (hmarked e he)⟩
    obtain ⟨hlength, hhash⟩ := hone hk
    exact ⟨List.length_eq_one_iff.mp hlength, hhash⟩

/-- **A program that was read is well formed** at every level. -/
theorem wellFormed_of_readProgram {text : String} {p : Program} (h : readProgram text = .ok p) :
    p.Everywhere Statement.WellFormed :=
  readProgram_forall readsAs_wellFormed h

theorem Template.read_eq_ok {source : Source} {t : Template} (h : Template.read source = .ok t) :
    t.source = source ∧ readProgram source.text = .ok t.program := by
  rw [Template.read] at h
  split at h
  · next program hread => cases h; exact ⟨rfl, hread⟩
  · cases h

/-- The template of a text that is read as a program. -/
theorem Template.read_of_readProgram {source : Source} {p : Program}
    (h : readProgram source.text = .ok p) : Template.read source = .ok ⟨source, p⟩ := by
  rw [Template.read, h]

/-- The program of a template that was read is well formed. -/
theorem Template.wellFormed_of_read {source : Source} {t : Template}
    (h : Template.read source = .ok t) : t.program.Everywhere Statement.WellFormed :=
  wellFormed_of_readProgram (read_eq_ok h).2

end TypedTemplate
