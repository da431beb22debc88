import TypedTemplate.Proofs.Execution.Tiers
import TypedTemplate.Proofs.Program.Branches

/-!
# Rendering and executing a lone statement

* `Renderer.renderProgram_append`: programs behind one another.
* **`Renderer.renderProgram_of_significant`**: a lone statement is rendered between blanks.
* `Renderer.branch?`: the one body that a block renders;
  **`Renderer.renderStatement_of_branch?`**: it renders to just that.
* `Renderer.exists_body_of_conditional`: a conditional block renders one of its bodies.
* `Renderer.valueOf`, `Renderer.deciderOf`: what a statement is rendered from.
* **`execute_of_singleBlock?`**, **`execute_of_call`**: a lone block and a lone call are executed by
  rendering them; `execute_of_plain`: a lone expression that is no call is not.
-/

namespace TypedTemplate

/-! ## Texts -/

namespace Renderer

variable (r : Renderer) (frames : List Frame)

/-- Programs behind one another render to their texts behind one another. -/
theorem renderProgram_append (p q : Program) :
    r.renderProgram frames (p ++ q) =
      match r.renderProgram frames p with
      | .error failure => .error failure
      | .ok text => (r.renderProgram frames q).map (text ++ ·) := by
  induction p with
  | nil =>
    rw [List.nil_append, renderProgram]
    cases r.renderProgram frames q <;> rfl
  | cons s rest ih =>
    rw [List.cons_append, renderProgram, renderProgram, ih]
    cases r.renderStatement frames s with
    | error => rfl
    | ok text =>
      cases r.renderProgram frames rest with
      | error => rfl
      | ok more => cases r.renderProgram frames q <;> simp [Except.map]

theorem renderProgram_of_pureText? {p : Program} {chars : List Char}
    (h : p.pureText? = some chars) : r.renderProgram frames p = .ok chars := by
  induction p generalizing chars with
  | nil =>
    cases h
    rfl
  | cons s rest ih =>
    cases s with
    | expression => cases h
    | block => cases h
    | content span text =>
      obtain ⟨more, hmore, rfl⟩ := Option.map_eq_some_iff.mp h
      rw [renderProgram, renderStatement, ih hmore]
      rfl

/-- Blank statements render to blanks. -/
theorem renderProgram_of_isBlank {p : Program} (h : ∀ s ∈ p, s.isBlank = true) :
    ∃ blanks, r.renderProgram frames p = .ok blanks ∧ Text.IsBlank blanks := by
  induction p with
  | nil => exact ⟨[], rfl, fun _ hc => absurd hc List.not_mem_nil⟩
  | cons s rest ih =>
    rw [List.forall_mem_cons] at h
    obtain ⟨blanks, hrest, hblanks⟩ := ih h.2
    cases s with
    | expression => cases h.1
    | block => cases h.1
    | content span text =>
      have htext := Text.isBlank_of_trim_eq_nil (List.isEmpty_iff.mp h.1)
      refine ⟨text.toList ++ blanks, ?_, List.forall_mem_append.mpr ⟨htext, hblanks⟩⟩
      rw [renderProgram, renderStatement, hrest]
      rfl

/-- **A lone statement is rendered between blanks.** -/
theorem renderProgram_of_significant {p : Program} {s : Statement} (h : p.significant = [s]) :
    ∃ before after, Text.IsBlank before ∧ Text.IsBlank after ∧
      r.renderProgram frames p =
        (r.renderStatement frames s).map fun text => before ++ text ++ after := by
  obtain ⟨front, back, rfl, hfront, hback⟩ := eq_append_of_significant h
  obtain ⟨before, hbefore, hblankBefore⟩ := r.renderProgram_of_isBlank frames hfront
  obtain ⟨after, hafter, hblankAfter⟩ := r.renderProgram_of_isBlank frames hback
  refine ⟨before, after, hblankBefore, hblankAfter, ?_⟩
  rw [renderProgram_append, hbefore, renderProgram, hafter]
  cases r.renderStatement frames s with
  | error => rfl
  | ok text => simp [Except.map]

theorem renderBodies_singleton (render : List Frame → Rendered (List Char)) :
    renderBodies render [frames] = render frames := by
  unfold renderBodies
  cases render frames <;> simp [renderBodies, Except.map]

/-- The body that a block renders, and the contexts that it renders it in, where it renders just
one: its own body once, or its alternative. -/
def branch? : Statement → Option (List Frame × Program)
  | .block span kind params hash program inverse =>
    match r.decider frames span kind params hash with
    | .error _ => none
    | .ok v =>
      match kind.bodies frames v with
      | [] => inverse.map (frames, ·)
      | [inner] => some (inner, program)
      | _ => none
  | _ => none

/-- **A block renders to the one body that it renders.** -/
theorem renderStatement_of_branch? {s : Statement} {inner : List Frame} {body : Program}
    (h : r.branch? frames s = some (inner, body)) :
    r.renderStatement frames s = r.renderProgram inner body := by
  cases s with
  | content => cases h
  | expression => cases h
  | block span kind params hash program inverse =>
    rw [branch?] at h
    rw [renderStatement]
    cases hdecider : r.decider frames span kind params hash with
    | error failure =>
      rw [hdecider] at h
      cases h
    | ok v =>
      rw [hdecider] at h
      simp only at h ⊢
      split at h
      · next hnone =>
        obtain ⟨other, rfl, heq⟩ := Option.map_eq_some_iff.mp h
        cases heq
        simp only [hnone]
        rfl
      · next hone =>
        cases h
        simp only [hone]
        exact renderBodies_singleton inner fun frames => r.renderProgram frames body
      · cases h

section Branches

variable {r frames}

/-- A block that renders its body once takes it. -/
theorem branch?_of_bodies {span : Span} {kind : BlockKind} {params : List Expr}
    {hash : List (String × Expr)} {v : Value} (hv : r.decider frames span kind params hash = .ok v)
    {inner : List Frame} (h : kind.bodies frames v = [inner]) (program : Program)
    (inverse : Option Program) :
    r.branch? frames (.block span kind params hash program inverse) = some (inner, program) := by
  rw [branch?, hv]
  simp only [h]

/-- A block that does not render its body takes its alternative. -/
theorem branch?_of_no_bodies {span : Span} {kind : BlockKind} {params : List Expr}
    {hash : List (String × Expr)} {v : Value} (hv : r.decider frames span kind params hash = .ok v)
    (h : kind.bodies frames v = []) (program : Program) (inverse : Option Program) :
    r.branch? frames (.block span kind params hash program inverse) =
      inverse.map (frames, ·) := by
  rw [branch?, hv]
  simp only [h]

end Branches

/-- **A conditional block that has an alternative renders one of its bodies**, once there is a value
to decide by. -/
theorem exists_body_of_conditional {span : Span} {kind : BlockKind} {params : List Expr}
    {hash : List (String × Expr)} (hkind : kind = .whenTrue ∨ kind = .whenFalse)
    (program inverse : Program) {v : Value} (hv : r.decider frames span kind params hash = .ok v) :
    ∃ b ∈ [program, inverse],
      r.renderStatement frames (.block span kind params hash program (some inverse)) =
        r.renderProgram frames b := by
  have hbodies : kind.bodies frames v = [frames] ∨ kind.bodies frames v = [] := by
    rcases hkind with rfl | rfl <;> cases htrue : v.isTruthy <;> simp [BlockKind.bodies, htrue]
  rcases hbodies with hone | hnone
  · exact ⟨program, by simp, r.renderStatement_of_branch? frames (branch?_of_bodies hv hone _ _)⟩
  · exact ⟨inverse, by simp,
      r.renderStatement_of_branch? frames (branch?_of_no_bodies hv hnone _ _)⟩

/-- What an expression statement refers to, or the answer of the helper that it calls. -/
def valueOf : Statement → Rendered Value
  | .expression span head params hash => r.evaluateStatement frames span head params hash
  | _ => .ok .undefined

/-- What a block decides by. -/
def deciderOf : Statement → Rendered Value
  | .block span kind params hash _ _ => r.decider frames span kind params hash
  | _ => .ok .undefined

end Renderer

/-! ## Execution -/

theorem tier_of_singleBlock? {p : Program} {s : Statement} (h : p.singleBlock? = some s) :
    p.tier = .block := by
  obtain ⟨-, hexpression⟩ := Program.shape_of_singleBlock? h
  have hconcat : p.isConcatenation = false := by
    refine Bool.eq_false_iff.mpr fun hall => ?_
    have hsig := significant_of_singleBlock? h
    have hplain := List.all_eq_true.mp hall s (mem_of_significant hsig)
    unfold Program.singleBlock? at h
    rw [hsig] at h
    cases s with
    | content => cases h
    | expression => cases h
    | block => cases hplain
  unfold Program.tier
  simp [hexpression, hconcat, h]

/-- **A lone block is executed by rendering it**, and the text stands for what it spells. -/
theorem execute_of_singleBlock? {t : Template} {s : Statement} (h : t.program.singleBlock? = some s)
    (helpers : HelperSet) (side : SideTable Value) (data : Value) :
    Artifact.execute ⟨t, helpers⟩ side data =
      match Renderer.renderProgram ⟨⟨side, data⟩, helpers⟩ [⟨data, none⟩] t.program with
      | .ok text => .ok (Literal.coerce (String.ofList text))
      | .error failure => .error (.failed t.source failure) := by
  obtain ⟨hok, herror⟩ :=
    execute_of_rendered helpers side data (tier_of_singleBlock? h) (by decide) (by decide)
  cases hrender : Renderer.renderProgram ⟨⟨side, data⟩, helpers⟩ [⟨data, none⟩] t.program with
  | ok text =>
    refine hok (String.ofList text) ?_
    rw [Artifact.render, Renderer.render, hrender]
    rfl
  | error failure =>
    refine herror failure ?_
    rw [Artifact.render, Renderer.render, hrender]
    rfl

/-! ## Lone expressions -/

section

variable (source : Source) (span : Span) (head : Expr) (params : List Expr) (hash : HashArgs)
  (helpers : HelperSet) (side : SideTable Value) (data : Value)

/-- A lone expression is rendered to what its value shows. -/
theorem render_of_expression :
    Artifact.render ⟨⟨source, [.expression span head params hash]⟩, helpers⟩ side data =
      (Renderer.evaluateStatement ⟨⟨side, data⟩, helpers⟩ [⟨data, none⟩] span head params hash).map
        fun v => String.ofList v.renderChars := by
  unfold Artifact.render Renderer.render
  simp only [Renderer.renderProgram, Renderer.renderStatement]
  cases Renderer.evaluateStatement ⟨⟨side, data⟩, helpers⟩ [⟨data, none⟩] span head params hash with
  | error failure => rfl
  | ok v => simp [Except.map]

/-- **A lone call is executed by rendering it**, and the text stands for what it spells. -/
theorem execute_of_call (hcall : isHelperCall head params hash = true) :
    Artifact.execute ⟨⟨source, [.expression span head params hash]⟩, helpers⟩ side data =
      match Renderer.evaluateStatement ⟨⟨side, data⟩, helpers⟩ [⟨data, none⟩] span head params hash
        with
      | .ok v => .ok (Literal.coerce (String.ofList v.renderChars))
      | .error failure => .error (.failed source failure) := by
  have hrender := render_of_expression source span head params hash helpers side data
  have htier : Program.tier [.expression span head params hash] = .helper := by
    have hsingle : Program.singleExpression? [.expression span head params hash] =
        some (.expression span head params hash) := rfl
    unfold Program.tier
    rw [hsingle]
    simp [Statement.isPlain, hcall]
  unfold Artifact.execute Program.execute Program.direct?
  rw [htier]
  simp only [Tier.run, hrender]
  cases Renderer.evaluateStatement ⟨⟨side, data⟩, helpers⟩ [⟨data, none⟩] span head params hash <;>
    rfl

/-- **A lone reference is executed to what it refers to**, without rendering. -/
theorem execute_of_plain (hcall : isHelperCall head params hash = false) :
    Artifact.execute ⟨⟨source, [.expression span head params hash]⟩, helpers⟩ side data =
      .ok (head.value side data) := by
  have hsingle : Program.singleExpression? [.expression span head params hash] =
      some (.expression span head params hash) := rfl
  have htier : Program.tier [.expression span head params hash] = .direct := by
    unfold Program.tier
    rw [hsingle]
    simp [Statement.isPlain, hcall]
  unfold Artifact.execute Program.execute Program.direct?
  rw [htier]
  simp only [hsingle]
  rfl

end

/-- Lone calls that have one value, or none, are executed to one value, or none. -/
theorem execute_congr (source source' : Source) {span span' : Span} {head head' : Expr}
    {params params' : List Expr} {hash hash' : HashArgs} {helpers : HelperSet}
    {side : SideTable Value} {data : Value} (hcall : isHelperCall head params hash = true)
    (hcall' : isHelperCall head' params' hash' = true)
    (hvalue : (Renderer.evaluateStatement ⟨⟨side, data⟩, helpers⟩ [⟨data, none⟩] span head params
        hash).toOption =
      (Renderer.evaluateStatement ⟨⟨side, data⟩, helpers⟩ [⟨data, none⟩] span' head' params'
        hash').toOption) :
    (Artifact.execute ⟨⟨source, [.expression span head params hash]⟩, helpers⟩ side
        data).toOption =
      (Artifact.execute ⟨⟨source', [.expression span' head' params' hash']⟩, helpers⟩ side
        data).toOption := by
  rw [execute_of_call _ _ _ _ _ _ _ _ hcall, execute_of_call _ _ _ _ _ _ _ _ hcall']
  cases hbare : Renderer.evaluateStatement ⟨⟨side, data⟩, helpers⟩ [⟨data, none⟩] span head params
    hash with
  | ok v =>
    rw [hbare] at hvalue
    rw [toOption_eq_some.mp hvalue.symm]
  | error failure =>
    rw [hbare] at hvalue
    cases hparens : Renderer.evaluateStatement ⟨⟨side, data⟩, helpers⟩ [⟨data, none⟩] span' head'
      params' hash' with
    | ok v =>
      rw [hparens] at hvalue
      cases hvalue
    | error => rfl

end TypedTemplate
