import TypedTemplate.Analysis.Inference
import TypedTemplate.Helper.Catalogue
import TypedTemplate.Proofs.Execution.Scalars
import TypedTemplate.Proofs.Render.Lone

/-!
# What conditional blocks produce

The analysis infers a scalar for a lone conditional block when each of its branches spells one of
the same kind: as text, as an expression of that type, or as a conditional block again. Rendering
takes one branch and knows nothing of kinds; its text is turned back into a scalar by what it
spells. This file says that the two agree.

* `Analyzer.contribution`: what a body contributes in given scopes.
* `Branch.join_eq_some`: both alternatives contribute the kind that they are joined to.
* `Branch.ofBody_cases`: the ways in which a body contributes.
* `Analyzer.contribution_induction`: the ways to contribute a kind, as an induction.
* `Reliable`: what is asked of a branch, that numbers in its text can be read, and that the value
  of an expression is of the type inferred for it.
* **`spells_of_contribution`**: what a body renders spells a scalar of the kind that it contributes.
* **`exists_text_of_contribution`**: it is rendered whenever its calls answer.
* **`conditional_isOf`**: executing a lone conditional block gives a scalar of the inferred kind.
-/

namespace TypedTemplate

/-! ## Inference -/

namespace Branch

theorem category?_schemaOf (kind : Option Literal.Category) :
    (schemaOf kind).category? = kind := by
  cases kind with
  | none => rfl
  | some c => cases c <;> rfl

/-- The kind of the expression that a body consists of. -/
def typed? : Branch → Option Literal.Category
  | .typed c => some c
  | _ => none

theorem typed?_eq_some {b : Branch} {c : Literal.Category} :
    b.typed? = some c ↔ b = .typed c := by
  cases b <;> simp [typed?]

/-- **Both alternatives contribute the kind that they are joined to.** -/
theorem join_eq_some {b₁ b₂ : Branch} {c : Literal.Category} (h : b₁.join b₂ = some c) :
    b₁.category? = some c ∧ b₂.category? = some c := by
  unfold join at h
  split at h
  · split at h
    · next heq =>
      subst heq
      exact ⟨h, h⟩
    · cases h
  · split at h
    · next heq =>
      subst heq
      exact ⟨h, h⟩
    · cases h
  · split at h
    · next heq =>
      subst heq
      exact ⟨h, h⟩
    · cases h
  · cases h

/-- **The ways in which a body contributes**: by text that spells a scalar, by a conditional block
that has a kind, by an expression of numbers or booleans, or not at all. -/
theorem ofBody_cases (p : Program) (schema : Schema) :
    (∃ chars c, p.pureText? = some chars ∧ Literal.category? (Text.trim chars) = some c ∧
      ofBody p schema = .literal c) ∨
    (∃ s c, p.singleBlock? = some s ∧ s.isConditional = true ∧ schema.category? = some c ∧
      ofBody p schema = .literal c) ∨
    (∃ s c, p.singleExpression? = some s ∧ schema.category? = some c ∧ c ≠ .null ∧
      ofBody p schema = .typed c) ∨
    ofBody p schema = .text := by
  unfold ofBody
  cases hpure : p.pureText? with
  | some chars =>
    cases hkind : Literal.category? (Text.trim chars) with
    | some c => exact .inl ⟨chars, c, rfl, hkind, by simp only [hkind]⟩
    | none => exact .inr (.inr (.inr (by simp only [hkind])))
  | none =>
    cases hblock : p.singleBlock? with
    | some s =>
      cases hconditional : s.isConditional with
      | false => exact .inr (.inr (.inr (by simp [hconditional])))
      | true =>
        cases hkind : schema.category? with
        | some c => exact .inr (.inl ⟨s, c, rfl, hconditional, rfl, by simp [hconditional]⟩)
        | none => exact .inr (.inr (.inr (by simp [hconditional])))
    | none =>
      cases hexpression : p.singleExpression? with
      | none => exact .inr (.inr (.inr rfl))
      | some s =>
        cases hkind : schema.category? with
        | none => exact .inr (.inr (.inr rfl))
        | some c =>
          cases c with
          | null => exact .inr (.inr (.inr rfl))
          | number => exact .inr (.inr (.inl ⟨s, .number, rfl, rfl, by decide, rfl⟩))
          | boolean => exact .inr (.inr (.inl ⟨s, .boolean, rfl, rfl, by decide, rfl⟩))

end Branch

namespace Analyzer

variable (a : Analyzer) (scopes : List Scope)

/-- What a body contributes to the scalar that its block produces. -/
def contribution (p : Program) : Branch := .ofBody p (a.inferProgram scopes p).1

theorem inferStatements_schemas (p : Program) :
    (a.inferStatements scopes p).1 = p.significant.map fun s => (a.inferStatement scopes s).1 := by
  induction p with
  | nil => rfl
  | cons s rest ih =>
    have hcons : (a.inferStatements scopes (s :: rest)).1 =
        if s.isBlank then (a.inferStatements scopes rest).1
        else (a.inferStatement scopes s).1 :: (a.inferStatements scopes rest).1 := rfl
    rw [hcons, ih]
    cases hblank : s.isBlank <;> simp [Program.significant, hblank]

/-- The schema of a program of one significant statement is that of the statement. -/
theorem inferProgram_of_significant {p : Program} {s : Statement} (h : p.significant = [s]) :
    (a.inferProgram scopes p).1 = (a.inferStatement scopes s).1 := by
  rw [inferProgram]
  simp only [inferStatements_schemas, h, List.map_cons, List.map_nil, bodySchema]

/-- The analysis of a block from that of its bodies. -/
theorem inferStatement_block (span : Span) (kind : BlockKind) (params : List Expr)
    (hash : List (String × Expr)) (program : Program) (inverse : Option Program) :
    a.inferStatement scopes (.block span kind params hash program inverse) =
      (kind.schema (a.contribution (a.enter scopes span kind params hash).1 program)
          (inverse.map (a.contribution scopes)),
        (a.enter scopes span kind params hash).2 ++
          (a.inferProgram (a.enter scopes span kind params hash).1 program).2 ++
            (inverse.map fun q => (a.inferProgram scopes q).2).getD []) := by
  cases inverse <;> rfl

/-- The bodies of a conditional block are gone through in the scopes around it. -/
theorem enter_of_conditional {span : Span} {kind : BlockKind} {params : List Expr}
    {hash : List (String × Expr)} (hkind : kind = .whenTrue ∨ kind = .whenFalse) :
    (a.enter scopes span kind params hash).1 = scopes := by
  rcases hkind with rfl | rfl
  · cases params <;> rfl
  · cases params <;> rfl

/-- **A conditional block that has a kind** has an alternative, and both of its bodies contribute
the kind. -/
theorem exists_inverse_of_category? {span : Span} {kind : BlockKind} {params : List Expr}
    {hash : List (String × Expr)} {program : Program} {inverse : Option Program}
    (hkind : kind = .whenTrue ∨ kind = .whenFalse) {c : Literal.Category}
    (h : (a.inferStatement scopes (.block span kind params hash program inverse)).1.category? =
      some c) :
    ∃ other, inverse = some other ∧ (a.contribution scopes program).category? = some c ∧
      (a.contribution scopes other).category? = some c := by
  have hjoin : (a.contribution scopes program).join
      ((inverse.map (a.contribution scopes)).getD .text) = some c := by
    simp only [inferStatement_block, a.enter_of_conditional scopes hkind] at h
    rcases hkind with rfl | rfl
    · rwa [BlockKind.schema, Branch.category?_schemaOf] at h
    · rwa [BlockKind.schema, Branch.category?_schemaOf] at h
  obtain ⟨hbody, hother⟩ := Branch.join_eq_some hjoin
  cases inverse with
  | none => cases hother
  | some other => exact ⟨other, rfl, hbody, hother⟩

/-- **The three ways in which a body contributes a kind**: its text spells it, both bodies of its
conditional block contribute it, or its expression is of that type. -/
theorem contribution_cases {p : Program} {c : Literal.Category}
    (h : (a.contribution scopes p).category? = some c) :
    (∃ chars, p.pureText? = some chars ∧ Literal.category? (Text.trim chars) = some c) ∨
      (∃ span kind params hash program inverse,
        p.significant = [.block span kind params hash program (some inverse)] ∧
        (kind = .whenTrue ∨ kind = .whenFalse) ∧
        (a.contribution scopes program).category? = some c ∧
        (a.contribution scopes inverse).category? = some c) ∨
      ∃ s, p.singleExpression? = some s ∧ a.contribution scopes p = .typed c := by
  unfold contribution at h ⊢
  obtain ⟨chars, k, hpure, hkind, heq⟩ | ⟨s, k, hblock, hconditional, hkind, heq⟩ |
    ⟨s, k, hexpression, -, -, heq⟩ | heq := Branch.ofBody_cases p (a.inferProgram scopes p).1
  · rw [heq] at h
    cases h
    exact .inl ⟨chars, hpure, hkind⟩
  · rw [heq] at h
    cases h
    have hsig := significant_of_singleBlock? hblock
    rw [a.inferProgram_of_significant scopes hsig] at hkind
    obtain ⟨span, kind, params, hash, program, inverse, rfl, hchoice⟩ :=
      Statement.exists_of_isConditional hconditional
    obtain ⟨other, rfl, hprogram, hother⟩ := a.exists_inverse_of_category? scopes hchoice hkind
    exact .inr (.inl ⟨span, kind, params, hash, program, other, hsig, hchoice, hprogram, hother⟩)
  · rw [heq] at h
    cases h
    exact .inr (.inr ⟨s, hexpression, heq⟩)
  · rw [heq] at h
    cases h

/-- A body that contributes the type of its expression is a lone expression of that type, which is
not null. -/
theorem category?_of_contribution_typed {p : Program} {c : Literal.Category}
    (h : a.contribution scopes p = .typed c) {s : Statement} (hs : p.singleExpression? = some s) :
    (a.inferStatement scopes s).1.category? = some c ∧ c ≠ .null := by
  rw [← a.inferProgram_of_significant scopes (significant_of_singleExpression? hs).1]
  unfold contribution at h
  obtain ⟨_, k, -, -, heq⟩ | ⟨_, k, -, -, -, heq⟩ | ⟨_, k, -, hkind, hnull, heq⟩ | heq :=
    Branch.ofBody_cases p (a.inferProgram scopes p).1
  · rw [heq] at h
    cases h
  · rw [heq] at h
    cases h
  · rw [heq] at h
    cases h
    exact ⟨hkind, hnull⟩
  · rw [heq] at h
    cases h

/-- **Induction over what contributes a kind**: text, a lone conditional block both of whose bodies
contribute it, or a lone expression. -/
@[elab_as_elim]
theorem contribution_induction {c : Literal.Category}
    {motive : ∀ p : Program, (a.contribution scopes p).category? = some c → Prop}
    (text : ∀ p h chars, p.pureText? = some chars → Literal.category? (Text.trim chars) = some c →
      motive p h)
    (block : ∀ p h span kind params hash program inverse,
      p.significant = [.block span kind params hash program (some inverse)] →
        (kind = .whenTrue ∨ kind = .whenFalse) → ∀ hprogram hinverse,
          motive program hprogram → motive inverse hinverse → motive p h)
    (expression : ∀ p h s, p.singleExpression? = some s → a.contribution scopes p = .typed c →
      motive p h)
    {p : Program} (h : (a.contribution scopes p).category? = some c) : motive p h := by
  -- The bodies of a lone block are smaller than the program that it stands in.
  induction hsize : sizeOf p using Nat.strongRecOn generalizing p with
  | ind n ih =>
    subst hsize
    obtain ⟨chars, hpure, hkind⟩ |
      ⟨span, kind, params, hash, program, inverse, hsig, hkind, hprogram, hinverse⟩ |
      ⟨s, hsingle, htyped⟩ := a.contribution_cases scopes h
    · exact text p h chars hpure hkind
    · have hsmaller := List.sizeOf_lt_of_mem (mem_of_significant hsig)
      simp only [Statement.block.sizeOf_spec, Option.some.sizeOf_spec] at hsmaller
      exact block p h span kind params hash program inverse hsig hkind hprogram hinverse
        (ih _ (by omega) hprogram rfl) (ih _ (by omega) hinverse rfl)
    · exact expression p h s hsingle htyped

end Analyzer

/-! ## Soundness -/

section Soundness

variable {a : Analyzer} {r : Renderer} {scopes : List Scope} {frames : List Frame}

/-- A number that the text of a body spells can be read. -/
def Program.ReadsNumber (p : Program) : Prop :=
  ∀ chars, p.pureText? = some chars → Literal.category? (Text.trim chars) = some .number →
    (Number.ofText? (Text.trim chars)).isSome = true

instance : DecidablePred Program.ReadsNumber := fun p =>
  inferInstanceAs (Decidable (∀ chars ∈ p.pureText?,
    Literal.category? (Text.trim chars) = some .number →
      (Number.ofText? (Text.trim chars)).isSome = true))

/-- **What is asked of a branch**: a number that its text spells can be read, and an expression
whose type the analysis relies on has a value of that type. -/
structure Reliable (a : Analyzer) (r : Renderer) (scopes : List Scope) (frames : List Frame)
    (p : Program) : Prop where
  numbers : p.ReadsNumber
  typed : ∀ c s v, a.contribution scopes p = .typed c → p.singleExpression? = some s →
    r.valueOf frames s = .ok v → v.Shows c

instance (p : Program) : Decidable (Reliable a r scopes frames p) :=
  decidable_of_iff
    (p.ReadsNumber ∧
      ∀ c ∈ (a.contribution scopes p).typed?, ∀ s ∈ p.singleExpression?,
        ∀ v ∈ (r.valueOf frames s).toOption, v.Shows c) <| by
    constructor
    · rintro ⟨hnumbers, htyped⟩
      refine ⟨hnumbers, fun c s v hc hs hv => htyped c ?_ s hs v ?_⟩
      · rw [hc]
        rfl
      · rw [hv]
        rfl
    · intro h
      refine ⟨h.numbers, fun c hc s hs v hv => h.typed c s v ?_ hs ?_⟩
      · exact Branch.typed?_eq_some.mp hc
      · exact toOption_eq_some.mp hv

/-- **What a body renders spells a scalar of the kind that it contributes**, as far as the body and
its branches are reliable, in any scopes and contexts. -/
theorem spells_of_contribution {p : Program} {c : Literal.Category}
    (hc : (a.contribution scopes p).category? = some c)
    (hreliable : ∀ q ∈ p :: p.branches, Reliable a r scopes frames q) {text : List Char}
    (hok : r.renderProgram frames p = .ok text) : Literal.Spells c text := by
  induction hc using Analyzer.contribution_induction generalizing text with
  | text p _ chars hpure hkind =>
    rw [r.renderProgram_of_pureText? frames hpure] at hok
    cases hok
    have hp := hreliable p List.mem_cons_self
    exact ⟨hkind, fun hnumber => hp.numbers _ hpure (hnumber ▸ hkind)⟩
  | block p _ span kind params hash program inverse hsig hkind _ _ ihProgram ihInverse =>
    -- Whichever body is taken, its text stands between blanks.
    obtain ⟨before, after, hbefore, hafter, hrender⟩ := r.renderProgram_of_significant frames hsig
    rw [hrender] at hok
    obtain ⟨inner, hinner, rfl⟩ := map_eq_ok.mp hok
    refine Literal.Spells.surrounded ?_ hbefore hafter
    rw [List.forall_mem_cons] at hreliable
    cases hdecider : r.decider frames span kind params hash with
    | error failure =>
      rw [Renderer.renderStatement, hdecider] at hinner
      cases hinner
    | ok v =>
      obtain ⟨b, hb, hbody⟩ := r.exists_body_of_conditional frames hkind program inverse hdecider
      have hbranches := Program.forall_branches hsig hkind hreliable.2 hb
      rw [hbody] at hinner
      rcases List.mem_cons.mp hb with rfl | hb
      · exact ihProgram hbranches hinner
      · obtain rfl := List.mem_singleton.mp hb
        exact ihInverse hbranches hinner
  | expression p _ s hsingle htyped =>
    obtain ⟨hsig, span, head, params, hash, rfl⟩ := significant_of_singleExpression? hsingle
    obtain ⟨before, after, hbefore, hafter, hrender⟩ := r.renderProgram_of_significant frames hsig
    rw [hrender] at hok
    obtain ⟨inner, hinner, rfl⟩ := map_eq_ok.mp hok
    obtain ⟨v, hv, rfl⟩ := map_eq_ok.mp hinner
    have hp := hreliable p List.mem_cons_self
    have hshows := hp.typed c _ v htyped hsingle hv
    exact hshows.spells.surrounded hbefore hafter

/-- **What a branch needs to be rendered**: its lone expression has a value, and there is a value
by which its lone block decides. Only a call can fail to give one. -/
structure Renderable (r : Renderer) (frames : List Frame) (p : Program) : Prop where
  expression : ∀ s, p.singleExpression? = some s → (r.valueOf frames s).isOk = true
  block : ∀ s, p.singleBlock? = some s → (r.deciderOf frames s).isOk = true

/-- **What contributes a kind is rendered**, as far as the body and its branches are renderable. -/
theorem exists_text_of_contribution {p : Program} {c : Literal.Category}
    (hc : (a.contribution scopes p).category? = some c)
    (hrenderable : ∀ q ∈ p :: p.branches, Renderable r frames q) :
    ∃ text, r.renderProgram frames p = .ok text := by
  induction hc using Analyzer.contribution_induction with
  | text p _ chars hpure => exact ⟨chars, r.renderProgram_of_pureText? frames hpure⟩
  | block p _ span kind params hash program inverse hsig hkind _ _ ihProgram ihInverse =>
    obtain ⟨before, after, -, -, hrender⟩ := r.renderProgram_of_significant frames hsig
    rw [List.forall_mem_cons] at hrenderable
    have hlone : p.singleBlock? = some (.block span kind params hash program (some inverse)) := by
      unfold Program.singleBlock?
      rw [hsig]
    obtain ⟨v, hv⟩ := exists_of_isOk (hrenderable.1.block _ hlone)
    obtain ⟨b, hb, hbody⟩ := r.exists_body_of_conditional frames hkind program inverse hv
    have hbranches := Program.forall_branches hsig hkind hrenderable.2 hb
    have hinner : ∃ inner, r.renderProgram frames b = .ok inner := by
      rcases List.mem_cons.mp hb with rfl | hb
      · exact ihProgram hbranches
      · obtain rfl := List.mem_singleton.mp hb
        exact ihInverse hbranches
    obtain ⟨inner, hinner⟩ := hinner
    rw [hrender, hbody, hinner]
    exact ⟨_, rfl⟩
  | expression p _ s hsingle =>
    obtain ⟨hsig, span, head, params, hash, rfl⟩ := significant_of_singleExpression? hsingle
    obtain ⟨before, after, -, -, hrender⟩ := r.renderProgram_of_significant frames hsig
    rw [List.forall_mem_cons] at hrenderable
    obtain ⟨v, hv⟩ := exists_of_isOk (hrenderable.1.expression _ hsingle)
    have hvalue : r.evaluateStatement frames span head params hash = .ok v := hv
    rw [hrender, Renderer.renderStatement, hvalue]
    exact ⟨_, rfl⟩

end Soundness

/-! ## Execution -/

/-- **What a lone conditional block is inferred to produce, it produces.** Whatever the conditions
come to, at any nesting, a successful execution gives a scalar of the inferred kind, as far as the
branches are reliable. -/
theorem conditional_isOf {t : Template} {s : Statement} (hblock : t.program.singleBlock? = some s)
    (hs : s.isConditional = true) {a : Analyzer} {c : Literal.Category}
    (hc : (analyze a t.program).schema.category? = some c) {side : SideTable Value} {data : Value}
    (hreliable : ∀ q ∈ t.program.branches,
      Reliable a ⟨⟨side, data⟩, a.helpers⟩ [⟨some a.root, false⟩] [⟨data, none⟩] q)
    {v : Value} (hv : Artifact.execute ⟨t, a.helpers⟩ side data = .ok v) : v.IsOf c := by
  obtain ⟨hpure, hexpression⟩ := Program.shape_of_singleBlock? hblock
  have hcontribution :
      (a.contribution [⟨some a.root, false⟩] t.program).category? = some c := by
    have hkind : (a.inferProgram [⟨some a.root, false⟩] t.program).1.category? = some c := hc
    unfold Analyzer.contribution Branch.ofBody
    rw [hpure, hblock]
    simp only [hs, if_true, hkind]
    rfl
  have hwhole : Reliable a ⟨⟨side, data⟩, a.helpers⟩ [⟨some a.root, false⟩] [⟨data, none⟩]
      t.program := by
    constructor
    · intro chars hchars
      rw [hpure] at hchars
      cases hchars
    · intro c s v _ hsome
      rw [hexpression] at hsome
      cases hsome
  rw [execute_of_singleBlock? hblock] at hv
  split at hv
  · next text hok =>
    cases hv
    have hspells :=
      spells_of_contribution hcontribution (List.forall_mem_cons.mpr ⟨hwhole, hreliable⟩) hok
    refine Literal.Spells.coerce_isOf ?_
    rwa [String.toList_ofList]
  · cases hv

/-- The analysis of an order that may be limited. -/
def limitAnalyzer : Analyzer where
  side := []
  root := .ofProperties
    [("limit", .ofType .number), ("open", .ofType .boolean), ("vip", .ofType .boolean)]
  helpers := .builtins

/-- An order that is not open. -/
def limitData : Value :=
  .object [("limit", .number (.uint 7)), ("open", .bool false), ("vip", .bool true)]

/-- A number is chosen in four ways: twice it is spelled out, once it is referred to, and once it
is calculated. -/
def limitSource : Source :=
  ⟨"limit", "\x7b\x7b! limit \x7d\x7d\n\x7b\x7b#if open\x7d\x7d 12 {{else if vip}}" ++
    "\x7b\x7b#unless limit\x7d\x7d-0.5{{else}} {{limit}}\x7b\x7b/unless\x7d\x7d" ++
    "{{else}}{{add limit 1}}\x7b\x7b/if\x7d\x7d\n"⟩

/-- An order that is not open takes the limit that it has. -/
theorem limit_isOf :
    ∃ t v, Template.read limitSource = .ok t ∧
      Artifact.execute ⟨t, limitAnalyzer.helpers⟩ [] limitData = .ok v ∧ v.IsOf .number := by
  have hread : ∃ t, Template.read limitSource = .ok t ∧
      decide ((∃ s ∈ t.program.singleBlock?, s.isConditional = true) ∧
        (analyze limitAnalyzer t.program).schema.category? = some .number ∧
        (∀ q ∈ t.program.branches, Reliable limitAnalyzer ⟨⟨[], limitData⟩, limitAnalyzer.helpers⟩
          [⟨some limitAnalyzer.root, false⟩] [⟨limitData, none⟩] q) ∧
        (Artifact.execute ⟨t, limitAnalyzer.helpers⟩ [] limitData).toOption.isSome = true) = true :=
    exists_eq_ok (by decide +kernel)
  obtain ⟨t, ht, hchecked⟩ := hread
  obtain ⟨⟨s, hblock, hs⟩, hkind, hreliable, hrun⟩ := of_decide_eq_true hchecked
  obtain ⟨v, hv⟩ := Option.isSome_iff_exists.mp hrun
  have hok := toOption_eq_some.mp hv
  exact ⟨t, v, ht, hok, conditional_isOf hblock hs hkind hreliable hok⟩

end TypedTemplate
