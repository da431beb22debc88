import TypedTemplate.Proofs.Execution.Tiers
import TypedTemplate.Proofs.Number.Display
import TypedTemplate.Proofs.Program.WellFormed

/-!
# Canonical programs

What reading produces is smaller than the type of programs: no text is empty, literals are scalars,
arguments belong to a word that names a helper, and a block that calls none has one target. Rendering
and analysis rely on this, and have an answer ready for the shapes that do not occur. This file says
that they never give it.

* `Value.IsLiteral`, `Statement.Canonical`: the literals and the statements that are read.
* `Statement.Guarded`: the renderer finds the helper of an expression with arguments, and the target
  of a block.
* `Statement.IsReference`: an expression that may be taken for what it refers to.
* **`readProgram_canonical`**: a program that was read is canonical at every level, and what is
  executed without rendering consists of text and references.
-/

namespace TypedTemplate

/-! ## Literals -/

/-- A value that a word or string in a tag can stand for: a scalar, and finite if it is a number. -/
def Value.IsLiteral : Value → Prop
  | .number n => n.IsFinite
  | .array _ => False
  | .object _ => False
  | _ => True

namespace Expr

/-- The literal of a token is a scalar, and finite if it is a number. -/
theorem isLiteral_of_ofToken {t : Token} {span : Span} {v : Value}
    (h : ofToken t = .ok (.literal span v)) : v.IsLiteral := by
  unfold ofToken at h
  split at h
  · cases h
    trivial
  · split at h
    · next hn =>
      cases h
      exact Number.isFinite_of_ofText? hn
    · cases h
  · split at h
    · next hword =>
      cases h
      rcases wordLiteral?_eq_some hword with ⟨b, rfl⟩ | rfl | rfl
      all_goals trivial
    · obtain ⟨p, -, heq⟩ := map_eq_ok.mp h
      cases heq
  · cases h

end Expr

/-! ## Statements -/

namespace Statement

/-- The tag of a statement as it can be read: text is not empty, arguments follow a word that names
a helper, a call in parentheses has none besides its own, and a block of a kind that calls no helper
has one argument, without a name. -/
def CanonicalTag : Statement → Prop
  | .content _ text => text ≠ ""
  | .expression _ head params hash =>
    (params ≠ [] ∨ hash ≠ [] → ∃ p name, head = .path p ∧ p.simpleName? = some name) ∧
      (head.call?.isSome = true → params = [] ∧ hash = [])
  | .block _ kind params hash _ _ =>
    kind.isCustom = false → (∃ target, params = [target]) ∧ hash = []

/-- **A canonical statement**: its tag is one that can be read, and so are the paths and the literals
in it. -/
structure Canonical (s : Statement) : Prop where
  tag : s.CanonicalTag
  paths : ∀ e ∈ s.exprs, ∀ p ∈ e.paths, p.WellFormed
  literals : ∀ e ∈ s.exprs, ∀ span v, .literal span v ∈ e.parts → v.IsLiteral

/-- What the renderer takes for granted: an expression with arguments calls the helper it names, and
a block of a kind that calls no helper decides by the value of its target. -/
def Guarded : Statement → Prop
  | .content _ _ => True
  | .expression span head params hash => params ≠ [] ∨ hash ≠ [] →
    ∃ name, helperName? head params hash = some name ∧ ∀ (r : Renderer) frames,
      r.evaluateStatement frames span head params hash = r.callOn frames span name params hash
  | .block span kind params hash _ _ => kind.isCustom = false →
    ∃ target, params.head? = some target ∧ ∀ (r : Renderer) frames,
      r.decider frames span kind params hash = r.evaluate frames target

/-- A reference: a path or a literal, without arguments. -/
def IsReference (s : Statement) : Prop :=
  ∃ span head, s = .expression span head [] [] ∧ head.call? = none

end Statement

/-- The helper of an expression is named by its head. -/
theorem helperName?_eq_some {head : Expr} {params : List Expr} {hash : HashArgs} {name : String}
    (h : helperName? head params hash = some name) :
    ∃ p, head = .path p ∧ p.simpleName? = some name := by
  unfold helperName? at h
  split at h
  · next p =>
    split at h
    · exact ⟨p, rfl, h⟩
    · cases h
  · cases h

theorem Statement.CanonicalTag.of_wellFormed {span : Span} {head : Expr} {params : List Expr}
    {hash : HashArgs} (h : (Statement.expression span head params hash).WellFormed) :
    (Statement.expression span head params hash).CanonicalTag := by
  have hnamed : params ≠ [] ∨ hash ≠ [] → ∃ p name, head = .path p ∧ p.simpleName? = some name := by
    intro hne
    obtain ⟨name, hname⟩ := Option.isSome_iff_exists.mp (h.shape hne)
    obtain ⟨p, hp, hsimple⟩ := helperName?_eq_some hname
    exact ⟨p, name, hp, hsimple⟩
  refine ⟨hnamed, fun hcall => ?_⟩
  by_cases hne : params ≠ [] ∨ hash ≠ []
  · obtain ⟨p, -, rfl, -⟩ := hnamed hne
    simp [Expr.call?] at hcall
  · simpa [not_or] using hne

/-- The literals in a tag that is read can be written. -/
theorem readsAs_literals : ReadsAs fun s => ∀ e ∈ s.exprs, ∀ x ∈ e.parts, ∀ span v,
    x = .literal span v → v.IsLiteral := by
  refine readsAs_parts ?_ ?_
  · rintro t e h span v rfl
    exact Expr.isLiteral_of_ofToken h
  · simp

/-- Texts, expressions and headers that are read are canonical. -/
theorem readsAs_canonical : ReadsAs Statement.Canonical where
  content span text hne := ⟨hne, by simp [Statement.exprs], by simp [Statement.exprs]⟩
  expression span inner s h := by
    have hwell := readsAs_wellFormed.expression span inner s h
    have hliteral := readsAs_literals.expression span inner s h
    obtain ⟨-, -, head, params, hash, -, -, -, -, rfl⟩ := readExpression_eq_ok h
    exact ⟨.of_wellFormed hwell, hwell.paths, fun e he span v hv => hliteral e he _ hv span v rfl⟩
  header span text h hread program inverse := by
    have hwell := readsAs_wellFormed.header span text h hread program inverse
    have hliteral := readsAs_literals.header span text h hread program inverse
    exact ⟨hwell.shape, hwell.paths, fun e he span v hv => hliteral e he _ hv span v rfl⟩

/-! ## What is taken for granted -/

namespace Statement

/-- The renderer finds what it takes for granted in a canonical statement. -/
theorem Canonical.guarded {s : Statement} (hs : s.Canonical) : s.Guarded := by
  have htag := hs.tag
  cases s with
  | content => trivial
  | expression span head params hash =>
    intro hne
    obtain ⟨p, name, rfl, hsimple⟩ := htag.1 hne
    have hname := (helperName?_of_arguments p hne).trans hsimple
    refine ⟨name, hname, fun r frames => ?_⟩
    unfold Renderer.evaluateStatement
    rw [hname]
  | block span kind params hash program inverse =>
    intro hkind
    obtain ⟨⟨target, rfl⟩, -⟩ := htag hkind
    refine ⟨target, rfl, fun r frames => ?_⟩
    cases kind with
    | custom name => cases hkind
    | _ => rfl

/-- What calls no helper is text or a reference. -/
theorem reference_of_isPlain {s : Statement} (h : s.isPlain = true) :
    (∃ span text, s = .content span text) ∨ s.IsReference := by
  cases s with
  | content span text => exact .inl ⟨span, text, rfl⟩
  | block => simp [isPlain] at h
  | expression span head params hash =>
    have hno : isHelperCall head params hash = false := by simpa [isPlain] using h
    obtain ⟨rfl, rfl, hcall⟩ := eq_nil_of_not_isHelperCall hno
    exact .inr ⟨span, head, rfl, hcall⟩

end Statement

/-- What is executed directly is a lone reference. -/
theorem reference_of_tier_direct {p : Program} (h : p.tier = .direct) :
    ∃ s, p.singleExpression? = some s ∧ s.IsReference := by
  obtain ⟨s, hs, hplain⟩ := singleExpression?_of_tier_direct h
  obtain ⟨-, span, head, params, hash, rfl⟩ := significant_of_singleExpression? hs
  refine ⟨_, hs, ?_⟩
  rcases Statement.reference_of_isPlain hplain with ⟨_, _, heq⟩ | href
  · cases heq
  · exact href

/-- **Programs that are read are canonical.** At every level of the program of a text, every
statement is canonical, and rendering finds the helper and the target that it takes for granted in
it. What is executed directly is a lone reference, and what is put together consists of text and
references, so no call is ever evaluated without rendering. -/
theorem readProgram_canonical {text : String} {p : Program} (h : readProgram text = .ok p) :
    p.Everywhere Statement.Canonical ∧ p.Everywhere Statement.Guarded ∧
      (p.tier = .direct → ∃ s, p.singleExpression? = some s ∧ s.IsReference) ∧
      (p.tier = .fastPath → ∀ s ∈ p, (∃ span text, s = .content span text) ∨ s.IsReference) := by
  have hcanonical : p.Everywhere Statement.Canonical := readProgram_forall readsAs_canonical h
  refine ⟨hcanonical, fun s hs => (hcanonical s hs).guarded, reference_of_tier_direct, ?_⟩
  intro hfast s hs
  exact Statement.reference_of_isPlain (isPlain_of_tier_fastPath hfast s hs)

/-- A chain with calls in its headers and bodies. -/
def branchedText : String :=
  "a \x7b\x7b#if (f 1.5)\x7d\x7d\x7b\x7bg @index k='x'\x7d\x7d" ++
  "\x7b\x7belse unless ../b\x7d\x7d\x7b\x7b(h)\x7d\x7d\x7b\x7b/if\x7d\x7d"

theorem branchedText_canonical :
    (∃ p, readProgram branchedText = .ok p ∧ p.statements.length = 5 ∧
      p.Everywhere Statement.Canonical ∧ p.Everywhere Statement.Guarded) ∧
    (∃ p, readProgram "{{a}}" = .ok p ∧ p.tier = .direct ∧
      ∃ s, p.singleExpression? = some s ∧ s.IsReference) := by
  have hbranched : ∃ p, readProgram branchedText = .ok p ∧ (p.statements.length == 5) = true :=
    exists_eq_ok (by decide +kernel)
  have hlone : ∃ p, readProgram "{{a}}" = .ok p ∧ decide (p.tier = .direct) = true :=
    exists_eq_ok (by decide +kernel)
  obtain ⟨p, hread, hlength⟩ := hbranched
  obtain ⟨q, hreadLone, htier⟩ := hlone
  obtain ⟨hcanonical, hguarded, -, -⟩ := readProgram_canonical hread
  obtain ⟨-, -, hdirect, -⟩ := readProgram_canonical hreadLone
  exact ⟨⟨p, hread, beq_iff_eq.mp hlength, hcanonical, hguarded⟩,
    ⟨q, hreadLone, of_decide_eq_true htier, hdirect (of_decide_eq_true htier)⟩⟩

end TypedTemplate
