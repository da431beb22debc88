import TypedTemplate.Proofs.Analysis.Conditionals

/-!
# Where analysis and execution expect text

The analysis looks at the significant statements of a program to see whether it can produce anything
but text, and so does the choice of a tier, in its own order: lone expressions first, then text with
references, then lone blocks. This file says that the two come to the same answer, whatever stands
between the blanks.

* `Tier.isTextual`: the tiers that give the rendered text as it is.
* **`tier_isTextual_iff`**: a program is executed as text unless a lone expression or a lone block
  is all that it is in effect.
* `schema_of_isTextual`, `execute_of_isTextual`: what is inferred for it, and what it gives.
* **`textual_agrees`**: analysis and execution agree on the programs that are text.
-/

namespace TypedTemplate

/-- The tiers that give a text as it is. -/
def Tier.isTextual : Tier → Bool
  | .fastPath => true
  | .fallback => true
  | _ => false

theorem Tier.isTextual_iff {t : Tier} : t.isTextual = true ↔ t = .fastPath ∨ t = .fallback := by
  cases t <;> simp [isTextual]

theorem Tier.not_isTextual_iff {t : Tier} :
    ¬ t.isTextual = true ↔ t = .direct ∨ t = .helper ∨ t = .block := by
  cases t <;> simp [isTextual]

/-! ## Shapes -/

/-- A lone expression is executed directly or by its helper. -/
theorem not_isTextual_of_singleExpression? {p : Program} {s : Statement}
    (h : p.singleExpression? = some s) : ¬ p.tier.isTextual = true := by
  unfold Program.tier
  rw [h]
  cases hplain : s.isPlain <;> simp [hplain, Tier.isTextual]

/-- **A program is executed as text** unless it is a lone expression or a lone block. -/
theorem tier_isTextual_iff (p : Program) :
    p.tier.isTextual = true ↔ p.singleExpression? = none ∧ p.singleBlock? = none := by
  constructor
  · intro h
    constructor
    · cases hexpression : p.singleExpression? with
      | none => rfl
      | some s => exact absurd h (not_isTextual_of_singleExpression? hexpression)
    · cases hblock : p.singleBlock? with
      | none => rfl
      | some s =>
        rw [tier_of_singleBlock? hblock] at h
        cases h
  · rintro ⟨hexpression, hblock⟩
    unfold Program.tier
    rw [hexpression, hblock]
    simp only [Option.isSome_none, Bool.false_eq_true, if_false]
    by_cases hconcat : (p.isConcatenation && 1 < p.significant.length) = true
    · rw [if_pos hconcat]
      rfl
    · rw [if_neg hconcat]
      rfl

/-- The only significant statement of such a program, if there is only one, is text. -/
theorem exists_content_of_isTextual {p : Program} (h : p.tier.isTextual = true) {s : Statement}
    (hsig : p.significant = [s]) : ∃ span text, s = .content span text := by
  obtain ⟨hexpression, hblock⟩ := (tier_isTextual_iff p).mp h
  unfold Program.singleExpression? at hexpression
  unfold Program.singleBlock? at hblock
  rw [hsig] at hexpression hblock
  cases s with
  | content span text => exact ⟨span, text, rfl⟩
  | expression => cases hexpression
  | block => cases hblock

/-! ## Analysis -/

theorem bodySchema_of_length_ne_one {schemas : List Schema} (h : schemas.length ≠ 1) :
    bodySchema schemas = .ofType .string := by
  match schemas with
  | [] => rfl
  | [s] => exact absurd rfl h
  | _ :: _ :: _ => rfl

/-- **What is executed as text is inferred to be text.** -/
theorem schema_of_isTextual (a : Analyzer) {p : Program} (h : p.tier.isTextual = true) :
    (analyze a p).schema = .ofType .string := by
  show (a.inferProgram [⟨some a.root, false⟩] p).1 = _
  by_cases hone : p.significant.length = 1
  · obtain ⟨s, hsig⟩ := List.length_eq_one_iff.mp hone
    obtain ⟨span, text, rfl⟩ := exists_content_of_isTextual h hsig
    rw [a.inferProgram_of_significant _ hsig]
    rfl
  · unfold Analyzer.inferProgram
    simp only [Analyzer.inferStatements_schemas]
    exact bodySchema_of_length_ne_one (by rwa [List.length_map])

/-! ## Execution -/

/-- **What is executed as text gives text**, whatever is rendered for it. -/
theorem execute_of_isTextual {p : Program} (h : p.tier.isTextual = true) {a : Artifact}
    {side : SideTable Value} {data v : Value} (hv : p.execute a side data = .ok v) :
    ∃ text, v = .string text := by
  rcases Tier.isTextual_iff.mp h with hfast | hfallback
  · have hdirect : p.direct? side data = some (.string (p.concatenate side data)) := by
      unfold Program.direct?
      rw [hfast]
    unfold Program.execute at hv
    rw [hdirect] at hv
    cases hv
    exact ⟨_, rfl⟩
  · have hdirect : p.direct? side data = none := by
      unfold Program.direct?
      rw [hfallback]
    unfold Program.execute Tier.run at hv
    rw [hdirect, hfallback] at hv
    simp only at hv
    split at hv
    · next text _ =>
      cases hv
      exact ⟨text, rfl⟩
    · cases hv

/-- **Analysis and execution agree on what is text.** A program that is put together or rendered as
text is inferred to be text, over every schema and with any helpers, and gives text, over all data
and whatever the artifact is; so anything else is inferred only for a lone reference, a lone call or
a lone block. -/
theorem textual_agrees (p : Program) :
    (p.tier = .fastPath ∨ p.tier = .fallback →
      (∀ a : Analyzer, (analyze a p).schema = .ofType .string) ∧
      ∀ (a : Artifact) (side : SideTable Value) (data v : Value),
        p.execute a side data = .ok v → ∃ text, v = .string text) ∧
    ∀ a : Analyzer, (analyze a p).schema ≠ .ofType .string →
      p.tier = .direct ∨ p.tier = .helper ∨ p.tier = .block := by
  constructor
  · intro htier
    have htextual := Tier.isTextual_iff.mpr htier
    exact ⟨fun a => schema_of_isTextual a htextual,
      fun _ _ _ _ hv => execute_of_isTextual htextual hv⟩
  · intro a hschema
    refine Tier.not_isTextual_iff.mp ?_
    intro htextual
    exact hschema (schema_of_isTextual a htextual)

/-- A greeting is text, and a count is none. -/
theorem greeting_textual :
    (∃ t text, Template.read ⟨"greeting", "Hello {{name}}!"⟩ = .ok t ∧
      t.program.tier = .fastPath ∧
      (analyze ⟨⟨[], .ofType .object⟩, []⟩ t.program).schema = .ofType .string ∧
      t.program.execute ⟨t, []⟩ [] (.object [("name", .string "Ada")]) = .ok (.string text)) ∧
    ∃ t, Template.read ⟨"count", " {{count}} "⟩ = .ok t ∧
      (analyze ⟨⟨[], .ofProperties [("count", .ofType .integer)]⟩, []⟩ t.program).schema ≠
        .ofType .string ∧
      (t.program.tier = .direct ∨ t.program.tier = .helper ∨ t.program.tier = .block) := by
  constructor
  · have hread : ∃ t, Template.read ⟨"greeting", "Hello {{name}}!"⟩ = .ok t ∧
        decide (t.program.tier = .fastPath) = true := exists_eq_ok (by decide +kernel)
    obtain ⟨t, ht, htier⟩ := hread
    have htier := of_decide_eq_true htier
    obtain ⟨hschema, htext⟩ := (textual_agrees t.program).1 (.inl htier)
    have hvalue : t.program.execute ⟨t, []⟩ [] (.object [("name", .string "Ada")]) =
        .ok (.string (t.program.concatenate [] (.object [("name", .string "Ada")]))) := by
      rw [Program.execute, Program.direct?, htier]
    obtain ⟨text, htext⟩ := htext _ _ _ _ hvalue
    exact ⟨t, text, ht, htier, hschema _, by rw [hvalue, htext]⟩
  · have hread : ∃ t, Template.read ⟨"count", " {{count}} "⟩ = .ok t ∧
        decide ((analyze ⟨⟨[], .ofProperties [("count", .ofType .integer)]⟩, []⟩
          t.program).schema.category? = some .number) = true := exists_eq_ok (by decide +kernel)
    obtain ⟨t, ht, hkind⟩ := hread
    have hkind := of_decide_eq_true hkind
    have hschema : (analyze ⟨⟨[], .ofProperties [("count", .ofType .integer)]⟩, []⟩
        t.program).schema ≠ .ofType .string := by
      intro heq
      rw [heq] at hkind
      cases hkind
    exact ⟨t, ht, hschema, (textual_agrees t.program).2 _ hschema⟩

end TypedTemplate
