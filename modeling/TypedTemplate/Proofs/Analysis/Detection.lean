import TypedTemplate.Proofs.Analysis.Conditionals

/-!
# What literal text is taken for

The analysis takes literal text for a scalar of the kind that the text spells, and the execution
turns rendered text back into a scalar. Both look at the text without the blanks around it, and
both know one grammar; but the grammar bounds no number, and the execution keeps a text whose number
is beyond floating point. Up to that limit the two agree on every text.

* `Literal.coerce_isOf_iff`, `Literal.coerce_eq_string_iff`: what becomes of a text, by whether it
  spells a scalar.
* `Literal.spells_iff`: a text spells a scalar of its kind, if it is no number beyond the limit.
* `Branch.category?_ofBody`: a body of text contributes the kind that the text spells.
* **`coerce_detected`**: what becomes of a text is what is detected in it, within the limit.
* `not_coerce_detected`: the limit is needed.
-/

namespace TypedTemplate

namespace Literal

variable {raw : String} {text : List Char} {c : Category}

/-! ## What becomes of a text -/

/-- A scalar is of one kind. -/
theorem eq_of_isOf {v : Value} {d : Category} (hc : v.IsOf c) (hd : v.IsOf d) : c = d := by
  cases c with
  | number =>
    obtain ⟨n, rfl⟩ := hc
    cases d with
    | number => rfl
    | boolean =>
      obtain ⟨b, hb⟩ := hd
      cases hb
    | null => cases hd
  | boolean =>
    obtain ⟨b, rfl⟩ := hc
    cases d with
    | number =>
      obtain ⟨n, hn⟩ := hd
      cases hn
    | boolean => rfl
    | null => cases hd
  | null =>
    obtain rfl : v = .null := hc
    cases d with
    | number =>
      obtain ⟨n, hn⟩ := hd
      cases hn
    | boolean =>
      obtain ⟨b, hb⟩ := hd
      cases hb
    | null => rfl

theorem not_isOf_string (s : String) : ¬(Value.string s).IsOf c := by
  cases c <;> simp [Value.IsOf]

/-- A text that spells no scalar is kept, blanks and all. -/
theorem coerce_of_not_spells (h : ∀ c, ¬Spells c raw.toList) : coerce raw = .string raw := by
  unfold coerce
  simp only
  cases hkind : category? (Text.trim raw.toList) with
  | none => rfl
  | some d =>
    cases d with
    | boolean => exact absurd ⟨hkind, fun hnumber => by cases hnumber⟩ (h .boolean)
    | null => exact absurd ⟨hkind, fun hnumber => by cases hnumber⟩ (h .null)
    | number =>
      simp only
      cases hread : Number.ofText? (Text.trim raw.toList) with
      | none => rfl
      | some n => exact absurd ⟨hkind, fun _ => by rw [hread]; rfl⟩ (h .number)

/-- **A text becomes a scalar of the kind that it spells**, and of no other. -/
theorem coerce_isOf_iff : (coerce raw).IsOf c ↔ Spells c raw.toList := by
  constructor
  · intro h
    refine Classical.byContradiction fun hnot => ?_
    have hkept : coerce raw = .string raw := by
      refine coerce_of_not_spells fun d hd => hnot ?_
      obtain rfl := eq_of_isOf h hd.coerce_isOf
      exact hd
    rw [hkept] at h
    exact not_isOf_string raw h
  · exact Spells.coerce_isOf

/-- **A text is kept just when it spells no scalar.** -/
theorem coerce_eq_string_iff : coerce raw = .string raw ↔ ∀ c, ¬Spells c raw.toList := by
  constructor
  · intro h c hc
    have hof := hc.coerce_isOf
    rw [h] at hof
    exact not_isOf_string raw hof
  · exact coerce_of_not_spells

/-! ## What a text spells -/

theorem isNumberLiteral_of_category? (h : category? text = some .number) :
    isNumberLiteral text = true := by
  unfold category? at h
  split at h
  · cases h
  · split at h
    · cases h
    · split at h
      · next hliteral => exact hliteral
      · cases h

/-- **A text spells a scalar of its kind**, if it is no number beyond the limit. -/
theorem spells_iff : Spells c text ↔
    category? (Text.trim text) = some c ∧ (c = .number → InRange (Text.trim text)) := by
  constructor
  · rintro ⟨hkind, hread⟩
    refine ⟨hkind, ?_⟩
    rintro rfl
    exact (isSome_ofText?_iff (isNumberLiteral_of_category? hkind)).mp (hread rfl)
  · rintro ⟨hkind, hrange⟩
    refine ⟨hkind, ?_⟩
    rintro rfl
    exact (isSome_ofText?_iff (isNumberLiteral_of_category? hkind)).mpr (hrange rfl)

/-- A text spells no scalar if none is detected in it, or a number beyond the limit. -/
theorem forall_not_spells_iff : (∀ c, ¬Spells c text) ↔
    category? (Text.trim text) = none ∨
      category? (Text.trim text) = some .number ∧ ¬InRange (Text.trim text) := by
  simp only [spells_iff]
  cases category? (Text.trim text) with
  | none => simp
  | some d => cases d <;> simp

end Literal

/-! ## Text in a body -/

/-- A body of text contributes the kind of scalar that is detected in it. -/
theorem Branch.category?_ofBody {p : Program} {chars : List Char} (h : p.pureText? = some chars)
    (schema : Schema) : (ofBody p schema).category? = Literal.category? (Text.trim chars) := by
  unfold ofBody
  rw [h]
  cases hkind : Literal.category? (Text.trim chars) with
  | none => simp [hkind, category?]
  | some c => simp [hkind, category?]

/-- **Detection and coercion agree within the limit.** A text becomes a number, a boolean or null
just when that kind is detected in it without the blanks around it, a number being below the limit
of floating point, and is kept as it is just when none is detected, or a number beyond the limit.
So, in any scopes and contexts, a body of text whose number is below the limit contributes a kind to
the analysis just when what it renders becomes a scalar of that kind. -/
theorem coerce_detected :
    (∀ text : String,
        (∀ c, (Literal.coerce text).IsOf c ↔
          Literal.category? (Text.trim text.toList) = some c ∧
            (c = .number → Literal.InRange (Text.trim text.toList))) ∧
        (Literal.coerce text = .string text ↔
          Literal.category? (Text.trim text.toList) = none ∨
            Literal.category? (Text.trim text.toList) = some .number ∧
              ¬Literal.InRange (Text.trim text.toList))) ∧
      ∀ (p : Program) (chars : List Char), p.pureText? = some chars →
        (Literal.category? (Text.trim chars) = some .number →
          Literal.InRange (Text.trim chars)) →
        ∀ (a : Analyzer) (scopes : List Scope) (r : Renderer) (frames : List Frame)
          (c : Literal.Category),
          (a.contribution scopes p).category? = some c ↔
            ∃ text, r.renderProgram frames p = .ok text ∧
              (Literal.coerce (String.ofList text)).IsOf c := by
  refine ⟨fun text => ⟨fun c => ?_, ?_⟩, ?_⟩
  · rw [Literal.coerce_isOf_iff, Literal.spells_iff]
  · rw [Literal.coerce_eq_string_iff, Literal.forall_not_spells_iff]
  · intro p chars hpure hrange a scopes r frames c
    have hrendered : (∃ text, r.renderProgram frames p = .ok text ∧
        (Literal.coerce (String.ofList text)).IsOf c) ↔ Literal.Spells c chars := by
      rw [r.renderProgram_of_pureText? frames hpure]
      simp only [Except.ok.injEq, exists_eq_left', Literal.coerce_isOf_iff, String.toList_ofList]
    unfold Analyzer.contribution
    rw [hrendered, Branch.category?_ofBody hpure, Literal.spells_iff]
    constructor
    · intro hkind
      exact ⟨hkind, fun hnumber => hrange (hnumber ▸ hkind)⟩
    · exact And.left

/-- A fraction on a line of its own. -/
def fractionBody : Program := [.content ⟨1, 1, 0, 9⟩ "\n -12.50\n"]

/-- A fraction is taken for a number, and becomes one. -/
theorem fraction_detected :
    fractionBody.pureText? = some "\n -12.50\n".toList ∧
      (Analyzer.contribution ⟨⟨[], .any⟩, .builtins⟩ [] fractionBody).category? = some .number ∧
      ∃ text, Renderer.renderProgram ⟨⟨[], .null⟩, .builtins⟩ [] fractionBody = .ok text ∧
        (Literal.coerce (String.ofList text)).IsOf .number := by
  have hpure : fractionBody.pureText? = some "\n -12.50\n".toList := by decide
  have hkind : (Analyzer.contribution ⟨⟨[], .any⟩, .builtins⟩ [] fractionBody).category? =
      some .number := by decide
  have hagree := coerce_detected.2 fractionBody _ hpure (fun _ => by decide +kernel)
    ⟨⟨[], .any⟩, .builtins⟩ [] ⟨⟨[], .null⟩, .builtins⟩ [] .number
  exact ⟨hpure, hkind, hagree.mp hkind⟩

/-- One, and so many zeros that it is beyond floating point. -/
def beyondLimit : List Char := '1' :: List.replicate 309 '0'

/-- **The limit is needed**: a number is detected in the text, and the text is kept. -/
theorem not_coerce_detected :
    ¬∀ text : String,
        ((∃ n, Literal.coerce text = .number n) ↔
          Literal.category? (Text.trim text.toList) = some .number) ∧
        (Literal.coerce text = .string text ↔
          Literal.category? (Text.trim text.toList) = none) := by
  intro hall
  have hkind : Literal.category? (Text.trim beyondLimit) = some .number := by decide +kernel
  have hbeyond : ¬Literal.InRange (Text.trim beyondLimit) := by decide +kernel
  have hkept : Literal.coerce (String.ofList beyondLimit) = .string (String.ofList beyondLimit) := by
    rw [Literal.coerce_eq_string_iff, Literal.forall_not_spells_iff, String.toList_ofList]
    exact .inr ⟨hkind, hbeyond⟩
  have hnone := (hall (String.ofList beyondLimit)).2.mp hkept
  rw [String.toList_ofList, hkind] at hnone
  cases hnone

end TypedTemplate
