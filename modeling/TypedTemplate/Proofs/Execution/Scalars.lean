import TypedTemplate.Proofs.Execution.Tiers
import TypedTemplate.Proofs.Number.Literals

/-!
# Scalars that come back from rendering

Rendering a lone block gives text, which becomes a scalar again when it spells one. Blanks around
it do not matter. A boolean, an integer and a finite number are rendered to text that spells them,
so they come back as scalars of their kind; null is rendered as nothing, and does not.

* `Value.IsOf`: a scalar of a kind; `Value.Shows`: one that rendering spells out.
* `Literal.Spells`: a text that stands for a scalar of a kind.
* `Text.trim_surrounded`: blanks around a text are trimmed with its own.
* `Literal.Spells.coerce_isOf`: what a text stands for is a scalar of the kind it spells.
* **`Value.Shows.spells`**: a boolean or a finite number is rendered to a text that spells one.
-/

namespace TypedTemplate

/-! ## Scalars of a kind -/

namespace Value

/-- The value is a scalar of a kind. -/
def IsOf (v : Value) : Literal.Category → Prop
  | .number => ∃ n, v = .number n
  | .boolean => ∃ b, v = .bool b
  | .null => v = .null

theorem number?_eq_some {v : Value} {n : Number} : v.number? = some n ↔ v = .number n := by
  cases v <;> simp [number?]

/-- The value is a scalar of a kind that rendering spells out: a boolean, or an integer or finite
number. -/
def Shows : Value → Literal.Category → Prop
  | .number n, .number => n.IsFinite
  | .bool _, .boolean => True
  | _, _ => False

instance (v : Value) (c : Literal.Category) : Decidable (v.Shows c) :=
  match v, c with
  | .number n, .number => inferInstanceAs (Decidable n.IsFinite)
  | .bool _, .boolean => .isTrue trivial
  | .number _, .boolean | .number _, .null | .bool _, .number | .bool _, .null => .isFalse id
  | .null, _ | .string _, _ | .array _, _ | .object _, _ | .undefined, _ => .isFalse id

end Value

/-- Once trimmed, the text spells a scalar of a kind, and where that is a number, one that can be
read. -/
structure Literal.Spells (c : Category) (text : List Char) : Prop where
  category : category? (Text.trim text) = some c
  readable : c = .number → (Number.ofText? (Text.trim text)).isSome = true

/-! ## Trimming -/

namespace Text

theorem trimStart_append {before : List Char} (h : IsBlank before) (cs : List Char) :
    trimStart (before ++ cs) = trimStart cs := by
  unfold trimStart
  exact List.dropWhile_append_of_pos h

theorem trimEnd_append {after : List Char} (h : IsBlank after) (cs : List Char) :
    trimEnd (cs ++ after) = trimEnd cs := by
  have hreverse : IsBlank after.reverse := by
    intro c hc
    exact h c (List.mem_reverse.mp hc)
  unfold trimEnd
  rw [List.reverse_append, trimStart_append hreverse]

theorem trimStart_of_isBlank {cs : List Char} (h : IsBlank cs) : trimStart cs = [] := by
  have happend := trimStart_append h []
  rwa [List.append_nil] at happend

/-- A text that does not start with a blank keeps its start. -/
theorem trimStart_of_not_isBlank {c : Char} {cs : List Char} (h : isBlank c = false) :
    trimStart (c :: cs) = c :: cs := by
  unfold trimStart
  rw [List.dropWhile_cons_of_neg (by simp [h])]

/-- Blanks behind a text are trimmed with its own. -/
theorem trim_append {after : List Char} (h : IsBlank after) (cs : List Char) :
    trim (cs ++ after) = trim cs := by
  unfold trim
  cases hrest : trimStart cs with
  | nil =>
    -- Nothing but blanks: there is no end to trim apart from them.
    have hblank : IsBlank cs := by
      intro c hc
      rw [eq_append_trimStart cs, hrest, List.append_nil] at hc
      exact List.all_eq_true.mp List.all_takeWhile c hc
    rw [trimStart_append hblank, trimStart_of_isBlank h]
  | cons c rest =>
    have hfirst : isBlank c = false := by
      have hhead := List.head?_dropWhile_not isBlank cs
      rw [show cs.dropWhile isBlank = c :: rest from hrest] at hhead
      simpa using hhead
    have hsplit := eq_append_trimStart cs
    rw [hrest] at hsplit
    have hfront : IsBlank (cs.takeWhile isBlank) := by
      intro c hc
      exact List.all_eq_true.mp List.all_takeWhile c hc
    rw [hsplit, List.append_assoc, trimStart_append hfront, List.cons_append,
      trimStart_of_not_isBlank hfirst, ← List.cons_append, trimEnd_append h]

/-- Blanks around a text are trimmed with its own. -/
theorem trim_surrounded {before after : List Char} (hbefore : IsBlank before)
    (hafter : IsBlank after) (cs : List Char) : trim (before ++ cs ++ after) = trim cs := by
  rw [trim_append hafter]
  unfold trim
  rw [trimStart_append hbefore]

/-- A text without blanks is trimmed already. -/
theorem trim_of_no_blank {cs : List Char} (h : ∀ c ∈ cs, isBlank c = false) : trim cs = cs := by
  have hstart : ∀ ds : List Char, (∀ c ∈ ds, isBlank c = false) → trimStart ds = ds := by
    intro ds hds
    cases ds with
    | nil => rfl
    | cons c rest => exact trimStart_of_not_isBlank (hds c List.mem_cons_self)
  have hreverse : ∀ c ∈ cs.reverse, isBlank c = false := by
    intro c hc
    exact h c (List.mem_reverse.mp hc)
  unfold trim trimEnd
  rw [hstart cs h, hstart cs.reverse hreverse, List.reverse_reverse]

/-- A digit is no blank. -/
theorem isBlank_of_isDigit {c : Char} (h : c.isDigit = true) : isBlank c = false := by
  have hrange : 48 ≤ c.toNat ∧ c.toNat ≤ 57 := Char.isDigit_iff_toNat.mp h
  simp only [isBlank, inRanges, blankRanges, List.any_cons, List.any_nil, Bool.or_false,
    Bool.or_eq_false_iff, Bool.and_eq_false_iff, decide_eq_false_iff_not]
  omega

end Text

/-! ## Texts that spell scalars -/

namespace Literal

/-- A number without a sign has digits and a point. -/
theorem isDigit_or_of_isUnsignedLiteral {cs : List Char} (h : isUnsignedLiteral cs = true)
    {c : Char} (hc : c ∈ cs) : c.isDigit = true ∨ c = '.' := by
  rcases exists_parts_of_isUnsignedLiteral h with hdigits | ⟨whole, fraction, hwhole, hfraction, rfl⟩
  · exact .inl (hdigits.digits c hc)
  · rw [List.mem_append, List.mem_cons] at hc
    rcases hc with hc | rfl | hc
    · exact .inl (hwhole.digits c hc)
    · exact .inr rfl
    · exact .inl (hfraction.digits c hc)

/-- There is no blank in a number literal. -/
theorem not_isBlank_of_isNumberLiteral {cs : List Char} (h : isNumberLiteral cs = true) :
    ∀ c ∈ cs, Text.isBlank c = false := by
  have hunsigned : ∀ ds : List Char, isUnsignedLiteral ds = true →
      ∀ c ∈ ds, Text.isBlank c = false := by
    intro ds hds c hc
    rcases isDigit_or_of_isUnsignedLiteral hds hc with hdigit | rfl
    · exact Text.isBlank_of_isDigit hdigit
    · decide
  unfold isNumberLiteral at h
  split at h
  · next rest =>
    intro c hc
    rcases List.mem_cons.mp hc with rfl | hc
    · decide
    · exact hunsigned rest h c hc
  · exact hunsigned cs h

/-- A number literal is trimmed already. -/
theorem trim_of_isNumberLiteral {cs : List Char} (h : isNumberLiteral cs = true) :
    Text.trim cs = cs :=
  Text.trim_of_no_blank (not_isBlank_of_isNumberLiteral h)

/-- A number literal spells no other scalar. -/
theorem category?_of_isNumberLiteral {cs : List Char} (h : isNumberLiteral cs = true) :
    category? cs = some .number := by
  have hword : ∀ word : List Char, isNumberLiteral word = false → cs ≠ word := by
    rintro word hnot rfl
    rw [hnot] at h
    cases h
  unfold category?
  rw [if_neg, if_neg (hword _ (by decide)), if_pos h]
  simp [hword ['t', 'r', 'u', 'e'] (by decide), hword ['f', 'a', 'l', 's', 'e'] (by decide)]

namespace Spells

variable {c : Category} {text : List Char}

/-- Blanks around a text do not change what it spells. -/
theorem surrounded (h : Spells c text) {before after : List Char} (hbefore : Text.IsBlank before)
    (hafter : Text.IsBlank after) : Spells c (before ++ text ++ after) := by
  have htrim := Text.trim_surrounded hbefore hafter text
  constructor
  · rw [htrim]
    exact h.category
  · rw [htrim]
    exact h.readable

/-- **What a text stands for is a scalar of the kind it spells.** -/
theorem coerce_isOf {raw : String} (h : Spells c raw.toList) : (coerce raw).IsOf c := by
  unfold coerce
  simp only [h.category]
  cases c with
  | number =>
    obtain ⟨n, hn⟩ := Option.isSome_iff_exists.mp (h.readable rfl)
    simp only [hn]
    exact ⟨n, rfl⟩
  | boolean => exact ⟨_, rfl⟩
  | null => rfl

end Spells

end Literal

/-- **A boolean or a finite number is rendered to a text that spells one.** -/
theorem Value.Shows.spells {v : Value} {c : Literal.Category} (h : v.Shows c) :
    Literal.Spells c v.renderChars := by
  unfold Shows at h
  split at h
  · next n =>
    obtain ⟨hliteral, hread⟩ := Number.reads_back h
    have htrim : Text.trim n.chars = n.chars := Literal.trim_of_isNumberLiteral hliteral
    show Literal.Spells .number n.chars
    constructor
    · rw [htrim]
      exact Literal.category?_of_isNumberLiteral hliteral
    · intro _
      rw [htrim]
      exact hread
  · next b =>
    have hnot : Literal.Category.boolean ≠ .number := by decide
    cases b with
    | true => exact ⟨by decide, fun hnumber => absurd hnumber hnot⟩
    | false => exact ⟨by decide, fun hnumber => absurd hnumber hnot⟩
  · exact absurd h id

end TypedTemplate
