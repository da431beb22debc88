import TypedTemplate.Helper.Catalogue
import TypedTemplate.Proofs.Execution.Scalars
import TypedTemplate.Proofs.Render.Lone

/-!
# Booleans and integers survive rendering

A lone call and a lone block are rendered, and the text is turned back into a scalar. A boolean and
an integer are the same afterwards: they are written in full, and what is written is read as an
integer of 64 bits before it is read as anything else. An integer comes back without a sign where it
needs none. The blanks that stand around it in the template do not matter.

* `Value.kept?`: the form in which a boolean or an integer is kept; `Value.equals_of_kept?` and
  `Value.exists_kept?_of_integer?` say that it is the same one.
* **`Value.coerce_of_kept?`**: what is written is read back, between any blanks.
* `Renderer.Yields`: the value that a program comes down to, from block to body.
* **`Renderer.Yields.render`**: such a program is rendered to its value between blanks.
* **`scalars_survive`**: lone calls and lone blocks that come down to a boolean or an integer are
  executed to it.
-/

namespace TypedTemplate

/-! ## Booleans and integers -/

namespace Value

/-- **The form in which a boolean or an integer is kept**: an integer without a sign where it
needs none. Other values have no such form. -/
def kept? : Value → Option Value
  | .bool b => some (.bool b)
  | .number (.uint n) => some (.number (.uint n))
  | .number (.int n) => some (.number (.ofInt64 n))
  | _ => none

variable {v w : Value}

/-- The boolean or integer that comes back equals the one that was there. -/
theorem equals_of_kept? (h : v.kept? = some w) : w.equals v = true := by
  unfold kept? at h
  split at h
  · cases h
    simp [equals]
  · cases h
    simp [equals, Number.equals, Number.integer?]
  · next n =>
    cases h
    have hsame : (Number.int n).integer? = some n.toInt := rfl
    simp [equals, Number.equals, Number.integer?_ofInt64, hsame]
  · cases h

/-- **An integer comes back as the same integer**, without a sign just when it is not negative. -/
theorem exists_kept?_of_integer? {n : Number} {z : Int} (h : n.integer? = some z) :
    ∃ m, (number n).kept? = some (.number m) ∧ m.integer? = some z ∧
      (0 ≤ z → ∃ k, m = .uint k) ∧ (z < 0 → ∃ k, m = .int k) := by
  cases n with
  | float f => cases h
  | uint k =>
    cases h
    exact ⟨.uint k, rfl, rfl, fun _ => ⟨k, rfl⟩, fun hneg => by omega⟩
  | int k =>
    cases h
    refine ⟨.ofInt64 k, rfl, Number.integer?_ofInt64 k, ?_, ?_⟩
    · intro hsign
      exact ⟨_, if_pos hsign⟩
    · intro hsign
      exact ⟨k, if_neg (by omega)⟩

end Value

/-! ## Writing and reading back -/

/-- A number literal between blanks is read as its number. -/
theorem Literal.coerce_of_isNumberLiteral {cs : List Char} (h : isNumberLiteral cs = true)
    {n : Number} (hn : Number.ofText? cs = some n) {before after : List Char}
    (hbefore : Text.IsBlank before) (hafter : Text.IsBlank after) :
    coerce (String.ofList (before ++ cs ++ after)) = .number n := by
  have htrim : Text.trim (before ++ cs ++ after) = cs := by
    rw [Text.trim_surrounded hbefore hafter, trim_of_isNumberLiteral h]
  unfold coerce
  simp only [String.toList_ofList, htrim, category?_of_isNumberLiteral h, hn]

/-- **What is written of a boolean or an integer is read back**, whatever blanks stand around it. -/
theorem Value.coerce_of_kept? {v w : Value} (h : v.kept? = some w) {before after : List Char}
    (hbefore : Text.IsBlank before) (hafter : Text.IsBlank after) :
    Literal.coerce (String.ofList (before ++ v.renderChars ++ after)) = w := by
  unfold kept? at h
  split at h
  · next b =>
    cases h
    have htrim := Text.trim_surrounded hbefore hafter (Value.bool b).renderChars
    unfold Literal.coerce
    rw [String.toList_ofList, htrim]
    cases b <;> rfl
  · next n =>
    cases h
    refine Literal.coerce_of_isNumberLiteral ?_ (Number.ofText?_chars_uint n) hbefore hafter
    exact (Number.reads_back (n := .uint n) trivial).1
  · next n =>
    cases h
    refine Literal.coerce_of_isNumberLiteral ?_ (Number.ofText?_chars_int n) hbefore hafter
    exact (Number.reads_back (n := .int n) trivial).1
  · cases h

/-! ## What a program comes down to -/

namespace Renderer

/-- **The value that a program comes down to**: that of its lone expression, or what the body that
its lone block renders comes down to. -/
inductive Yields (r : Renderer) : List Frame → Program → Value → Prop where
  | expression {frames : List Frame} {p : Program} {s : Statement} {v : Value}
    (lone : p.singleExpression? = some s) (value : r.valueOf frames s = .ok v) : Yields r frames p v
  | branch {frames inner : List Frame} {p body : Program} {s : Statement} {v : Value}
    (lone : p.singleBlock? = some s) (taken : r.branch? frames s = some (inner, body))
    (yields : Yields r inner body v) : Yields r frames p v

/-- **A program is rendered to the value that it comes down to**, between blanks. -/
theorem Yields.render {r : Renderer} {frames : List Frame} {p : Program} {v : Value}
    (h : r.Yields frames p v) :
    ∃ before after, Text.IsBlank before ∧ Text.IsBlank after ∧
      r.renderProgram frames p = .ok (before ++ v.renderChars ++ after) := by
  induction h with
  | @expression frames p s v lone value =>
    obtain ⟨hsig, span, head, params, hash, rfl⟩ := significant_of_singleExpression? lone
    obtain ⟨before, after, hbefore, hafter, hrender⟩ := r.renderProgram_of_significant frames hsig
    have hvalue : r.evaluateStatement frames span head params hash = .ok v := value
    refine ⟨before, after, hbefore, hafter, ?_⟩
    rw [hrender, renderStatement, hvalue]
    rfl
  | @branch frames inner p body s v lone taken _ ih =>
    -- The blanks around the block go with those around what its body comes down to.
    obtain ⟨before, after, hbefore, hafter, hrender⟩ :=
      r.renderProgram_of_significant frames (significant_of_singleBlock? lone)
    obtain ⟨front, back, hfront, hback, hinner⟩ := ih
    refine ⟨before ++ front, back ++ after, List.forall_mem_append.mpr ⟨hbefore, hfront⟩,
      List.forall_mem_append.mpr ⟨hback, hafter⟩, ?_⟩
    rw [hrender, r.renderStatement_of_branch? frames taken, hinner]
    simp [Except.map]

end Renderer

/-! ## Execution -/

theorem tier_of_singleExpression? {p : Program} {s : Statement} (h : p.singleExpression? = some s)
    (hcall : s.isPlain = false) : p.tier = .helper := by
  unfold Program.tier
  simp [h, hcall]

section Execution

variable {t : Template} {helpers : HelperSet} {side : SideTable Value} {data : Value} {v w : Value}

/-- A program that is rendered for a scalar, and comes down to a boolean or an integer, is executed
to it. -/
theorem execute_of_yields {tier : Tier} (htier : t.program.tier = tier)
    (hscalar : tier = .helper ∨ tier = .block)
    (hyields : Renderer.Yields ⟨⟨side, data⟩, helpers⟩ [⟨data, none⟩] t.program v)
    (h : v.kept? = some w) : Artifact.execute ⟨t, helpers⟩ side data = .ok w := by
  obtain ⟨before, after, hbefore, hafter, hrender⟩ := hyields.render
  have htext : Artifact.render ⟨t, helpers⟩ side data =
      .ok (String.ofList (before ++ v.renderChars ++ after)) := by
    rw [Artifact.render, Renderer.render, hrender]
    rfl
  have hread := Value.coerce_of_kept? h hbefore hafter
  rcases hscalar with rfl | rfl
  · rw [(execute_of_rendered helpers side data htier (by decide) (by decide)).1 _ htext]
    exact congrArg Except.ok hread
  · rw [(execute_of_rendered helpers side data htier (by decide) (by decide)).1 _ htext]
    exact congrArg Except.ok hread

end Execution

/-- **Booleans and integers survive rendering.** Every boolean and every integer of 64 bits, with a
sign or without one, is read back from its text as the same, whatever blanks stand around it, and an
integer without a sign just when it is not negative. So a template that is one call, and a template
that is one block, the body that it renders being an expression or a block of that sort again, is
executed to just that boolean or integer, wherever the call or expression has it for a value. -/
theorem scalars_survive :
    (∀ b : Bool, (Value.bool b).kept? = some (.bool b)) ∧
      (∀ (n : Number) (z : Int), n.integer? = some z →
        ∃ m, (Value.number n).kept? = some (.number m) ∧ m.integer? = some z ∧
          (0 ≤ z → ∃ k, m = .uint k) ∧ (z < 0 → ∃ k, m = .int k)) ∧
      ∀ v w : Value, v.kept? = some w →
        w.equals v = true ∧
        (∀ before after : String, Text.IsBlank before.toList → Text.IsBlank after.toList →
          Literal.coerce (before ++ v.render ++ after) = w) ∧
        ∀ (t : Template) (helpers : HelperSet) (side : SideTable Value) (data : Value),
          (∀ s, t.program.singleExpression? = some s → s.isPlain = false →
            Renderer.valueOf ⟨⟨side, data⟩, helpers⟩ [⟨data, none⟩] s = .ok v →
              Artifact.execute ⟨t, helpers⟩ side data = .ok w) ∧
          ∀ s inner body, t.program.singleBlock? = some s →
            Renderer.branch? ⟨⟨side, data⟩, helpers⟩ [⟨data, none⟩] s = some (inner, body) →
              Renderer.Yields ⟨⟨side, data⟩, helpers⟩ inner body v →
                Artifact.execute ⟨t, helpers⟩ side data = .ok w := by
  refine ⟨fun _ => rfl, fun n z => Value.exists_kept?_of_integer?, ?_⟩
  intro v w h
  refine ⟨Value.equals_of_kept? h, ?_, ?_⟩
  · intro before after hbefore hafter
    have htext : before ++ v.render ++ after =
        String.ofList (before.toList ++ v.renderChars ++ after.toList) := by
      apply String.toList_inj.mp
      simp [Value.render]
    rw [htext]
    exact Value.coerce_of_kept? h hbefore hafter
  · intro t helpers side data
    constructor
    · intro s hlone hcall hvalue
      exact execute_of_yields (tier_of_singleExpression? hlone hcall) (.inl rfl)
        (.expression hlone hvalue) h
    · intro s inner body hlone htaken hyields
      exact execute_of_yields (tier_of_singleBlock? hlone) (.inr rfl)
        (.branch hlone htaken hyields) h

/-- An order with the least integer that there is for a total. -/
def leastData : Value :=
  .object [("order", .object [("open", .bool false), ("total", .number (.int Int64.minValue))])]

/-- The total stands in an alternative in a block over the order, with blanks around each tag. -/
def leastSource : Source :=
  ⟨"least", " \x7b\x7b#with order\x7d\x7d\n\x7b\x7b#if open\x7d\x7d0{{else}} {{total}} " ++
    "\x7b\x7b/if\x7d\x7d\n\x7b\x7b/with\x7d\x7d\n"⟩

/-- The least integer comes back from an alternative in a block over the order. -/
theorem least_survives :
    ∃ t, Template.read leastSource = .ok t ∧
      Artifact.execute ⟨t, .builtins⟩ [] leastData = .ok (.number (.int Int64.minValue)) := by
  have hread : ∃ t, Template.read leastSource = .ok t ∧
      decide (∃ s ∈ t.program.singleBlock?,
        ∃ x ∈ Renderer.branch? ⟨⟨[], leastData⟩, .builtins⟩ [⟨leastData, none⟩] s,
        ∃ inner ∈ x.2.singleBlock?,
        ∃ y ∈ Renderer.branch? ⟨⟨[], leastData⟩, .builtins⟩ x.1 inner,
        ∃ e ∈ y.2.singleExpression?,
        ∃ v ∈ (Renderer.valueOf ⟨⟨[], leastData⟩, .builtins⟩ y.1 e).toOption,
          v.number? = some (.int Int64.minValue)) = true :=
    exists_eq_ok (by decide +kernel)
  obtain ⟨t, ht, hchecked⟩ := hread
  obtain ⟨s, hs, ⟨frames, body⟩, hbody, inner, hinner, ⟨within, alternative⟩, halternative, e, he,
    v, hv, hnumber⟩ := of_decide_eq_true hchecked
  obtain rfl : v = .number (.int Int64.minValue) := Value.number?_eq_some.mp hnumber
  have hkept : (Value.number (.int Int64.minValue)).kept? =
      some (.number (.int Int64.minValue)) := rfl
  have hsurvives := (scalars_survive.2.2 _ _ hkept).2.2
  exact ⟨t, ht, (hsurvives t .builtins [] leastData).2 s frames body hs hbody
    (.branch hinner halternative (.expression he (toOption_eq_some.mp hv)))⟩

end TypedTemplate
