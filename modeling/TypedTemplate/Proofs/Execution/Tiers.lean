import TypedTemplate.Execution
import TypedTemplate.Proofs.Outcome
import TypedTemplate.Proofs.Program.WellFormed

/-!
# Executing and rendering agree

A program is executed by the cheapest way that its shape allows. A lone reference and text with
references never reach the renderer: their paths are resolved against the data alone, without
frames, variables of an iteration, or helpers. Everything else is rendered. This file says that the
choice of the way shows only in what becomes of the text.

## Results

* `resolveRoot_eq_resolve`: a well-formed path refers to the same value with and without frames.
* `renderProgram_of_plain`: a program without calls and blocks renders, whatever the helpers are,
  to what its statements contribute one by one.
* **`execute_agrees_render`**: under every tier, execution gives what the tier promises of the
  rendered text (`Tier.Agrees`), and fails just where rendering does.
-/

namespace TypedTemplate

/-! ## References -/

theorem step?_undefined (segment : String) :
    Value.undefined.step? segment = if isSelfSegment segment then some .undefined else none := rfl

theorem foldlM_step?_undefined (segments : List String) :
    segments.foldlM Value.step? .undefined = some .undefined ∨
      segments.foldlM Value.step? .undefined = none := by
  induction segments with
  | nil => exact .inl rfl
  | cons segment rest ih =>
    rw [List.foldlM_cons, step?_undefined]
    by_cases hself : isSelfSegment segment = true
    · rw [if_pos hself]
      exact ih
    · rw [if_neg hself]
      exact .inr rfl

/-- Nothing lies behind what is missing. -/
theorem follow_undefined (segments : List String) :
    Value.undefined.follow segments = .undefined := by
  rw [Value.follow, Value.walk?]
  rcases foldlM_step?_undefined segments with h | h <;> rw [h] <;> rfl

/-- Without an iteration there is one variable, the data. -/
theorem lookup_of_no_iteration (env : Environment) (context : Value) (name : String) :
    env.lookup [⟨context, none⟩] name = if name = "root" then env.root else .undefined := rfl

/-- **Where the data is the only context, frames do not matter**: a well-formed path refers to the
same value. -/
theorem resolveRoot_eq_resolve (side : SideTable Value) (data : Value) {p : Path}
    (hp : p.WellFormed) :
    resolveRoot side data p = Environment.resolve ⟨side, data⟩ [⟨data, none⟩] p := by
  rw [resolveRoot, Environment.resolve]
  by_cases hdata : p.data = true
  · obtain ⟨hdepth, -, hparts⟩ := hp.of_data hdata
    obtain ⟨name, rest, hcons⟩ := List.exists_cons_of_ne_nil hparts
    rw [if_neg (by omega), if_pos hdata, if_pos hdata, hcons]
    simp only [lookup_of_no_iteration]
    by_cases hroot : name = "root"
    · rw [if_pos hroot, hroot]
      rfl
    · rw [if_neg hroot, follow_undefined]
      split
      · next heq => exact absurd (List.cons.inj heq).1 hroot
      · rfl
  · rw [if_neg hdata, if_neg hdata]
    by_cases hdepth : 0 < p.depth
    · have hnone : ([⟨data, none⟩] : List Frame)[p.depth]? = none :=
        List.getElem?_eq_none (Nat.succ_le_of_lt hdepth)
      rw [if_pos hdepth, hnone]
    · have hzero : p.depth = 0 := by omega
      rw [if_neg hdepth, hzero]
      rfl

/-! ## Plain programs -/

section Plain

variable (helpers : HelperSet) (side : SideTable Value) (data : Value)

/-- An expression that is no call and has no arguments. -/
theorem eq_nil_of_not_isHelperCall {head : Expr} {params : List Expr}
    {hash : List (String × Expr)} (h : isHelperCall head params hash = false) :
    params = [] ∧ hash = [] ∧ head.call? = none := by
  unfold isHelperCall at h
  rw [Bool.or_eq_false_iff, Bool.or_eq_false_iff] at h
  refine ⟨by simpa using h.1.1, by simpa using h.1.2, ?_⟩
  cases head with
  | path => rfl
  | literal => rfl
  | call => cases h.2

theorem evaluate_of_no_call {head : Expr} (hcall : head.call? = none)
    (hpaths : ∀ p ∈ head.paths, p.WellFormed) :
    Renderer.evaluate ⟨⟨side, data⟩, helpers⟩ [⟨data, none⟩] head =
      .ok (head.value side data) := by
  cases head with
  | path p =>
    rw [Renderer.evaluate, Expr.value,
      resolveRoot_eq_resolve side data (hpaths p (by simp))]
  | literal => rfl
  | call => cases hcall

/-- A statement without calls renders to what it contributes. -/
theorem renderStatement_of_plain {s : Statement} (hplain : s.isPlain = true)
    (hs : s.WellFormed) :
    Renderer.renderStatement ⟨⟨side, data⟩, helpers⟩ [⟨data, none⟩] s =
      .ok (s.plainChars side data) := by
  cases s with
  | content => rfl
  | block => cases hplain
  | expression span head params hash =>
    have hno : isHelperCall head params hash = false := by simpa [Statement.isPlain] using hplain
    obtain ⟨-, -, hcall⟩ := eq_nil_of_not_isHelperCall hno
    have hname : helperName? head params hash = none := by
      cases head <;> simp [helperName?, hno]
    rw [Renderer.renderStatement, Renderer.evaluateStatement, hname]
    simp only
    rw [evaluate_of_no_call helpers side data hcall (hs.paths head List.mem_cons_self)]
    rfl

/-- **A program without calls and blocks renders, to what its statements contribute.** -/
theorem renderProgram_of_plain {p : Program} (hplain : ∀ s ∈ p, s.isPlain = true)
    (hp : ∀ s ∈ p, s.WellFormed) :
    Renderer.renderProgram ⟨⟨side, data⟩, helpers⟩ [⟨data, none⟩] p =
      .ok (p.flatMap (Statement.plainChars side data)) := by
  induction p with
  | nil => rfl
  | cons s rest ih =>
    rw [List.forall_mem_cons] at hplain hp
    rw [Renderer.renderProgram, renderStatement_of_plain helpers side data hplain.1 hp.1]
    simp only
    rw [ih hplain.2 hp.2]
    rfl

theorem render_of_plain {p : Program} (hplain : ∀ s ∈ p, s.isPlain = true)
    (hp : ∀ s ∈ p, s.WellFormed) :
    Renderer.render ⟨⟨side, data⟩, helpers⟩ p = .ok (p.concatenate side data) := by
  rw [Renderer.render, renderProgram_of_plain helpers side data hplain hp]
  rfl

end Plain

/-! ## Blank text -/

/-- A text of blanks. -/
def Text.IsBlank (cs : List Char) : Prop := ∀ c ∈ cs, Text.isBlank c = true

theorem Text.isBlank_of_trim_eq_nil {cs : List Char} (h : Text.trim cs = []) :
    Text.IsBlank cs := by
  have hfront : Text.IsBlank (Text.trimStart cs) := by
    have hsplit := Text.eq_trimEnd_append (Text.trimStart cs)
    rw [show Text.trimEnd (Text.trimStart cs) = [] from h, List.nil_append] at hsplit
    intro c hc
    rw [hsplit, List.mem_reverse] at hc
    exact List.all_eq_true.mp List.all_takeWhile c hc
  intro c hc
  rw [Text.eq_append_trimStart cs, List.mem_append] at hc
  rcases hc with hc | hc
  · exact List.all_eq_true.mp List.all_takeWhile c hc
  · exact hfront c hc

/-- Blank statements contribute blanks. -/
theorem isBlank_flatMap_plainChars (side : SideTable Value) (data : Value) {p : Program}
    (h : ∀ s ∈ p, s.isBlank = true) :
    Text.IsBlank (p.flatMap (Statement.plainChars side data)) := by
  intro c hc
  obtain ⟨s, hs, hc⟩ := List.mem_flatMap.mp hc
  have hblank := h s hs
  cases s with
  | content span text =>
    exact Text.isBlank_of_trim_eq_nil (List.isEmpty_iff.mp hblank) c hc
  | expression => cases hblank
  | block => cases hblank

theorem isPlain_of_isBlank {s : Statement} (h : s.isBlank = true) : s.isPlain = true := by
  cases s with
  | content => rfl
  | expression => cases h
  | block => cases h

/-- A lone significant statement stands between blank ones. -/
theorem eq_append_of_significant {p : Program} {s : Statement} (h : p.significant = [s]) :
    ∃ before after : Program, p = before ++ s :: after ∧
      (∀ b ∈ before, b.isBlank = true) ∧ (∀ b ∈ after, b.isBlank = true) := by
  obtain ⟨before, after, rfl, hbefore, -, hafter⟩ := List.filter_eq_cons_iff.mp h
  refine ⟨before, after, rfl, fun b hb => by simpa using hbefore b hb, fun b hb => ?_⟩
  simpa using List.filter_eq_nil_iff.mp hafter b hb

/-! ## Tiers -/

/-- What a tier promises about an execution, given the rendering of the same program. -/
def Tier.Agrees (tier : Tier) (source : Source) (executed : Except TemplateError Value)
    (rendered : Rendered String) : Prop :=
  match tier with
  | .direct => ∃ v before after, Text.IsBlank before ∧ Text.IsBlank after ∧ executed = .ok v ∧
      rendered = .ok (String.ofList (before ++ v.renderChars ++ after))
  | .fastPath => ∃ text, rendered = .ok text ∧ executed = .ok (.string text)
  | .helper | .block =>
    (∀ text, rendered = .ok text → executed = .ok (Literal.coerce text)) ∧
      ∀ failure, rendered = .error failure → executed = .error (.failed source failure)
  | .fallback =>
    (∀ text, rendered = .ok text → executed = .ok (.string text)) ∧
      ∀ failure, rendered = .error failure → executed = .error (.failed source failure)

/-- The lone expression of a program executed directly. -/
theorem singleExpression?_of_tier_direct {p : Program} (h : p.tier = .direct) :
    ∃ s, p.singleExpression? = some s ∧ s.isPlain = true := by
  rw [Program.tier] at h
  split at h
  · next s hs =>
    split at h
    · next hplain => exact ⟨s, hs, hplain⟩
    · cases h
  · split at h
    · cases h
    · split at h <;> cases h

/-- A lone expression is the only significant statement. -/
theorem significant_of_singleExpression? {p : Program} {s : Statement}
    (h : p.singleExpression? = some s) :
    p.significant = [s] ∧
      ∃ span head params hash, s = .expression span head params hash := by
  rw [Program.singleExpression?] at h
  split at h
  · next span head params hash hsig =>
    cases h
    exact ⟨hsig, span, head, params, hash, rfl⟩
  · cases h

theorem isPlain_of_tier_fastPath {p : Program} (h : p.tier = .fastPath) :
    ∀ s ∈ p, s.isPlain = true := by
  rw [Program.tier] at h
  split at h
  · split at h <;> cases h
  · split at h
    · next hconcat =>
      rw [Bool.and_eq_true] at hconcat
      exact List.all_eq_true.mp hconcat.1
    · split at h <;> cases h

variable (helpers : HelperSet) (side : SideTable Value) (data : Value)

/-- A lone reference is executed to the value that its rendering shows between blanks. -/
theorem agrees_of_direct {t : Template} (hwell : ∀ s ∈ t.program, s.WellFormed)
    (htier : t.program.tier = .direct) :
    Tier.direct.Agrees t.source (Artifact.execute ⟨t, helpers⟩ side data)
      (Artifact.render ⟨t, helpers⟩ side data) := by
  obtain ⟨s, hs, hplain⟩ := singleExpression?_of_tier_direct htier
  obtain ⟨hsig, span, head, params, hash, rfl⟩ := significant_of_singleExpression? hs
  obtain ⟨before, after, hsplit, hbefore, hafter⟩ := eq_append_of_significant hsig
  have hall : ∀ s ∈ t.program, s.isPlain = true := by
    rw [hsplit, List.forall_mem_append, List.forall_mem_cons]
    exact ⟨fun b hb => isPlain_of_isBlank (hbefore b hb), hplain,
      fun b hb => isPlain_of_isBlank (hafter b hb)⟩
  refine ⟨head.value side data, before.flatMap (Statement.plainChars side data),
    after.flatMap (Statement.plainChars side data), isBlank_flatMap_plainChars side data hbefore,
    isBlank_flatMap_plainChars side data hafter, ?_, ?_⟩
  · rw [Artifact.execute, Program.execute, Program.direct?, htier]
    simp only
    rw [hs]
    rfl
  · rw [Artifact.render, render_of_plain helpers side data hall hwell, Program.concatenate, hsplit,
      List.flatMap_append, List.flatMap_cons, List.append_assoc]
    rfl

/-- Text and references are put together to just what they render to. -/
theorem agrees_of_fastPath {t : Template} (hwell : ∀ s ∈ t.program, s.WellFormed)
    (htier : t.program.tier = .fastPath) :
    Tier.fastPath.Agrees t.source (Artifact.execute ⟨t, helpers⟩ side data)
      (Artifact.render ⟨t, helpers⟩ side data) := by
  refine ⟨t.program.concatenate side data, ?_, ?_⟩
  · exact render_of_plain helpers side data (isPlain_of_tier_fastPath htier) hwell
  · rw [Artifact.execute, Program.execute, Program.direct?, htier]

/-- Where a program has to be rendered, the rendering decides: its text is interpreted, and its
failure is the failure of the execution. -/
theorem execute_of_rendered {t : Template} {tier : Tier} (htier : t.program.tier = tier)
    (hdirect : tier ≠ .direct) (hfast : tier ≠ .fastPath) :
    (∀ text, Artifact.render ⟨t, helpers⟩ side data = .ok text →
      Artifact.execute ⟨t, helpers⟩ side data = .ok (tier.interpret text)) ∧
    ∀ failure, Artifact.render ⟨t, helpers⟩ side data = .error failure →
      Artifact.execute ⟨t, helpers⟩ side data = .error (.failed t.source failure) := by
  have hnone : t.program.direct? side data = none := by
    rw [Program.direct?, htier]
    cases tier with
    | direct => exact absurd rfl hdirect
    | fastPath => exact absurd rfl hfast
    | _ => rfl
  have hrun : Artifact.execute ⟨t, helpers⟩ side data = tier.run ⟨t, helpers⟩ side data := by
    rw [Artifact.execute, Program.execute, hnone, htier]
  refine ⟨fun text h => ?_, fun failure h => ?_⟩
  · rw [hrun, Tier.run, h]
  · rw [hrun, Tier.run, h]

/-- **Executing and rendering agree.** Whatever the helpers and the data are, a template that was
read is executed to what its tier promises of its rendering. -/
theorem execute_agrees_render {source : Source} {t : Template}
    (h : Template.read source = .ok t) :
    t.program.tier.Agrees source (Artifact.execute ⟨t, helpers⟩ side data)
      (Artifact.render ⟨t, helpers⟩ side data) := by
  have hwell : ∀ s ∈ t.program, s.WellFormed := (Template.wellFormed_of_read h).of_mem
  obtain ⟨rfl, -⟩ := Template.read_eq_ok h
  cases htier : t.program.tier with
  | direct => exact agrees_of_direct helpers side data hwell htier
  | fastPath => exact agrees_of_fastPath helpers side data hwell htier
  | helper => exact execute_of_rendered helpers side data htier (by decide) (by decide)
  | block => exact execute_of_rendered helpers side data htier (by decide) (by decide)
  | fallback => exact execute_of_rendered helpers side data htier (by decide) (by decide)

/-- Text and a reference, without any helper. -/
theorem greeting_agrees :
    ∃ t, Template.read ⟨"greeting", "Hello {{user.name}}!"⟩ = .ok t ∧ t.program.tier = .fastPath ∧
      Tier.fastPath.Agrees ⟨"greeting", "Hello {{user.name}}!"⟩
        (Artifact.execute ⟨t, []⟩ [] (.object [("user", .object [("name", .string "Ada")])]))
        (Artifact.render ⟨t, []⟩ [] (.object [("user", .object [("name", .string "Ada")])])) := by
  have hread : ∃ t, Template.read ⟨"greeting", "Hello {{user.name}}!"⟩ = .ok t ∧
      decide (t.program.tier = .fastPath) = true := exists_eq_ok (by decide +kernel)
  obtain ⟨t, ht, htier⟩ := hread
  have htier := of_decide_eq_true htier
  exact ⟨t, ht, htier, htier ▸ execute_agrees_render [] [] _ ht⟩

end TypedTemplate
