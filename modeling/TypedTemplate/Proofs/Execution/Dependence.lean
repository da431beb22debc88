import Mathlib.Data.List.Basic
import TypedTemplate.Helper.Arithmetic
import TypedTemplate.Proofs.Analysis.Congruence
import TypedTemplate.Proofs.Program.Branches
import TypedTemplate.Proofs.Program.Canonical
import TypedTemplate.Proofs.Render.Visits

/-!
# Results depend only on what a template mentions

A template mentions helpers where it calls them, and side sources where a path selects one. Whatever
else there is, among the helpers or beside the data, is never looked at: not by the analysis, not by
rendering, and not where a program is executed without being rendered. So a word that is not called
may be the name of any helper or of none.

* `Environment.resolve_congr`, `resolveRoot_congr`: one path.
* `direct?_congr`: programs that are not rendered; `Artifact.render_congr`: programs that are.
* `Artifact.execute_congr`: executions that agree on a template have one result.
* **`depends_on_mentions`**: the same for analysis and execution, and for a helper that is added.
-/

namespace TypedTemplate

variable {side side' : SideTable Value}

/-! ## Paths -/

theorem resolveIn_congr {segments : List String}
    (h : ∀ id, (extractIdentifier segments).2 = some id → side.get? id = side'.get? id)
    (context : Value) : resolveIn side context segments = resolveIn side' context segments := by
  unfold resolveIn
  simp only
  cases hid : (extractIdentifier segments).2 with
  | none => rfl
  | some id => simp only [h id hid]

/-- A path has the same value wherever it finds the same side source. -/
theorem Environment.resolve_congr {p : Path} (h : SideTable.AgreeOn [p] side side') (data : Value)
    (frames : List Frame) :
    Environment.resolve ⟨side, data⟩ frames p = Environment.resolve ⟨side', data⟩ frames p := by
  unfold Environment.resolve
  by_cases hdata : p.data = true
  · rw [if_pos hdata, if_pos hdata]
    rfl
  · rw [if_neg hdata, if_neg hdata]
    simp only [resolveIn_congr fun id => h.get? (by simpa using hdata)]

theorem resolveRoot_congr {p : Path} (h : SideTable.AgreeOn [p] side side') (data : Value) :
    resolveRoot side data p = resolveRoot side' data p := by
  unfold resolveRoot
  by_cases hdata : p.data = true
  · simp only [hdata, if_true]
  · simp only [hdata, resolveIn_congr fun id => h.get? (by simpa using hdata)]

theorem Expr.value_congr {e : Expr} (h : SideTable.AgreeOn e.paths side side') (data : Value) :
    e.value side data = e.value side' data := by
  cases e with
  | path p => exact resolveRoot_congr (h.mono (by simp)) data
  | literal => rfl
  | call => rfl

/-! ## Without rendering -/

namespace Statement

/-- The head of a reference is evaluated. -/
theorem head_mem_operands {span : Span} {head : Expr} (hcall : head.call? = none) :
    head ∈ (Statement.expression span head [] []).operands := by
  have hname : helperName? head [] [] = none := by
    cases head with
    | path p => simp [helperName?, isHelperCall]
    | literal => rfl
    | call => cases hcall
  simp [operands, hname]

theorem IsReference.congr {s : Statement} (hs : s.IsReference)
    (h : SideTable.AgreeOn s.paths side side') (data : Value) :
    s.headValue side data = s.headValue side' data ∧
      s.plainChars side data = s.plainChars side' data := by
  obtain ⟨span, head, rfl, hcall⟩ := hs
  have hvalue : head.value side data = head.value side' data :=
    Expr.value_congr (h.mono fun _ => mem_paths_of_operand (head_mem_operands hcall)) data
  exact ⟨hvalue, congrArg Value.renderChars hvalue⟩

end Statement

/-- **A program that is not rendered** depends on the side sources that its paths select. -/
theorem direct?_congr {p : Program} (h : SideTable.AgreeOn p.paths side side') (data : Value) :
    p.direct? side data = p.direct? side' data := by
  have hall : ∀ s ∈ p, SideTable.AgreeOn s.paths side side' := fun s hs => h.mono fun _ =>
    Program.mem_paths_of_statement (List.mem_flatMap.mpr ⟨s, hs, s.self_mem_nested⟩)
  unfold Program.direct?
  cases htier : p.tier with
  | direct =>
    obtain ⟨s, hs, href⟩ := reference_of_tier_direct htier
    obtain ⟨hsig, -⟩ := significant_of_singleExpression? hs
    simp only [hs, (href.congr (hall s (mem_of_significant hsig)) data).1]
  | fastPath =>
    have hchars : ∀ s ∈ p, s.plainChars side data = s.plainChars side' data := by
      intro s hs
      rcases Statement.reference_of_isPlain (isPlain_of_tier_fastPath htier s hs) with
        ⟨span, text, rfl⟩ | href
      · rfl
      · exact (href.congr (hall s hs) data).2
    simp only [Program.concatenate, List.flatMap_congr hchars]
  | helper => rfl
  | block => rfl
  | fallback => rfl

/-! ## With rendering -/

section Rendering

variable {helpers helpers' : HelperSet} {t : Template}

/-- **A rendering** depends on the helpers that are called and the side sources that are selected. -/
theorem Artifact.render_congr (hhelpers : HelperSet.AgreeOn t.program.calls helpers helpers')
    (hside : SideTable.AgreeOn t.program.paths side side') (data : Value) :
    Artifact.render ⟨t, helpers⟩ side data = Artifact.render ⟨t, helpers'⟩ side' data := by
  -- Visits carry scopes as well, of which rendering takes no notice.
  have hprogram : Renderer.renderProgram ⟨⟨side, data⟩, helpers⟩ [⟨data, none⟩] t.program =
      Renderer.renderProgram ⟨⟨side', data⟩, helpers'⟩ [⟨data, none⟩] t.program := by
    have hvisits : ∀ x ∈ Renderer.visitsProgram ⟨⟨[], .any⟩, []⟩ ⟨⟨side, data⟩, helpers⟩ []
        [⟨data, none⟩] t.program,
        Renderer.Alike ⟨⟨side, data⟩, helpers⟩ ⟨⟨side', data⟩, helpers'⟩ x := by
      intro x hx
      have hpath := Renderer.path_mem_of_mem_visitsProgram hx
      exact Environment.resolve_congr (hside.mono (by simpa using hpath)) data x.frames
    exact Renderer.renderProgram_congr _ hhelpers hvisits
  unfold Artifact.render Renderer.render
  simp only [hprogram]

/-- **Executions that agree on a template** have one result, a value or an error. -/
theorem Artifact.execute_congr (hhelpers : HelperSet.AgreeOn t.program.calls helpers helpers')
    (hside : SideTable.AgreeOn t.program.paths side side') (data : Value) :
    Artifact.execute ⟨t, helpers⟩ side data = Artifact.execute ⟨t, helpers'⟩ side' data := by
  unfold Artifact.execute Program.execute Tier.run
  simp only [direct?_congr hside data, Artifact.render_congr hhelpers hside data]

end Rendering

/-- **Results depend only on what a template mentions.** Where two sets of helpers agree on the calls
of a template, and two tables of schemas and two tables of data agree on the sources that its paths
select, it has one analysis, with the same diagnostics and schema, and is executed to one value or
one error. In particular a helper that it does not call may be added. -/
theorem depends_on_mentions (t : Template) (schema : Schema) (data : Value)
    {helpers helpers' : HelperSet} {schemas schemas' : SideTable Schema}
    (hhelpers : HelperSet.AgreeOn t.program.calls helpers helpers')
    (hschemas : SideTable.AgreeOn t.program.paths schemas schemas')
    (hside : SideTable.AgreeOn t.program.paths side side') :
    analyze ⟨⟨schemas, schema⟩, helpers⟩ t.program =
        analyze ⟨⟨schemas', schema⟩, helpers'⟩ t.program ∧
      Artifact.execute ⟨t, helpers⟩ side data = Artifact.execute ⟨t, helpers'⟩ side' data ∧
      ∀ h : Helper, (∀ c ∈ t.program.calls, c.name ≠ h.name) →
        analyze ⟨⟨schemas, schema⟩, helpers.add h⟩ t.program =
            analyze ⟨⟨schemas, schema⟩, helpers⟩ t.program ∧
          Artifact.execute ⟨t, helpers.add h⟩ side data = Artifact.execute ⟨t, helpers⟩ side data := by
  refine ⟨Analyzer.analyze_congr ⟨rfl, hhelpers, hschemas⟩,
    Artifact.execute_congr hhelpers hside data, fun h hunused => ?_⟩
  have hadd := HelperSet.agreeOn_add hunused helpers
  exact ⟨Analyzer.analyze_congr ⟨rfl, hadd, .refl _ _⟩, Artifact.execute_congr hadd (.refl _ _) data⟩

/-- A helper whose name is also a word of the template below. -/
def Helper.homonym : Helper := { Helper.Operation.subtract.helper with name := "name" }

/-- A word, beside a call that reads a side source. -/
def totalText : Source := ⟨"total", "{{name}}: {{add price:1 2}}"⟩

/-- Whether there is a helper `name` does not matter to `{{name}}`, nor does a side source that no
path selects. -/
theorem total_depends_on_mentions :
    ∃ t, Template.read totalText = .ok t ∧
      let add := Helper.Operation.add.helper
      let prices : Value := .object [("price", .number (.uint 40))]
      analyze ⟨⟨[(1, .any)], .any⟩, [("add", add)]⟩ t.program =
          analyze ⟨⟨[(1, .any), (2, .ofType .null)], .any⟩, [("add", add), ("name", .homonym)]⟩
            t.program ∧
        Artifact.execute ⟨t, [("add", add)]⟩ [(1, prices)] .null =
          Artifact.execute ⟨t, [("add", add), ("name", .homonym)]⟩ [(2, .null), (1, prices)] .null ∧
        Artifact.execute ⟨t, HelperSet.add [("add", add)] .homonym⟩ [(1, prices)] .null =
          Artifact.execute ⟨t, [("add", add)]⟩ [(1, prices)] .null := by
  have hread : ∃ t, Template.read totalText = .ok t ∧
      decide (t.program.calls.map CallSite.name = ["add"] ∧
        t.program.paths.map Path.selector? = [none, some 1]) = true :=
    exists_eq_ok (by decide +kernel)
  obtain ⟨t, ht, hmentions⟩ := hread
  obtain ⟨hcalls, hpaths⟩ := of_decide_eq_true hmentions
  have hadd : ∀ c ∈ t.program.calls, c.name = "add" := by
    intro c hc
    simpa [hcalls] using List.mem_map_of_mem (f := CallSite.name) hc
  have hone : ∀ p ∈ t.program.paths, ∀ id, p.selector? = some id → id = 1 := by
    intro p hp id hid
    simpa [hpaths, hid] using List.mem_map_of_mem (f := Path.selector?) hp
  refine ⟨t, ht, ?_⟩
  intro add prices
  have hhelpers : HelperSet.AgreeOn t.program.calls [("add", add)]
      [("add", add), ("name", .homonym)] := by
    intro c hc
    rw [hadd c hc]
    rfl
  have hschemas : SideTable.AgreeOn t.program.paths [(1, Schema.any)]
      [(1, .any), (2, .ofType .null)] := by
    intro p hp id hid
    rw [hone p hp id hid]
    rfl
  have hside : SideTable.AgreeOn t.program.paths [(1, prices)] [(2, .null), (1, prices)] := by
    intro p hp id hid
    rw [hone p hp id hid]
    rfl
  obtain ⟨hanalysis, hexecute, hunused⟩ :=
    depends_on_mentions t .any .null hhelpers hschemas hside
  have hname : ∀ c ∈ t.program.calls, c.name ≠ Helper.homonym.name := by
    intro c hc
    rw [hadd c hc]
    decide
  exact ⟨hanalysis, hexecute, (hunused .homonym hname).2⟩

end TypedTemplate
