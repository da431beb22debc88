import Mathlib.Data.List.Forall2
import TypedTemplate.Proofs.Analysis.Diagnostics
import TypedTemplate.Proofs.Analysis.Plain
import TypedTemplate.Proofs.Program.WellFormed
import TypedTemplate.Proofs.Render.Visits

/-!
# Scopes foresee contexts

The analysis keeps a stack of schemas, the rendering a stack of values. This file relates the two:
as long as the analysis reports no error, each scope is plain and the context at its height is
complete for it, however blocks are nested and whichever bodies are taken. So what the rendering
evaluates a path to is complete for the schema that the analysis resolved the path to.

* `Scope.Covers`, `Stacked`: a scope and a context, the two stacks.
* `Grounded`: schemas and data fit at the outset.
* `resolve_complete`: one path.
* `stacked_body`: entering a block keeps the stacks together, in every iteration.
* **`visits_foreseen`**: every path that a rendering evaluates, at any nesting, has a value that is
  complete for its schema.

A path may not lead through an index, since an array that is complete may be empty; a segment is
looked at without its selector (`Path.segments`). Nor may it both leave contexts and select a side
source: only the rendering asks for those contexts (`Path.ByName`).
-/

namespace TypedTemplate

/-! ## Where nothing is an error -/

theorem Schema.walk_of_harmless {s : Schema} {segments : List String} {p : Path}
    (h : Harmless (s.follow segments p).2) :
    ∃ found, s.walk segments = .ok found ∧ (s.follow segments p).1 = some found := by
  rw [follow] at h ⊢
  cases hwalk : s.walk segments with
  | ok found => exact ⟨found, rfl, rfl⟩
  | error miss =>
    rw [hwalk] at h
    exact absurd h (not_harmless_of_kind (by simp [Problem.kind]))

namespace Analyzer

variable {a : Analyzer} {scopes : List Scope}

/-- Where a call is harmless, so are its arguments. -/
theorem harmless_judge {span : Span} {name : String} {args : List Argument}
    {named : List Diagnostic} (h : Harmless (a.judge span name args named).2) :
    (∀ arg ∈ args, Harmless arg.diagnostics) ∧ Harmless named := by
  have hkind : ∀ d : Diagnostic, d.problem.kind = .argumentMismatch → d.isError = false :=
    fun d hd => by simp [Diagnostic.isError, Problem.severity, hd]
  rw [Harmless, judge_filter hkind, List.append_eq_nil_iff, List.append_eq_nil_iff] at h
  exact ⟨List.flatMap_eq_nil_iff.mp h.1.2, h.2⟩

theorem harmless_inferCall {span : Span} {name : String} {params : List Expr}
    {hash : List (String × Expr)} (h : Harmless (a.inferCall scopes span name params hash).2) :
    (∀ e ∈ params, Harmless (a.inferExpr scopes e).2) ∧
      ∀ e ∈ hash, Harmless (a.inferExpr scopes e.2).2 := by
  obtain ⟨hargs, hnamed⟩ := harmless_judge h
  rw [inferNamed_diagnostics] at hnamed
  refine ⟨fun e he => ?_, harmless_flatMap.mp hnamed⟩
  have hmem : (a.inferExpr scopes e).2 ∈
      (a.inferAll scopes params).map Argument.diagnostics := by
    rw [inferAll_diagnostics]
    exact List.mem_map_of_mem he
  obtain ⟨arg, harg, heq⟩ := List.mem_map.mp hmem
  exact heq ▸ hargs arg harg

theorem harmless_callOperands {span : Span} {name : String} {params : List Expr}
    {hash : List (String × Expr)} (h : Harmless (a.inferCall scopes span name params hash).2) :
    ∀ e ∈ params ++ hash.map Prod.snd, Harmless (a.inferExpr scopes e).2 := by
  obtain ⟨hparams, hhash⟩ := harmless_inferCall h
  refine List.forall_mem_append.mpr ⟨hparams, fun e he => ?_⟩
  obtain ⟨named, hnamed, rfl⟩ := List.mem_map.mp he
  exact hhash named hnamed

/-- Where the tag of an expression is harmless, so are its operands. -/
theorem harmless_inferExpression {span : Span} {head : Expr} {params : List Expr}
    {hash : List (String × Expr)}
    (hs : (Statement.expression span head params hash).WellFormed)
    (h : Harmless (a.inferExpression scopes span head params hash).2) :
    ∀ e ∈ (Statement.expression span head params hash).operands,
      Harmless (a.inferExpr scopes e).2 := by
  rw [inferExpression] at h
  rw [Statement.operands]
  cases hname : helperName? head params hash with
  | some name =>
    rw [hname] at h
    exact harmless_callOperands h
  | none =>
    rw [hname] at h
    obtain ⟨rfl, rfl⟩ := hs.arguments_eq_nil hname
    exact List.forall_mem_singleton.mpr h

/-- Where the tag of a block is harmless, so are its operands. -/
theorem harmless_enter {span : Span} {kind : BlockKind} {params : List Expr}
    {hash : List (String × Expr)} {program : Program} {inverse : Option Program}
    (hs : (Statement.block span kind params hash program inverse).WellFormed)
    (h : Harmless (a.enter scopes span kind params hash).2) :
    ∀ e ∈ (Statement.block span kind params hash program inverse).operands,
      Harmless (a.inferExpr scopes e).2 := by
  cases hkind : kind.isCustom with
  | true =>
    cases kind with
    | custom name => exact harmless_callOperands h
    | _ => cases hkind
  | false =>
    obtain ⟨⟨target, rfl⟩, rfl⟩ := hs.shape hkind
    refine List.forall_mem_singleton.mpr ?_
    cases kind with
    | custom name => cases hkind
    | whenTrue => exact h
    | whenFalse => exact h
    | inside => exact h
    | forEach =>
      rw [enter] at h
      split at h
      · next heq => rw [heq]; exact h
      · next heq => rw [heq]; exact (harmless_append.mp h).1

end Analyzer

/-! ## Stacks -/

/-- A scope covers a context: the context is complete for the schema of the scope, and the body of
an iteration knows its position. -/
structure Scope.Covers (scope : Scope) (frame : Frame) : Prop where
  schema : ∃ s, scope.schema = some s ∧ s.Plain ∧ s.Complete frame.context
  iterating : scope.iterating = true → frame.iteration.isSome = true
  key : ∀ it, frame.iteration = some it → ∃ i, it.key = .number (.ofNat i)

/-- **The two stacks belong together**: they are of one height, and every scope covers the context
beside it. -/
structure Stacked (scopes : List Scope) (frames : List Frame) : Prop where
  nonempty : frames ≠ []
  covers : List.Forall₂ Scope.Covers scopes frames

theorem Stacked.push {scopes : List Scope} {frames : List Frame} (h : Stacked scopes frames)
    {scope : Scope} {frame : Frame} (hnew : scope.Covers frame) :
    Stacked (scope :: scopes) (frame :: frames) :=
  ⟨List.cons_ne_nil _ _, .cons hnew h.covers⟩

/-- Inside an iteration for the analysis, there is one for the rendering. -/
theorem exists_iteration {scopes : List Scope} {frames : List Frame}
    (h : List.Forall₂ Scope.Covers scopes frames) (hany : scopes.any Scope.iterating = true) :
    ∃ it, frames.findSome? Frame.iteration = some it ∧ ∃ i, it.key = .number (.ofNat i) := by
  induction h with
  | nil => cases hany
  | @cons scope frame scopes frames hcovers _ ih =>
    cases hit : frame.iteration with
    | some it => exact ⟨it, by rw [List.findSome?_cons, hit], hcovers.key it hit⟩
    | none =>
      rw [List.any_cons, Bool.or_eq_true] at hany
      rcases hany with hown | hrest
      · have hsome := hcovers.iterating hown
        rw [hit] at hsome
        cases hsome
      · obtain ⟨it, hfind, hkey⟩ := ih hrest
        exact ⟨it, by rw [List.findSome?_cons, hit]; exact hfind, hkey⟩

/-- At one height there is a context beside a scope. -/
theorem exists_frame {R : Scope → Frame → Prop} {scopes : List Scope} {frames : List Frame}
    (h : List.Forall₂ R scopes frames) {depth : Nat} {scope : Scope}
    (hscope : scopes[depth]? = some scope) :
    ∃ frame, frames[depth]? = some frame ∧ R scope frame := by
  induction h generalizing depth with
  | nil => cases hscope
  | @cons _ frame _ _ hbeside _ ih =>
    cases depth with
    | zero => cases hscope; exact ⟨frame, rfl, hbeside⟩
    | succ depth => exact ih hscope

/-- **Schemas and data fit at the outset.** The schemas are plain, the data is complete, and each
side schema has a complete source. -/
structure Grounded (a : Analyzer) (r : Renderer) : Prop where
  plainRoot : a.root.Plain
  root : a.root.Complete r.root
  plainSide : ∀ id s, a.side.get? id = some s → s.Plain
  side : ∀ id s, a.side.get? id = some s → ∃ v, r.side.get? id = some v ∧ s.Complete v

theorem Grounded.stacked {a : Analyzer} {r : Renderer} (h : Grounded a r) :
    Stacked [⟨some a.root, false⟩] [⟨r.root, none⟩] :=
  ⟨List.cons_ne_nil _ _, .cons ⟨⟨a.root, rfl, h.plainRoot, h.root⟩, fun hit => Bool.noConfusion hit,
    fun _ hit => by cases hit⟩ .nil⟩

/-! ## Paths -/

namespace Path

/-- The segments that a path walks along, without the selector of a side source. -/
def segments (p : Path) : List String :=
  if p.data then p.parts else (extractIdentifier p.parts).1

/-- **The path walks by names**, through no index, and leaves no contexts when it selects a side
source. -/
structure ByName (p : Path) : Prop where
  names : ∀ segment ∈ p.segments, isIndexSegment segment = false
  selected : p.selector?.isSome = true → p.depth = 0

instance (p : Path) : Decidable p.ByName :=
  decidable_of_iff ((∀ segment ∈ p.segments, isIndexSegment segment = false) ∧
      (p.selector?.isSome = true → p.depth = 0))
    ⟨fun h => ⟨h.1, h.2⟩, fun h => ⟨h.names, h.selected⟩⟩

end Path

section Paths

variable {a : Analyzer} {r : Renderer} {scopes : List Scope} {frames : List Frame}

/-- A variable of an iteration is complete for its schema. -/
theorem lookup_complete {it : Iteration} {i : Nat} (hkey : it.key = .number (.ofNat i))
    {name : String} {s : Schema} (h : iterationSchema? name = some s) :
    s.Plain ∧ s.Complete (it.lookup name) := by
  rw [iterationSchema?] at h
  have hnumber : ∀ n, (Value.number (.ofNat n)).HasType .integer := fun _ => .inl rfl
  have hbool : ∀ b, (Value.bool b).HasType .boolean := fun _ => .inl rfl
  split at h
  · next hname =>
    cases h
    refine ⟨Schema.plain_ofType (by decide), Schema.complete_ofType ?_⟩
    rw [Bool.or_eq_true, decide_eq_true_iff, decide_eq_true_iff] at hname
    rcases hname with rfl | rfl
    · exact hnumber it.index
    · exact (show it.lookup "key" = it.key from rfl) ▸ hkey ▸ hnumber i
  · split at h
    · next hname =>
      cases h
      refine ⟨Schema.plain_ofType (by decide), Schema.complete_ofType ?_⟩
      rw [Bool.or_eq_true, decide_eq_true_iff, decide_eq_true_iff] at hname
      rcases hname with rfl | rfl
      · exact hbool it.first
      · exact hbool it.last
    · cases h

theorem follow_of_harmless {s : Schema} {v : Value} (hs : s.Plain) (hv : s.Complete v)
    {segments : List String} (hsegments : ∀ segment ∈ segments, isIndexSegment segment = false)
    {p : Path} (h : Harmless (s.follow segments p).2) :
    ∃ found, (s.follow segments p).1 = some found ∧ found.Plain ∧
      found.Complete (v.follow segments) := by
  obtain ⟨found, hwalk, hfound⟩ := s.walk_of_harmless h
  exact ⟨found, hfound, Schema.follow_complete hs hv hsegments hwalk⟩

/-- A path to a variable. -/
theorem resolveVariable_complete (hg : Grounded a r) (hstack : Stacked scopes frames) {p : Path}
    (hdata : p.data = true) (hwell : p.WellFormed) (hname : p.ByName)
    (h : Harmless (a.resolveVariable scopes p).2) :
    ∃ s, (a.resolveVariable scopes p).1 = some s ∧ s.Plain ∧ s.Complete (r.resolve frames p) := by
  obtain ⟨-, -, hne⟩ := hwell.of_data hdata
  obtain ⟨name, rest, hparts⟩ := List.exists_cons_of_ne_nil hne
  have hrest : ∀ segment ∈ rest, isIndexSegment segment = false := by
    have hnames := hname.names
    rw [Path.segments, if_pos hdata, hparts, List.forall_mem_cons] at hnames
    exact hnames.2
  rw [Environment.resolve, if_pos hdata]
  rw [Declarations.resolveVariable] at h ⊢
  simp only [hparts] at h ⊢
  by_cases hroot : name = "root"
  · rw [if_pos hroot] at h ⊢
    rw [Environment.lookup, if_pos hroot]
    exact follow_of_harmless hg.plainRoot hg.root hrest h
  · rw [if_neg hroot] at h ⊢
    rw [Environment.lookup, if_neg hroot]
    cases hvariable : iterationSchema? name with
    | none =>
      rw [hvariable] at h
      exact absurd h (not_harmless_of_kind (by simp [Problem.kind]))
    | some s =>
      rw [hvariable] at h
      simp only at h ⊢
      split at h
      · next hany =>
        obtain ⟨it, hfind, i, hkey⟩ := exists_iteration hstack.covers hany
        obtain ⟨hplain, hcomplete⟩ := lookup_complete hkey hvariable
        rw [if_pos hany, hfind]
        exact follow_of_harmless hplain hcomplete hrest h
      · exact absurd h (not_harmless_of_kind (by simp [Problem.kind]))

/-- **One path**: where the analysis has nothing against it, it has a schema, and its value is
complete for the schema. -/
theorem resolve_complete (hg : Grounded a r) (hstack : Stacked scopes frames) {p : Path}
    (hwell : p.WellFormed) (hname : p.ByName) (h : Harmless (a.resolve scopes p).2) :
    ∃ s, (a.resolve scopes p).1 = some s ∧ s.Plain ∧ s.Complete (r.resolve frames p) := by
  by_cases hdata : p.data = true
  · rw [Declarations.resolve, if_pos hdata] at h ⊢
    exact resolveVariable_complete hg hstack hdata hwell hname h
  · have hnames := hname.names
    have hselected := hname.selected
    rw [Path.segments, if_neg hdata] at hnames
    rw [Path.selector?, if_neg hdata] at hselected
    rw [Declarations.resolve, if_neg hdata] at h ⊢
    rw [Environment.resolve, if_neg hdata]
    simp only [resolveIn]
    simp only at h ⊢
    cases hid : (extractIdentifier p.parts).2 with
    | some id =>
      rw [hid] at h hselected
      simp only at h ⊢
      obtain ⟨frame, rest, hframes⟩ := List.exists_cons_of_ne_nil hstack.nonempty
      rw [hselected rfl, hframes]
      cases hsource : a.side.get? id with
      | none =>
        rw [hsource] at h
        exact absurd h (not_harmless_of_kind (by simp [Problem.kind]))
      | some source =>
        rw [hsource] at h
        obtain ⟨v, hv, hcomplete⟩ := hg.side id source hsource
        simp only [List.getElem?_cons_zero, hv]
        exact follow_of_harmless (hg.plainSide id source hsource) hcomplete hnames h
    | none =>
      rw [hid] at h
      simp only at h ⊢
      cases hscope : scopes[p.depth]? with
      | none =>
        rw [hscope] at h
        exact absurd h (not_harmless_of_kind (by simp [Problem.kind]))
      | some scope =>
        obtain ⟨frame, hframe, hcovers⟩ := exists_frame hstack.covers hscope
        obtain ⟨s, hs, hplain, hcomplete⟩ := hcovers.schema
        simp only [hscope, hs] at h ⊢
        simp only [hframe]
        exact follow_of_harmless hplain hcomplete hnames h

end Paths

/-! ## Tags -/

/-- An evaluation that the analysis foresaw: the path has a schema, and its value is there and
complete for it. -/
def Visit.Foreseen (a : Analyzer) (r : Renderer) (x : Visit) : Prop :=
  ∃ s, (a.resolve x.scopes x.path).1 = some s ∧ s.Complete (r.resolve x.frames x.path) ∧
    r.resolve x.frames x.path ≠ .undefined

/-- What the statement iterates over, or enters, is a path. -/
def Statement.isOverPath : Statement → Bool
  | .block _ .forEach (target :: _) _ _ _ => target.path?.isSome
  | .block _ .inside (target :: _) _ _ _ => target.path?.isSome
  | _ => true

/-- **A statement whose references can be foreseen**: its paths walk by names, and what it iterates
over or enters is a path. -/
structure Statement.Referential (s : Statement) : Prop where
  wellFormed : s.WellFormed
  overPath : s.isOverPath = true
  paths : ∀ p ∈ s.paths, p.ByName

section Tags

variable {a : Analyzer} {r : Renderer} {scopes : List Scope} {frames : List Frame}

/-- The evaluations in an expression are foreseen. -/
theorem visitsExpr_foreseen (hg : Grounded a r) (hstack : Stacked scopes frames) {e : Expr}
    (hpaths : ∀ p ∈ e.paths, p.WellFormed ∧ p.ByName) (h : Harmless (a.inferExpr scopes e).2) :
    ∀ x ∈ r.visitsExpr scopes frames e, x.Foreseen a r := by
  induction e using Expr.induction with
  | path p =>
    obtain ⟨hwell, hname⟩ := hpaths p (by simp)
    obtain ⟨s, hs, hplain, hcomplete⟩ := resolve_complete hg hstack hwell hname h
    exact List.forall_mem_singleton.mpr ⟨s, hs, hcomplete, hcomplete.ne_undefined hplain⟩
  | literal span v => exact fun _ hx => absurd hx List.not_mem_nil
  | call span name params hash ihParams ihHash =>
    obtain ⟨hparams, hhash⟩ := Analyzer.harmless_inferCall h
    rw [Expr.paths_call, List.forall_mem_append, List.forall_mem_flatMap,
      List.forall_mem_flatMap] at hpaths
    intro x hx
    have hcall : x ∈ r.visitsCall scopes frames name params hash := hx
    obtain ⟨e, he, hx⟩ := Renderer.exists_of_mem_visitsCall hcall
    rcases List.mem_append.mp he with he | he
    · exact ihParams e he (hpaths.1 e he) (hparams e he) x hx
    · obtain ⟨named, hnamed, rfl⟩ := List.mem_map.mp he
      exact ihHash named hnamed (hpaths.2 named hnamed) (hhash named hnamed) x hx

/-- The evaluations in a tag are foreseen, where its operands are harmless. -/
theorem visitsTag_foreseen (hg : Grounded a r) (hstack : Stacked scopes frames) {s : Statement}
    (hs : s.Referential) (h : ∀ e ∈ s.operands, Harmless (a.inferExpr scopes e).2) :
    ∀ x ∈ r.visitsTag scopes frames s, x.Foreseen a r := by
  intro x hx
  obtain ⟨e, he, hx⟩ := Renderer.exists_of_mem_visitsTag hx
  refine visitsExpr_foreseen hg hstack (fun p hp => ⟨?_, ?_⟩) (h e he) x hx
  · exact hs.wellFormed.paths e (Statement.mem_exprs_of_mem_operands he) p hp
  · exact hs.paths p (List.mem_flatMap.mpr ⟨e, he, hp⟩)

/-! ## Blocks -/

/-- The context of one element of an array. -/
theorem mem_iterationFrames {elements : List Value} {frame : Frame}
    (h : frame ∈ iterationFrames (Value.array elements).entries) :
    frame.context ∈ elements ∧
      ∃ it, frame.iteration = some it ∧ ∃ i, it.key = .number (.ofNat i) := by
  rw [iterationFrames, List.mem_mapIdx] at h
  obtain ⟨i, hi, rfl⟩ := h
  have hlength : i < elements.length := by simpa [Value.entries] using hi
  have hentry : (Value.array elements).entries[i] = (.number (.ofNat i), elements[i]) := by
    simp [Value.entries]
  rw [hentry]
  exact ⟨List.getElem_mem hlength, _, rfl, i, rfl⟩

/-- **Inside an iteration** over a path, every element is covered by the element scope. -/
theorem stacked_forEach (hg : Grounded a r) (hstack : Stacked scopes frames) {p : Path}
    (hwell : p.WellFormed) (hname : p.ByName) {span : Span} {hash : List (String × Expr)}
    (h : Harmless (a.enter scopes span .forEach [.path p] hash).2) {inner : List Frame}
    (hinner : inner ∈ BlockKind.forEach.bodies frames (r.resolve frames p)) :
    Stacked (a.enter scopes span .forEach [.path p] hash).1 inner := by
  rcases hresolve : a.resolve scopes p with ⟨schema, diagnostics⟩
  rw [Analyzer.enter, Analyzer.inferExpr, hresolve] at h ⊢
  cases schema with
  | none =>
    obtain ⟨s, hs, -⟩ := resolve_complete hg hstack hwell hname (hresolve ▸ h)
    rw [hresolve] at hs
    cases hs
  | some s =>
    simp only [harmless_append] at h ⊢
    obtain ⟨s', hs', hplain, hcomplete⟩ := resolve_complete hg hstack hwell hname (hresolve ▸ h.1)
    obtain rfl : s = s' := by rw [hresolve] at hs'; exact Option.some.inj hs'
    have harray : s.isArray = true := by
      by_cases harray : s.isArray = true
      · exact harray
      · have helement := h.2
        rw [Analyzer.elementScope, if_neg harray] at helement
        exact absurd helement (not_harmless_of_kind (by simp [Problem.kind]))
    obtain ⟨elements, hv⟩ :=
      Schema.exists_array hplain.unambiguous (hcomplete.allows hplain) harray
    rw [hv] at hcomplete hinner
    obtain ⟨i, hi, hplainElement, helements⟩ := Schema.exists_element hplain hcomplete
    obtain ⟨frame, hframe, rfl⟩ := List.mem_map.mp hinner
    obtain ⟨hcontext, it, hit, hkey⟩ := mem_iterationFrames hframe
    rw [Analyzer.elementScope, if_pos harray]
    refine hstack.push ⟨⟨i, hi, hplainElement, helements _ hcontext⟩, fun _ => by rw [hit]; rfl, ?_⟩
    intro it' hit'
    rw [hit] at hit'
    exact Option.some.inj hit' ▸ hkey

/-- **Inside a context** that is a path, its value is covered by the scope of its schema. -/
theorem stacked_inside (hg : Grounded a r) (hstack : Stacked scopes frames) {p : Path}
    (hwell : p.WellFormed) (hname : p.ByName) {span : Span} {hash : List (String × Expr)}
    (h : Harmless (a.enter scopes span .inside [.path p] hash).2) {inner : List Frame}
    (hinner : inner ∈ BlockKind.inside.bodies frames (r.resolve frames p)) :
    Stacked (a.enter scopes span .inside [.path p] hash).1 inner := by
  obtain ⟨s, hs, hplain, hcomplete⟩ := resolve_complete hg hstack hwell hname h
  rw [BlockKind.bodies] at hinner
  split at hinner
  · rw [List.mem_singleton.mp hinner]
    exact hstack.push ⟨⟨s, hs, hplain, hcomplete⟩, fun hit => Bool.noConfusion hit,
      fun _ hit => by cases hit⟩
  · cases hinner

/-- **Entering a block keeps the stacks together**, under every context that its body is rendered
in. -/
theorem stacked_body (hg : Grounded a r) (hstack : Stacked scopes frames) {span : Span}
    {kind : BlockKind} {params : List Expr} {hash : List (String × Expr)} {program : Program}
    {inverse : Option Program}
    (hs : (Statement.block span kind params hash program inverse).Referential)
    (h : Harmless (a.enter scopes span kind params hash).2) {v : Value}
    (hv : r.decider frames span kind params hash = .ok v) {inner : List Frame}
    (hinner : inner ∈ kind.bodies frames v) :
    Stacked (a.enter scopes span kind params hash).1 inner := by
  -- the conditional kinds render their body, if at all, in the contexts that they stand in
  have hsame : ∀ {condition : Bool} {l m : List (List Frame)}, l ⊆ [frames] → m ⊆ [frames] →
      inner ∈ (if condition then l else m) → Stacked scopes inner := by
    intro condition l m hl hm hmem
    have heq : inner ∈ [frames] := by
      split at hmem
      · exact hl hmem
      · exact hm hmem
    exact List.mem_singleton.mp heq ▸ hstack
  cases hkind : kind.isCustom with
  | true =>
    cases kind with
    | custom name => exact hsame (fun _ hx => hx) (List.nil_subset _) hinner
    | _ => cases hkind
  | false =>
    obtain ⟨⟨target, rfl⟩, rfl⟩ := hs.wellFormed.shape hkind
    cases kind with
    | custom name => cases hkind
    | whenTrue => exact hsame (fun _ hx => hx) (List.nil_subset _) hinner
    | whenFalse => exact hsame (List.nil_subset _) (fun _ hx => hx) hinner
    | inside =>
      obtain ⟨p, rfl⟩ := Expr.exists_of_isSome_path? hs.overPath
      cases hv
      exact stacked_inside hg hstack (hs.wellFormed.paths _ List.mem_cons_self p List.mem_cons_self)
        (hs.paths p List.mem_cons_self) h hinner
    | forEach =>
      obtain ⟨p, rfl⟩ := Expr.exists_of_isSome_path? hs.overPath
      cases hv
      exact stacked_forEach hg hstack
        (hs.wellFormed.paths _ List.mem_cons_self p List.mem_cons_self)
        (hs.paths p List.mem_cons_self) h hinner

end Tags

/-! ## Programs -/

section Programs

variable {a : Analyzer} {r : Renderer}

/-- **The evaluations in a statement are foreseen**, in its tag and in its bodies, however often
they are rendered. -/
theorem visitsStatement_foreseen (hg : Grounded a r) {s : Statement}
    (hs : ∀ t ∈ s.nested, t.Referential) {scopes : List Scope} {frames : List Frame}
    (hstack : Stacked scopes frames) (h : Harmless (a.inferStatement scopes s).2) :
    ∀ x ∈ r.visitsStatement a scopes frames s, x.Foreseen a r := by
  induction s using Statement.induction generalizing scopes frames with
  | content span text => exact fun _ hx => absurd hx List.not_mem_nil
  | expression span head params hash =>
    have hself := hs _ (Statement.self_mem_nested _)
    exact visitsTag_foreseen hg hstack hself
      (Analyzer.harmless_inferExpression hself.wellFormed h)
  | block span kind params hash program inverse ihProgram ihInverse =>
    obtain ⟨hself, hprogram, hinverse⟩ := Statement.forall_nested_block.mp hs
    rw [Analyzer.inferStatement_block_diagnostics, harmless_append, harmless_append,
      harmless_flatMap, harmless_flatMap] at h
    obtain ⟨⟨hheader, hbody⟩, hother⟩ := h
    intro x hx
    rcases Renderer.mem_visitsStatement_block hx with htag | ⟨body, rfl, hvisit⟩ |
      ⟨v, hv, inner, hinner, hvisit⟩
    · exact visitsTag_foreseen hg hstack hself
        (Analyzer.harmless_enter hself.wellFormed hheader) x htag
    · obtain ⟨s, hmem, hx⟩ := (r.visitsProgram_visitsBy a scopes frames).exists_of_mem hvisit
      exact ihInverse body rfl s hmem (Program.everywhere_iff.mp (hinverse body rfl) s hmem) hstack
        (hother s hmem) x hx
    · obtain ⟨s, hmem, hx⟩ := (r.visitsProgram_visitsBy a _ inner).exists_of_mem hvisit
      exact ihProgram s hmem (Program.everywhere_iff.mp hprogram s hmem)
        (stacked_body hg hstack hself hheader hv hinner) (hbody s hmem) x hx

/-- **What the analysis resolves, the rendering finds.** Let a template be valid for plain schemas,
and let the data and the side sources be complete for them. If its paths walk by names, and its
iterations and contexts are over paths, then every path that its rendering evaluates, in any body
and any iteration, has a value, which is complete for the schema that the analysis resolved the path
to. -/
theorem visits_foreseen {source : Source} {t : Template} (ht : Template.read source = .ok t)
    (a : Analyzer) (side : SideTable Value) (data : Value)
    (hg : Grounded a ⟨⟨side, data⟩, a.helpers⟩)
    (hvalid : (analyze a t.program).isValid = true)
    (hover : ∀ s ∈ t.program.statements, s.isOverPath = true)
    (hname : ∀ p ∈ t.program.paths, p.ByName) :
    ∀ x ∈ Renderer.visits a ⟨⟨side, data⟩, a.helpers⟩ t.program,
      x.Foreseen a ⟨⟨side, data⟩, a.helpers⟩ := by
  have hwell := Template.wellFormed_of_read ht
  have hreferential : t.program.Everywhere Statement.Referential := fun s hs =>
    ⟨hwell s hs, hover s hs, fun p hp => hname p (List.mem_flatMap.mpr ⟨s, hs, hp⟩)⟩
  have hharmless := Analysis.isValid_iff.mp hvalid
  rw [Analyzer.analyze_diagnostics, harmless_flatMap] at hharmless
  intro x hx
  obtain ⟨s, hs, hx⟩ := (Renderer.visitsProgram_visitsBy a _ _ _).exists_of_mem hx
  exact visitsStatement_foreseen hg (Program.everywhere_iff.mp hreferential s hs) hg.stacked
    (hharmless s hs) x hx

end Programs

/-! ## Two templates -/

theorem eq_of_get?_singleton {α : Type} {n id : UInt64} {x y : α}
    (h : SideTable.get? [(n, x)] id = some y) : id = n ∧ x = y := by
  rw [SideTable.get?, List.lookup_cons] at h
  split at h
  · next heq => exact ⟨beq_iff_eq.mp heq, Option.some.inj h⟩
  · cases h

/-- What is shown of each row: its name and number, the title, and the note. -/
def rowsSource : Source where
  file := "rows"
  text := "\x7b\x7b#each rows\x7d\x7d{{name}}{{@index}}{{../title}}{{note:1}}\x7b\x7b/each\x7d\x7d"

/-- The schemas of a titled list of named rows, and of a note beside it. -/
def rowsAnalyzer : Analyzer where
  root := .ofProperties [("rows", .arrayOf (.ofProperties [("name", .ofType .string)])),
    ("title", .ofType .string)]
  side := [(1, .ofProperties [("note", .ofType .null)])]
  helpers := []

/-- A title, two rows, and a note. -/
def rowsRenderer : Renderer where
  root := .object
    [("rows", .array [.object [("name", .string "a")], .object [("name", .string "b")]]),
      ("title", .string "T")]
  side := [(1, .object [("note", .null)])]
  helpers := []

theorem grounded_rows : Grounded rowsAnalyzer rowsRenderer where
  plainRoot := by
    have hrow : (Schema.ofProperties [("name", .ofType .string)]).Plain :=
      Schema.plain_ofProperties <| List.forall_mem_singleton.mpr
        ⟨by decide, Schema.plain_ofType (by decide)⟩
    refine Schema.plain_ofProperties (List.forall_mem_cons.mpr ⟨⟨by decide, ?_⟩, ?_⟩)
    · exact Schema.plain_arrayOf hrow
    · exact List.forall_mem_singleton.mpr ⟨by decide, Schema.plain_ofType (by decide)⟩
  root := by
    have hrow : ∀ name, (Schema.ofProperties [("name", .ofType .string)]).Complete
        (.object [("name", .string name)]) := fun name =>
      Schema.complete_ofProperties <| List.forall_mem_singleton.mpr
        ⟨_, rfl, Schema.complete_ofType (.inl rfl)⟩
    refine Schema.complete_ofProperties (List.forall_mem_cons.mpr ⟨⟨_, rfl, ?_⟩, ?_⟩)
    · exact Schema.complete_arrayOf
        (List.forall_mem_cons.mpr ⟨hrow "a", List.forall_mem_singleton.mpr (hrow "b")⟩)
    · exact List.forall_mem_singleton.mpr ⟨_, rfl, Schema.complete_ofType (.inl rfl)⟩
  plainSide id s h := by
    obtain ⟨rfl, rfl⟩ := eq_of_get?_singleton h
    exact Schema.plain_ofProperties <| List.forall_mem_singleton.mpr
      ⟨by decide, Schema.plain_ofType (by decide)⟩
  side id s h := by
    obtain ⟨rfl, rfl⟩ := eq_of_get?_singleton h
    exact ⟨_, rfl, Schema.complete_ofProperties <| List.forall_mem_singleton.mpr
      ⟨.null, rfl, Schema.complete_ofType (.inl rfl)⟩⟩

/-- Each of two rows is visited, and from within it the title and the note. -/
theorem rows_foreseen :
    ∃ t, Template.read rowsSource = .ok t ∧
      (Renderer.visits rowsAnalyzer rowsRenderer t.program).map (·.path.written) =
        ["rows", "name", "@index", "../title", "note:1", "name", "@index", "../title", "note:1"] ∧
      ∀ x ∈ Renderer.visits rowsAnalyzer rowsRenderer t.program,
        x.Foreseen rowsAnalyzer rowsRenderer := by
  have hread : ∃ t, Template.read rowsSource = .ok t ∧
      decide ((analyze rowsAnalyzer t.program).isValid = true ∧
        (∀ s ∈ t.program.statements, s.isOverPath = true) ∧ (∀ p ∈ t.program.paths, p.ByName) ∧
        (Renderer.visits rowsAnalyzer rowsRenderer t.program).map (·.path.written) =
          ["rows", "name", "@index", "../title", "note:1", "name", "@index", "../title",
            "note:1"]) = true := exists_eq_ok (by decide +kernel)
  obtain ⟨t, ht, hchecked⟩ := hread
  obtain ⟨hvalid, hover, hname, hvisits⟩ := of_decide_eq_true hchecked
  exact ⟨t, ht, hvisits, visits_foreseen ht rowsAnalyzer _ _ grounded_rows hvalid hover hname⟩

/-- A plain array without elements is complete, and an index behind which a side source is selected
leads nowhere in it. So the segments have to be looked at without their selector. -/
theorem not_foreseen_of_written_segments :
    ¬∀ (source : Source) (t : Template), Template.read source = .ok t →
      ∀ (a : Analyzer) (side : SideTable Value) (data : Value),
        Grounded a ⟨⟨side, data⟩, a.helpers⟩ → (analyze a t.program).isValid = true →
        (∀ s ∈ t.program.statements, s.isOverPath = true) →
        (∀ p ∈ t.program.paths, (∀ segment ∈ p.parts, isIndexSegment segment = false) ∧
          (p.selector?.isSome = true → p.depth = 0)) →
        ∀ x ∈ Renderer.visits a ⟨⟨side, data⟩, a.helpers⟩ t.program,
          x.Foreseen a ⟨⟨side, data⟩, a.helpers⟩ := by
  intro hall
  have hread : ∃ t, Template.read ⟨"index", "{{0:1}}"⟩ = .ok t ∧
      decide ((analyze ⟨⟨[(1, .arrayOf (.ofType .null))], .ofType .object⟩, []⟩
          t.program).isValid = true ∧
        (∀ s ∈ t.program.statements, s.isOverPath = true) ∧
        (∀ p ∈ t.program.paths, (∀ segment ∈ p.parts, isIndexSegment segment = false) ∧
          (p.selector?.isSome = true → p.depth = 0)) ∧
        ∃ x ∈ Renderer.visits ⟨⟨[(1, .arrayOf (.ofType .null))], .ofType .object⟩, []⟩
          ⟨⟨[(1, .array [])], .object []⟩, []⟩ t.program,
          (Environment.resolve ⟨[(1, .array [])], .object []⟩ x.frames x.path).isUndefined =
            true) = true := exists_eq_ok (by decide +kernel)
  obtain ⟨t, ht, hchecked⟩ := hread
  obtain ⟨hvalid, hover, hparts, x, hx, hundefined⟩ := of_decide_eq_true hchecked
  have hground : Grounded ⟨⟨[(1, .arrayOf (.ofType .null))], .ofType .object⟩, []⟩
      ⟨⟨[(1, .array [])], .object []⟩, []⟩ := by
    refine ⟨Schema.plain_ofType (by decide), Schema.complete_ofType (.inl rfl), ?_, ?_⟩
    · intro id s h
      obtain ⟨rfl, rfl⟩ := eq_of_get?_singleton h
      exact Schema.plain_arrayOf (Schema.plain_ofType (by decide))
    · intro id s h
      obtain ⟨rfl, rfl⟩ := eq_of_get?_singleton h
      exact ⟨_, rfl, Schema.complete_arrayOf fun _ hw => absurd hw List.not_mem_nil⟩
  obtain ⟨s, -, -, hdefined⟩ := hall _ t ht _ _ _ hground hvalid hover hparts x hx
  cases hv : Environment.resolve ⟨[(1, .array [])], .object []⟩ x.frames x.path with
  | undefined => exact hdefined hv
  | _ => rw [hv] at hundefined; cases hundefined

end TypedTemplate
