import TypedTemplate.Proofs.Execution.PlainText
import TypedTemplate.Proofs.Render.Failures

/-!
# Blocks in the place of others

Where a block stands, the statements around it look at little of it: how it is rendered, what the
analysis makes of it, and whether it chooses by a truth. A block that does not differ in these from
another one can take its place, at any depth.

* `Program.Within`: one statement of a program is replaced by a related one, at any depth.
* **`Program.Within.renderProgram_alike`**: statements that are rendered alike can be replaced as far
  as rendering goes.
* `Statement.Replaceable`, `Program.Replaceable`: blocks and programs that can stand for each other.
* `Statement.Replaceable.program`, `Program.Replaceable.bodies`: a block among statements, and a
  block over bodies.
* **`Program.Within.replaceable`**: so blocks can be replaced at any depth.
* `Program.Replaceable.tier`, **`Program.Replaceable.execute`**: programs that can stand for each
  other are executed alike, though not always in the same way.
-/

namespace TypedTemplate

/-! ## Places -/

/-- **One statement of a program, at any depth, is replaced** by a related one. -/
inductive Program.Within (R : Statement → Statement → Prop) : Program → Program → Prop where
  | here (before after : Program) {s t : Statement} (related : R s t) :
    Within R (before ++ s :: after) (before ++ t :: after)
  | body (before after : Program) (span : Span) (kind : BlockKind) (params : List Expr)
      (hash : HashArgs) {program program' : Program} (inverse : Option Program)
      (inner : Within R program program') :
    Within R (before ++ .block span kind params hash program inverse :: after)
      (before ++ .block span kind params hash program' inverse :: after)
  | inverse (before after : Program) (span : Span) (kind : BlockKind) (params : List Expr)
      (hash : HashArgs) (program : Program) {other other' : Program}
      (inner : Within R other other') :
    Within R (before ++ .block span kind params hash program (some other) :: after)
      (before ++ .block span kind params hash program (some other') :: after)

/-! ## Rendering -/

namespace Renderer

variable {δ : Type} {view : RenderFailure → δ} (r : Renderer)

theorem renderProgram_alike {frames : List Frame} {s t : Statement}
    (h : EndsAlike view (r.renderStatement frames s) (r.renderStatement frames t))
    (before after : Program) :
    EndsAlike view (r.renderProgram frames (before ++ s :: after))
      (r.renderProgram frames (before ++ t :: after)) := by
  have hruns := r.renderProgram_runsBy frames
  induction before with
  | nil => exact hruns.cons_alike hruns h rfl (.refl _)
  | cons first more ih => exact hruns.cons_alike hruns (.refl _) rfl ih

theorem renderBodies_alike {render render' : List Frame → Rendered (List Char)}
    (h : ∀ frames, EndsAlike view (render frames) (render' frames)) (contexts : List (List Frame)) :
    EndsAlike view (renderBodies render contexts) (renderBodies render' contexts) := by
  induction contexts with
  | nil => exact .refl _
  | cons frames rest ih =>
    exact (renderBodies_runsBy render).cons_alike (renderBodies_runsBy render') (h frames) rfl ih

/-- A block over bodies that are rendered alike. -/
theorem renderBlock_alike (span : Span) (kind : BlockKind) (params : List Expr) (hash : HashArgs)
    {program program' : Program} {inverse inverse' : Option Program}
    (hprogram : ∀ frames,
      EndsAlike view (r.renderProgram frames program) (r.renderProgram frames program'))
    (hinverse : ∀ frames,
      EndsAlike view (r.renderInverse frames inverse) (r.renderInverse frames inverse'))
    (frames : List Frame) :
    EndsAlike view (r.renderStatement frames (.block span kind params hash program inverse))
      (r.renderStatement frames (.block span kind params hash program' inverse')) := by
  rw [renderStatement, renderStatement]
  cases r.decider frames span kind params hash with
  | error failure => exact .refl _
  | ok v =>
    simp only
    split
    · exact hinverse frames
    · exact renderBodies_alike hprogram _

end Renderer

/-- **Statements that are rendered alike** are replaced by each other without a difference. -/
theorem Program.Within.renderProgram_alike {δ : Type} {view : RenderFailure → δ}
    {R : Statement → Statement → Prop} {r : Renderer}
    (hR : ∀ s t, R s t → ∀ frames,
      EndsAlike view (r.renderStatement frames s) (r.renderStatement frames t))
    {p q : Program} (h : p.Within R q) (frames : List Frame) :
    EndsAlike view (r.renderProgram frames p) (r.renderProgram frames q) := by
  induction h generalizing frames with
  | here before after related =>
    exact r.renderProgram_alike (hR _ _ related frames) before after
  | body before after span kind params hash inverse _ ih =>
    exact r.renderProgram_alike
      (r.renderBlock_alike span kind params hash ih (fun _ => .refl _) frames) before after
  | inverse before after span kind params hash program _ ih =>
    exact r.renderProgram_alike
      (r.renderBlock_alike span kind params hash (fun _ => .refl _) ih frames) before after

/-! ## Shapes -/

namespace Program

variable {p q : Program}

/-- A statement that is significant and no expression keeps the program from being one. -/
theorem singleExpression?_eq_none {s : Statement} (hs : s ∈ p.significant)
    (h : ∀ span head params hash, s ≠ .expression span head params hash) :
    p.singleExpression? = none := by
  cases hsingle : p.singleExpression? with
  | none => rfl
  | some e =>
    obtain ⟨hsig, span, head, params, hash, rfl⟩ := significant_of_singleExpression? hsingle
    rw [hsig, List.mem_singleton] at hs
    exact absurd hs (h span head params hash)

/-- A program of several significant statements is no lone block. -/
theorem singleBlock?_of_length (h : p.significant.length ≠ 1) : p.singleBlock? = none := by
  cases hsingle : p.singleBlock? with
  | none => rfl
  | some b => exact absurd (by rw [significant_of_singleBlock? hsingle]; rfl) h

/-- Where there are no blocks and more than text, there is a reference. -/
theorem exists_expression_mem (hconcat : p.isConcatenation = true) (hpure : p.pureText? = none) :
    ∃ span head params hash, .expression span head params hash ∈ p := by
  induction p with
  | nil => cases hpure
  | cons s rest ih =>
    unfold isConcatenation at hconcat ih
    rw [List.all_cons, Bool.and_eq_true] at hconcat
    cases s with
    | expression span head params hash =>
      exact ⟨span, head, params, hash, List.mem_cons_self⟩
    | block => cases hconcat.1
    | content span text =>
      obtain ⟨span, head, params, hash, hmem⟩ := ih hconcat.2 (Option.map_eq_none_iff.mp hpure)
      exact ⟨span, head, params, hash, List.mem_cons_of_mem _ hmem⟩

/-- **A program of text and references**, and of neither alone, is put together. -/
theorem tier_of_mixed (hconcat : p.isConcatenation = true) (hsingle : p.singleExpression? = none)
    (hpure : p.pureText? = none) : p.tier = .fastPath := by
  obtain ⟨span, head, params, hash, hmem⟩ := exists_expression_mem hconcat hpure
  have hsig : .expression span head params hash ∈ p.significant := List.mem_filter.mpr ⟨hmem, rfl⟩
  have hseveral : 1 < p.significant.length := by
    by_contra hfew
    have hlone : p.significant.length = 1 := by
      have := List.length_pos_of_mem hsig
      omega
    obtain ⟨s, hs⟩ := List.length_eq_one_iff.mp hlone
    rw [hs, List.mem_singleton] at hsig
    subst hsig
    unfold singleExpression? at hsingle
    rw [hs] at hsingle
    cases hsingle
  unfold tier
  simp [hsingle, hconcat, hseveral]

section Block

variable (before after : Program) (span : Span) (kind : BlockKind) (params : List Expr)
  (hash : HashArgs) (program : Program) (inverse : Option Program)

theorem significant_block :
    significant (before ++ .block span kind params hash program inverse :: after) =
      before.significant ++ .block span kind params hash program inverse :: after.significant := by
  unfold significant
  rw [List.filter_append, List.filter_cons_of_pos rfl]

/-- A program with a block is no lone expression. -/
theorem singleExpression?_block :
    singleExpression? (before ++ .block span kind params hash program inverse :: after) = none := by
  refine singleExpression?_eq_none (s := .block span kind params hash program inverse) ?_ (by simp)
  rw [significant_block]
  exact List.mem_append_right _ List.mem_cons_self

/-- A block is the only significant statement, or there are others beside it. -/
theorem singleBlock?_block :
    singleBlock? (before ++ .block span kind params hash program inverse :: after) =
      if before.significant = [] ∧ after.significant = [] then
        some (.block span kind params hash program inverse)
      else none := by
  by_cases hlone : before.significant = [] ∧ after.significant = []
  · rw [if_pos hlone]
    unfold singleBlock?
    rw [significant_block, hlone.1, hlone.2]
    rfl
  · rw [if_neg hlone, singleBlock?_of_length]
    intro hone
    rw [significant_block, List.length_append, List.length_cons] at hone
    refine hlone ⟨List.eq_nil_of_length_eq_zero ?_, List.eq_nil_of_length_eq_zero ?_⟩
    · omega
    · omega

end Block

end Program

/-! ## Analysis -/

namespace Analyzer

variable (a : Analyzer) (scopes : List Scope)

/-- The analysis of a program from that of its statements. -/
theorem inferProgram_eq (p : Program) :
    a.inferProgram scopes p =
      (bodySchema (p.significant.map fun s => (a.inferStatement scopes s).1),
        p.flatMap fun s => (a.inferStatement scopes s).2) := by
  rw [← inferStatements_schemas, ← inferStatements_diagnostics]
  rfl

end Analyzer

/-- Whether an analysis is valid does not depend on the order of its diagnostics. -/
theorem Analysis.isValid_of_perm {a b : Analysis} (h : a.diagnostics.Perm b.diagnostics) :
    a.isValid = b.isValid := by
  unfold isValid errors
  exact (h.filter _).isEmpty_eq

/-! ## Replacing -/

/-- **Programs that can stand for each other**: they have the same shape, as far as what surrounds
them looks at it, the same schema and the same text, and there is the same to say about them. -/
structure Program.Replaceable (p q : Program) : Prop where
  pureText : p.pureText? = q.pureText?
  expression : p.singleExpression? = q.singleExpression?
  block : p.singleBlock?.map Statement.isConditional = q.singleBlock?.map Statement.isConditional
  concatenation : p.isConcatenation = q.isConcatenation
  concatenate : ∀ (side : SideTable Value) (data : Value),
    p.concatenate side data = q.concatenate side data
  schema : ∀ (a : Analyzer) (scopes : List Scope),
    (a.inferProgram scopes p).1 = (a.inferProgram scopes q).1
  diagnostics : ∀ (a : Analyzer) (scopes : List Scope),
    (a.inferProgram scopes p).2.Perm (a.inferProgram scopes q).2
  render : ∀ (r : Renderer) (frames : List Frame),
    r.renderProgram frames p = r.renderProgram frames q

/-- **Blocks that can stand for each other.** -/
structure Statement.Replaceable (s t : Statement) : Prop where
  blocks : ∃ span kind params hash program inverse span' kind' params' hash' program' inverse',
    s = .block span kind params hash program inverse ∧
      t = .block span' kind' params' hash' program' inverse'
  conditional : s.isConditional = t.isConditional
  schema : ∀ (a : Analyzer) (scopes : List Scope),
    (a.inferStatement scopes s).1 = (a.inferStatement scopes t).1
  diagnostics : ∀ (a : Analyzer) (scopes : List Scope),
    (a.inferStatement scopes s).2.Perm (a.inferStatement scopes t).2
  render : ∀ (r : Renderer) (frames : List Frame),
    r.renderStatement frames s = r.renderStatement frames t

namespace Program

variable {p q : Program}

theorem Replaceable.refl (p : Program) : p.Replaceable p :=
  ⟨rfl, rfl, rfl, rfl, fun _ _ => rfl, fun _ _ => rfl, fun _ _ => .refl _, fun _ _ => rfl⟩

/-- What a body contributes to its block. -/
theorem Replaceable.contribution (h : p.Replaceable q) (a : Analyzer) (scopes : List Scope) :
    a.contribution scopes p = a.contribution scopes q := by
  have hblock := h.block
  unfold Analyzer.contribution Branch.ofBody
  rw [h.schema, h.pureText, h.expression]
  cases hp : p.singleBlock? with
  | none =>
    rw [hp] at hblock
    rw [Option.map_eq_none_iff.mp hblock.symm]
  | some b =>
    rw [hp] at hblock
    obtain ⟨c, hc, hkind⟩ := Option.map_eq_some_iff.mp hblock.symm
    rw [hc]
    simp only [hkind]

/-- **A block over bodies that can stand for each other.** -/
theorem Replaceable.bodies {program program' : Program} {inverse inverse' : Option Program}
    (hprogram : program.Replaceable program') (hinverse : Option.Rel Replaceable inverse inverse')
    (span : Span) (kind : BlockKind) (params : List Expr) (hash : HashArgs) :
    Statement.Replaceable (.block span kind params hash program inverse)
      (.block span kind params hash program' inverse') where
  blocks := ⟨_, _, _, _, _, _, _, _, _, _, _, _, rfl, rfl⟩
  conditional := by cases kind <;> rfl
  schema a scopes := by
    rw [a.inferStatement_block, a.inferStatement_block, hprogram.contribution]
    cases hinverse with
    | none => rfl
    | some h => simp only [Option.map_some, h.contribution]
  diagnostics a scopes := by
    rw [a.inferStatement_block, a.inferStatement_block]
    refine ((List.Perm.refl _).append (hprogram.diagnostics a _)).append ?_
    cases hinverse with
    | none => exact .refl _
    | some h => exact h.diagnostics a scopes
  render r frames := by
    have hbody (inner : List Frame) :
        EndsAlike id (r.renderProgram inner program) (r.renderProgram inner program') :=
      .of_eq (hprogram.render r inner)
    have hother (inner : List Frame) :
        EndsAlike id (r.renderInverse inner inverse) (r.renderInverse inner inverse') := by
      cases hinverse with
      | none => exact .refl _
      | some h => exact .of_eq (h.render r inner)
    exact (r.renderBlock_alike span kind params hash hbody hother frames).eq

end Program

/-- **A block among other statements** can be replaced. -/
theorem Statement.Replaceable.program {s t : Statement} (h : s.Replaceable t)
    (before after : Program) :
    Program.Replaceable (before ++ s :: after) (before ++ t :: after) := by
  obtain ⟨span, kind, params, hash, program, inverse, span', kind', params', hash', program',
    inverse', hs, ht⟩ := h.blocks
  have hinfer (a : Analyzer) (scopes : List Scope) (s : Statement) :
      (a.inferProgram scopes (before ++ s :: after)).2 =
        (before.flatMap fun s => (a.inferStatement scopes s).2) ++
          ((a.inferStatement scopes s).2 ++ after.flatMap fun s => (a.inferStatement scopes s).2) := by
    rw [a.inferProgram_eq, List.flatMap_append, List.flatMap_cons]
  constructor
  · subst hs ht
    rw [Program.pureText?_eq_none (List.mem_append_right before List.mem_cons_self),
      Program.pureText?_eq_none (List.mem_append_right before List.mem_cons_self)]
  · subst hs ht
    rw [Program.singleExpression?_block, Program.singleExpression?_block]
  · have hconditional := h.conditional
    subst hs ht
    rw [Program.singleBlock?_block, Program.singleBlock?_block]
    split
    · exact congrArg some hconditional
    · rfl
  · subst hs ht
    simp [Program.isConcatenation, isPlain]
  · subst hs ht
    simp [Program.concatenate, plainChars]
  · intro a scopes
    have hschema := h.schema a scopes
    subst hs ht
    rw [a.inferProgram_eq, a.inferProgram_eq, Program.significant_block, Program.significant_block]
    simp only [List.map_append, List.map_cons, hschema]
  · intro a scopes
    rw [hinfer, hinfer]
    exact (List.Perm.refl _).append ((h.diagnostics a scopes).append (.refl _))
  · intro r frames
    have halike : EndsAlike id (r.renderStatement frames s) (r.renderStatement frames t) :=
      .of_eq (h.render r frames)
    exact (r.renderProgram_alike halike before after).eq

/-- **Blocks that can stand for each other are replaced** at any depth. -/
theorem Program.Within.replaceable {R : Statement → Statement → Prop}
    (hR : ∀ s t, R s t → s.Replaceable t) {p q : Program} (h : p.Within R q) : p.Replaceable q := by
  induction h with
  | here before after related => exact (hR _ _ related).program before after
  | body before after span kind params hash inverse _ ih =>
    refine (ih.bodies ?_ span kind params hash).program before after
    cases inverse with
    | none => exact .none
    | some other => exact .some (.refl other)
  | inverse before after span kind params hash program _ ih =>
    exact ((Replaceable.refl program).bodies (.some ih) span kind params hash).program before after

/-! ## Execution -/

namespace Program

variable {p q : Program}

/-- Programs that can stand for each other have the same tier, unless there is nothing but text in
them. -/
theorem Replaceable.tier (h : p.Replaceable q) (hpure : p.pureText? = none) : p.tier = q.tier := by
  cases hsingle : p.singleExpression? with
  | some s =>
    unfold Program.tier
    rw [← h.expression, hsingle]
  | none =>
    have hsingle' := h.expression.symm.trans hsingle
    by_cases hconcat : p.isConcatenation = true
    · rw [tier_of_mixed hconcat hsingle hpure,
        tier_of_mixed (h.concatenation ▸ hconcat) hsingle' (h.pureText ▸ hpure)]
    · have hblock : p.singleBlock?.isSome = q.singleBlock?.isSome := by
        rw [← Option.isSome_map (f := Statement.isConditional), h.block, Option.isSome_map]
      unfold Program.tier
      rw [hsingle, hsingle', ← h.concatenation, Bool.eq_false_iff.mpr hconcat, hblock]
      simp only [Bool.false_and]

/-- Where there is more than text, they are executed alike over any artifact. -/
theorem Replaceable.execute_of_artifact (h : p.Replaceable q) (hpure : p.pureText? = none)
    (a : Artifact) (side : SideTable Value) (data : Value) :
    p.execute a side data = q.execute a side data := by
  have htier := h.tier hpure
  have hdirect : p.direct? side data = q.direct? side data := by
    unfold direct?
    rw [← htier, ← h.expression, h.concatenate]
  unfold Program.execute
  rw [hdirect, htier]

/-- Their artifacts are rendered alike. -/
theorem Replaceable.artifactRender (h : p.Replaceable q) (source : Source) (helpers : HelperSet)
    (side : SideTable Value) (data : Value) :
    Artifact.render ⟨⟨source, p⟩, helpers⟩ side data =
      Artifact.render ⟨⟨source, q⟩, helpers⟩ side data := by
  unfold Artifact.render Renderer.render
  simp only [h.render]

/-- **Programs that can stand for each other are executed alike**, each over an artifact of
either. -/
theorem Replaceable.execute (h : p.Replaceable q) {x y : Program} (hx : x ∈ [p, q])
    (hy : y ∈ [p, q]) (source : Source) (helpers : HelperSet) (side : SideTable Value)
    (data : Value) :
    p.execute ⟨⟨source, x⟩, helpers⟩ side data = q.execute ⟨⟨source, y⟩, helpers⟩ side data := by
  have hof {z : Program} (hz : z ∈ [p, q]) : p.Replaceable z := by
    rw [List.mem_cons, List.mem_singleton] at hz
    rcases hz with rfl | rfl
    · exact .refl z
    · exact h
  have hrender {z : Program} (hz : z ∈ [p, q]) (s : Program) :
      s.execute ⟨⟨source, z⟩, helpers⟩ side data = s.execute ⟨⟨source, p⟩, helpers⟩ side data := by
    unfold Program.execute Tier.run
    rw [(hof hz).artifactRender]
  rw [hrender hx, hrender hy]
  cases hpure : p.pureText? with
  | some chars =>
    -- One of the programs may be put together where the other one is rendered.
    rw [execute_of_text hpure hpure, execute_of_text (h.pureText.symm.trans hpure) hpure]
  | none => exact h.execute_of_artifact hpure _ side data

end Program

end TypedTemplate
