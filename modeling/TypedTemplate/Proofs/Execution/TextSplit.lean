import TypedTemplate.Proofs.Execution.Exchange

/-!
# Text in two parts

A comment in the middle of a text leaves two texts behind one another, where there would be one
without it. The number of significant statements decides how a program is executed and whether its
analysis expects anything but text, and two texts are two statements. This file says that nothing
comes of it, at any depth: the analysis is the same, and so is what is given or what fails.

* `Program.TextSplit`: one text of a program is written as two.
* `Program.Interchangeable`: programs that have the same shape, analysis and text wherever they
  stand.
* `interchangeable_text`, `interchangeable_block`: two texts for one, and a block over
  interchangeable bodies.
* `Interchangeable.replaceable`: so the one can stand for the other, and is executed alike.
* **`textSplit_unobservable`**: a text may be written as two.
-/

namespace TypedTemplate

/-! ## Shapes -/

/-- The text has nothing but blanks. -/
theorem Statement.isBlank_content (span : Span) (text : String) :
    (Statement.content span text).isBlank = true ↔ Text.IsBlank text.toList := by
  unfold isBlank
  rw [List.isEmpty_iff]
  constructor
  · exact Text.isBlank_of_trim_eq_nil
  · intro h
    rw [Text.trim, Text.trimStart_of_isBlank h]
    rfl

namespace Program

variable {p q : Program}

/-- A program with a significant text is no lone block. -/
theorem singleBlock?_eq_none {span : Span} {text : String}
    (hs : .content span text ∈ p.significant) : p.singleBlock? = none := by
  cases hsingle : p.singleBlock? with
  | none => rfl
  | some b =>
    have hsig := significant_of_singleBlock? hsingle
    rw [hsig, List.mem_singleton] at hs
    subst hs
    unfold singleBlock? at hsingle
    rw [hsig] at hsingle
    cases hsingle

theorem pureText?_append (p q : Program) :
    (p ++ q).pureText? = p.pureText?.bind fun front => q.pureText?.map (front ++ ·) := by
  induction p with
  | nil => cases hq : q.pureText? <;> simp [pureText?, hq]
  | cons s rest ih =>
    cases s with
    | content span text =>
      rw [List.cons_append, pureText?, pureText?, ih]
      cases pureText? rest <;> cases q.pureText? <;> simp
    | expression => rfl
    | block => rfl

end Program

/-! ## Analysis -/

/-- A body with a text in it is a text. -/
theorem bodySchema_of_mem {schemas : List Schema} (h : .ofType .string ∈ schemas) :
    bodySchema schemas = .ofType .string := by
  by_cases hone : schemas.length = 1
  · obtain ⟨s, rfl⟩ := List.length_eq_one_iff.mp hone
    exact (List.mem_singleton.mp h).symm
  · exact bodySchema_of_length_ne_one hone

/-! ## Interchangeable programs -/

/-- **Programs that cannot be told apart where they stand**: they have the same shape, as far as
what surrounds them looks at it, the same analysis and the same text. -/
structure Program.Interchangeable (p q : Program) : Prop where
  pureText : p.pureText? = q.pureText?
  expression : p.singleExpression? = q.singleExpression?
  block : p.singleBlock?.map Statement.isConditional = q.singleBlock?.map Statement.isConditional
  concatenation : p.isConcatenation = q.isConcatenation
  concatenate : ∀ (side : SideTable Value) (data : Value),
    p.concatenate side data = q.concatenate side data
  infer : ∀ (a : Analyzer) (scopes : List Scope), a.inferProgram scopes p = a.inferProgram scopes q
  render : ∀ (r : Renderer) (frames : List Frame),
    r.renderProgram frames p = r.renderProgram frames q

namespace Program

variable {p q : Program}

theorem Interchangeable.refl (p : Program) : p.Interchangeable p :=
  ⟨rfl, rfl, rfl, rfl, fun _ _ => rfl, fun _ _ => rfl, fun _ _ => rfl⟩

/-- Programs that cannot be told apart can stand for each other. -/
theorem Interchangeable.replaceable (h : p.Interchangeable q) : p.Replaceable q where
  pureText := h.pureText
  expression := h.expression
  block := h.block
  concatenation := h.concatenation
  concatenate := h.concatenate
  schema a scopes := congrArg Prod.fst (h.infer a scopes)
  diagnostics a scopes := .of_eq (congrArg Prod.snd (h.infer a scopes))
  render := h.render

section Text

variable (before after : Program) (span span₁ span₂ : Span) (text₁ text₂ : String)

/-- One text in the place of two leaves the same significant statements, if there is nothing in it
but blanks, and a significant text otherwise. -/
theorem significant_text :
    significant (before ++ .content span (text₁ ++ text₂) :: after) =
        significant (before ++ .content span₁ text₁ :: .content span₂ text₂ :: after) ∨
      (∃ at' text, .content at' text ∈
          significant (before ++ .content span (text₁ ++ text₂) :: after)) ∧
        ∃ at' text, .content at' text ∈
          significant (before ++ .content span₁ text₁ :: .content span₂ text₂ :: after) := by
  have hsplit : Text.IsBlank (text₁ ++ text₂).toList ↔
      Text.IsBlank text₁.toList ∧ Text.IsBlank text₂.toList := by
    rw [String.toList_append]
    exact List.forall_mem_append
  have hmem {p : Program} {s : Statement} (hs : s ∈ p) (hsig : ¬s.isBlank = true) :
      s ∈ significant p := List.mem_filter.mpr ⟨hs, by simpa using hsig⟩
  rw [← Statement.isBlank_content span, ← Statement.isBlank_content span₁,
    ← Statement.isBlank_content span₂] at hsplit
  by_cases hblank : (Statement.content span (text₁ ++ text₂)).isBlank = true
  · left
    obtain ⟨hfirst, hsecond⟩ := hsplit.mp hblank
    unfold significant
    simp only [List.filter_append, List.filter_cons, hblank, hfirst, hsecond, Bool.not_true,
      Bool.false_eq_true, if_false]
  · right
    refine ⟨⟨span, text₁ ++ text₂, hmem (by simp) hblank⟩, ?_⟩
    by_cases hfirst : (Statement.content span₁ text₁).isBlank = true
    · have hsecond : ¬(Statement.content span₂ text₂).isBlank = true :=
        fun h => hblank (hsplit.mpr ⟨hfirst, h⟩)
      exact ⟨span₂, text₂, hmem (by simp) hsecond⟩
    · exact ⟨span₁, text₁, hmem (by simp) hfirst⟩

/-- **Two texts that stand behind one another are one text.** -/
theorem interchangeable_text :
    Interchangeable (before ++ .content span (text₁ ++ text₂) :: after)
      (before ++ .content span₁ text₁ :: .content span₂ text₂ :: after) where
  pureText := by
    simp only [pureText?_append, pureText?]
    congr 1
    funext front
    cases pureText? after <;> simp
  expression := by
    rcases significant_text before after span span₁ span₂ text₁ text₂ with
      hsig | ⟨⟨_, _, hp⟩, _, _, hq⟩
    · unfold singleExpression?
      rw [hsig]
    · rw [singleExpression?_eq_none hp (by simp), singleExpression?_eq_none hq (by simp)]
  block := by
    rcases significant_text before after span span₁ span₂ text₁ text₂ with
      hsig | ⟨⟨_, _, hp⟩, _, _, hq⟩
    · unfold singleBlock?
      rw [hsig]
    · rw [singleBlock?_eq_none hp, singleBlock?_eq_none hq]
  concatenation := by simp [isConcatenation, Statement.isPlain]
  concatenate := by
    intro side data
    simp [concatenate, Statement.plainChars]
  infer := by
    intro a scopes
    have hstring {p : Program} {at' : Span} {text : String}
        (h : .content at' text ∈ p.significant) :
        bodySchema (p.significant.map fun s => (a.inferStatement scopes s).1) = .ofType .string :=
      bodySchema_of_mem (List.mem_map.mpr ⟨_, h, rfl⟩)
    rw [a.inferProgram_eq, a.inferProgram_eq]
    refine Prod.ext ?_ ?_
    · rcases significant_text before after span span₁ span₂ text₁ text₂ with
        hsig | ⟨⟨_, _, hp⟩, _, _, hq⟩
      · rw [hsig]
      · exact (hstring hp).trans (hstring hq).symm
    · simp [Analyzer.inferStatement]
  render := by
    intro r frames
    simp only [Renderer.renderProgram_append, Renderer.renderProgram, Renderer.renderStatement]
    cases r.renderProgram frames after <;> simp [Except.map]

end Text

section Block

variable (before after : Program) (span : Span) (kind : BlockKind) (params : List Expr)
  (hash : HashArgs) {program program' : Program} {inverse inverse' : Option Program}

/-- **A block over interchangeable bodies** is interchangeable. -/
theorem interchangeable_block (hprogram : program.Interchangeable program')
    (hinverse : Option.Rel Interchangeable inverse inverse') :
    Interchangeable (before ++ .block span kind params hash program inverse :: after)
      (before ++ .block span kind params hash program' inverse' :: after) := by
  have hother : Option.Rel Replaceable inverse inverse' := by
    cases hinverse with
    | none => exact .none
    | some h => exact .some h.replaceable
  have hsame := (hprogram.replaceable.bodies hother span kind params hash).program before after
  refine ⟨hsame.pureText, hsame.expression, hsame.block, hsame.concatenation, hsame.concatenate,
    fun a scopes => ?_, hsame.render⟩
  have hblock : a.inferStatement scopes (.block span kind params hash program inverse) =
      a.inferStatement scopes (.block span kind params hash program' inverse') := by
    rw [a.inferStatement_block, a.inferStatement_block, hprogram.replaceable.contribution,
      hprogram.infer]
    cases hinverse with
    | none => rfl
    | some h =>
      simp only [Option.map_some]
      rw [h.replaceable.contribution, h.infer]
  rw [a.inferProgram_eq, a.inferProgram_eq, significant_block, significant_block]
  simp [hblock]

end Block

/-! ## Splitting a text -/

/-- **One text of a program, at any depth, is written as two** that stand behind one another. -/
inductive TextSplit : Program → Program → Prop where
  | text (before after : Program) (span span₁ span₂ : Span) (text₁ text₂ : String)
      (first : text₁ ≠ "") (second : text₂ ≠ "") :
    TextSplit (before ++ .content span (text₁ ++ text₂) :: after)
      (before ++ .content span₁ text₁ :: .content span₂ text₂ :: after)
  | body (before after : Program) (span : Span) (kind : BlockKind) (params : List Expr)
      (hash : HashArgs) {program program' : Program} (inverse : Option Program)
      (inner : TextSplit program program') :
    TextSplit (before ++ .block span kind params hash program inverse :: after)
      (before ++ .block span kind params hash program' inverse :: after)
  | inverse (before after : Program) (span : Span) (kind : BlockKind) (params : List Expr)
      (hash : HashArgs) (program : Program) {other other' : Program}
      (inner : TextSplit other other') :
    TextSplit (before ++ .block span kind params hash program (some other) :: after)
      (before ++ .block span kind params hash program (some other') :: after)

theorem TextSplit.interchangeable (h : p.TextSplit q) : p.Interchangeable q := by
  induction h with
  | text before after span span₁ span₂ text₁ text₂ =>
    exact interchangeable_text before after span span₁ span₂ text₁ text₂
  | body before after span kind params hash inverse _ ih =>
    refine interchangeable_block before after span kind params hash ih ?_
    cases inverse with
    | none => exact .none
    | some other => exact .some (.refl other)
  | inverse before after span kind params hash program _ ih =>
    exact interchangeable_block before after span kind params hash (.refl program) (.some ih)

/-- **Splitting a text is unobservable.** Over every schema and with any helpers the analysis is the
same, diagnostic by diagnostic, and over all data the execution gives the same value or fails in the
same way, whichever of the two programs the artifact is made of. Only where there is nothing but
text may the tier be another one; where there is more, the artifact may be any. -/
theorem textSplit_unobservable (h : p.TextSplit q) :
    (∀ a : Analyzer, analyze a p = analyze a q) ∧
      (∀ (source : Source) (helpers : HelperSet) (side : SideTable Value) (data : Value),
        ∀ x ∈ [p, q], ∀ y ∈ [p, q],
          p.execute ⟨⟨source, x⟩, helpers⟩ side data =
            q.execute ⟨⟨source, y⟩, helpers⟩ side data) ∧
      (p.pureText? = none → p.tier = q.tier ∧
        ∀ (a : Artifact) (side : SideTable Value) (data : Value),
          p.execute a side data = q.execute a side data) := by
  have hsame := h.interchangeable
  refine ⟨?_, ?_, ?_⟩
  · intro a
    unfold analyze
    rw [hsame.infer]
  · intro source helpers side data x hx y hy
    exact hsame.replaceable.execute hx hy source helpers side data
  · intro hpure
    exact ⟨hsame.replaceable.tier hpure, hsame.replaceable.execute_of_artifact hpure⟩

/-- The tier of a text is another one once it is written as two. -/
example (span : Span) : tier [.content span "ab"] = .fallback ∧
    tier [.content span "a", .content span "b"] = .fastPath := ⟨rfl, rfl⟩

end Program

/-! ## A remark -/

/-- A choice between three and a body. -/
def threeOr (body : Program) : Program :=
  [.block ⟨1, 1, 0, 13⟩ .whenTrue [.literal ⟨1, 7, 6, 11⟩ (.bool false)] []
    [.content ⟨1, 14, 13, 14⟩ "3"] (some body)]

/-- Twelve in one text. -/
def twelve : Program := threeOr [.content ⟨1, 23, 22, 24⟩ "12"]

/-- Twelve in two texts, between which there is a remark. -/
def splitTwelve : Program :=
  threeOr [.content ⟨1, 23, 22, 23⟩ "1", .content ⟨1, 32, 31, 32⟩ "2"]

/-- A remark between the digits of a number does not keep it from being one. -/
theorem remark_unobservable :
    readProgram "\x7b\x7b#if false\x7d\x7d3{{else}}12\x7b\x7b/if\x7d\x7d" = .ok twelve ∧
      readProgram "\x7b\x7b#if false\x7d\x7d3{{else}}1\x7b\x7b!two\x7d\x7d2\x7b\x7b/if\x7d\x7d" =
        .ok splitTwelve ∧
      (∀ a : Analyzer, (analyze a twelve).schema.category? = some .number ∧
        analyze a splitTwelve = analyze a twelve) ∧
      ∀ (source : Source) (helpers : HelperSet) (side : SideTable Value) (data : Value),
        splitTwelve.execute ⟨⟨source, splitTwelve⟩, helpers⟩ side data =
          .ok (.number (.uint 12)) := by
  have hsplit : twelve.TextSplit splitTwelve :=
    .inverse [] [] _ _ _ _ _ (.text [] [] _ _ _ "1" "2" (by decide) (by decide))
  obtain ⟨hanalyze, hexecute, -⟩ := Program.textSplit_unobservable hsplit
  refine ⟨by with_unfolding_all rfl, by with_unfolding_all rfl,
    fun a => ⟨rfl, (hanalyze a).symm⟩, ?_⟩
  intro source helpers side data
  rw [← hexecute source helpers side data twelve (by simp) splitTwelve (by simp)]
  rfl

end TypedTemplate
