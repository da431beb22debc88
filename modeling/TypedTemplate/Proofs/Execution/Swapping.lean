import TypedTemplate.Helper.Catalogue
import TypedTemplate.Program.Assembly
import TypedTemplate.Proofs.Execution.Alike
import TypedTemplate.Proofs.Execution.Exchange

/-!
# Conditionals in other words

`#unless` is `#if` with its bodies swapped, and a block of a helper is a conditional on a call of
it. Wherever such a block stands, it can be written the other way.

* `Statement.Swaps`: an `#if` and the `#unless` of the swapped bodies.
* `Statement.Unfolds`: the block of a helper and the `#if` on a call of it.
* `Branch.join_comm`: which of the bodies comes first makes no difference to their kind.
* **`Statement.Swaps.replaceable`**: an `#unless` can stand for its `#if`.
* **`Statement.Unfolds.render_alike`**: the block of a helper is rendered like its conditional.
* **`conditionals_rewritten`**: both, at any depth.
-/

namespace TypedTemplate

/-! ## Rewritings -/

/-- **An `#if` and the `#unless` of the swapped bodies.** Where there is no alternative, the
`#unless` has an empty body. -/
inductive Statement.Swaps : Statement → Statement → Prop where
  | intro (span : Span) (params : List Expr) (hash : HashArgs) (program : Program)
      (inverse : Option Program) :
    Swaps (.block span .whenTrue params hash program inverse)
      (.block span .whenFalse params hash (inverse.getD []) (some program))

/-- **The block of a helper and the `#if` on a call of it**, wherever the call is said to stand. -/
inductive Statement.Unfolds : Statement → Statement → Prop where
  | intro (span place : Span) (name : String) (params : List Expr) (hash : HashArgs)
      (program : Program) (inverse : Option Program) :
    Unfolds (.block span (.custom name) params hash program inverse)
      (.block span .whenTrue [.call place name params hash] [] program inverse)

/-! ## Swapped bodies -/

theorem Branch.join_comm (b c : Branch) : b.join c = c.join b := by
  have hkinds (k l : Literal.Category) :
      (if k = l then some k else none) = if l = k then some l else none := by
    by_cases h : k = l
    · rw [h]
    · rw [if_neg h, if_neg (Ne.symm h)]
  cases b with
  | text => cases c <;> rfl
  | literal k =>
    cases c with
    | text => rfl
    | literal l | typed l => exact hkinds k l
  | typed k =>
    cases c with
    | text | typed => rfl
    | literal l => exact hkinds k l

namespace Analyzer

variable (a : Analyzer) (scopes : List Scope)

/-- An empty body contributes what a missing one does. -/
theorem contribution_getD (inverse : Option Program) :
    a.contribution scopes (inverse.getD []) =
      (inverse.map (a.contribution scopes)).getD .text := by
  cases inverse <;> rfl

theorem diagnostics_getD (inverse : Option Program) :
    (a.inferProgram scopes (inverse.getD [])).2 =
      (inverse.map fun q => (a.inferProgram scopes q).2).getD [] := by
  cases inverse <;> rfl

/-- The two conditionals are entered alike. -/
theorem enter_whenFalse (span : Span) (params : List Expr) (hash : HashArgs) :
    a.enter scopes span .whenFalse params hash = a.enter scopes span .whenTrue params hash := by
  cases params <;> rfl

end Analyzer

namespace Renderer

variable (r : Renderer) (frames : List Frame)

theorem decider_whenFalse (span : Span) (params : List Expr) (hash : HashArgs) :
    r.decider frames span .whenFalse params hash = r.decider frames span .whenTrue params hash := by
  cases params <;> rfl

/-- An empty body is rendered like a missing one. -/
theorem renderInverse_eq (inverse : Option Program) :
    r.renderInverse frames inverse = r.renderProgram frames (inverse.getD []) := by
  cases inverse <;> rfl

/-- A block that renders its body or its alternative, by the truth of what it decides by. -/
theorem renderStatement_of_bodies {span : Span} {kind : BlockKind} {params : List Expr}
    {hash : HashArgs} {program : Program} {inverse : Option Program} {v : Value} (first : Bool)
    (hv : r.decider frames span kind params hash = .ok v)
    (hbodies : kind.bodies frames v = if first then [frames] else []) :
    r.renderStatement frames (.block span kind params hash program inverse) =
      r.renderProgram frames (if first then program else inverse.getD []) := by
  rw [renderStatement, hv]
  simp only [hbodies]
  cases first with
  | true => exact renderBodies_singleton frames fun inner => r.renderProgram inner program
  | false => exact r.renderInverse_eq frames inverse

end Renderer

/-- **An `#unless` can stand for the `#if` of the swapped bodies.** -/
theorem Statement.Swaps.replaceable {s t : Statement} (h : s.Swaps t) : s.Replaceable t := by
  obtain ⟨span, params, hash, program, inverse⟩ := h
  refine ⟨⟨_, _, _, _, _, _, _, _, _, _, _, _, rfl, rfl⟩, rfl, fun a scopes => ?_,
    fun a scopes => ?_, fun r frames => ?_⟩
  · rw [a.inferStatement_block, a.inferStatement_block,
      a.enter_of_conditional scopes (.inl rfl), a.enter_of_conditional scopes (.inr rfl),
      a.contribution_getD]
    exact congrArg Branch.schemaOf (Branch.join_comm _ _)
  · rw [a.inferStatement_block, a.inferStatement_block,
      a.enter_of_conditional scopes (.inl rfl), a.enter_of_conditional scopes (.inr rfl),
      a.enter_whenFalse, a.diagnostics_getD, List.append_assoc, List.append_assoc]
    exact (List.Perm.refl _).append List.perm_append_comm
  · cases hv : r.decider frames span .whenTrue params hash with
    | error failure =>
      rw [Renderer.renderStatement, Renderer.renderStatement, r.decider_whenFalse, hv]
    | ok v =>
      have hv' := (r.decider_whenFalse frames span params hash).trans hv
      rw [r.renderStatement_of_bodies frames v.isTruthy hv rfl,
        r.renderStatement_of_bodies frames (!v.isTruthy) hv' ?_]
      · cases v.isTruthy <;> rfl
      · cases htrue : v.isTruthy <;> simp [BlockKind.bodies, htrue]

/-! ## Blocks of helpers -/

/-- **The block of a helper is rendered like the `#if` on a call of it**, and where they fail, it is
for the same cause. -/
theorem Statement.Unfolds.render_alike {s t : Statement} (h : s.Unfolds t) (r : Renderer)
    (frames : List Frame) :
    EndsAlike RenderFailure.cause (r.renderStatement frames s) (r.renderStatement frames t) := by
  obtain ⟨span, place, name, params, hash, program, inverse⟩ := h
  have hdecider : EndsAlike RenderFailure.cause
      (r.decider frames span (.custom name) params hash)
      (r.decider frames span .whenTrue [.call place name params hash] []) :=
    Renderer.call_alike (.refl _) (.refl _) span place name
  rw [Renderer.renderStatement, Renderer.renderStatement]
  generalize r.decider frames span (.custom name) params hash = x at hdecider
  generalize r.decider frames span .whenTrue [.call place name params hash] [] = y at hdecider
  cases hdecider with
  | ok v => exact .refl _
  | error same => exact .error same

/-! ## Anywhere -/

/-- **Conditionals can be rewritten**, at any depth. An `#if` and the `#unless` of the swapped
bodies have one schema, are both valid or not, and have the same diagnostics in some order; and
they give the same text and the same value, or fail in the same way. The block of a helper gives the
same text as the `#if` on a call of the helper, or both fail, for the same cause. -/
theorem conditionals_rewritten :
    (∀ p q : Program, p.Within Statement.Swaps q →
      (∀ a : Analyzer, (analyze a p).schema = (analyze a q).schema ∧
        (analyze a p).isValid = (analyze a q).isValid ∧
        (analyze a p).diagnostics.Perm (analyze a q).diagnostics) ∧
      ∀ (source : Source) (helpers : HelperSet) (side : SideTable Value) (data : Value),
        Artifact.render ⟨⟨source, p⟩, helpers⟩ side data =
            Artifact.render ⟨⟨source, q⟩, helpers⟩ side data ∧
          Artifact.execute ⟨⟨source, p⟩, helpers⟩ side data =
            Artifact.execute ⟨⟨source, q⟩, helpers⟩ side data) ∧
      ∀ p q : Program, p.Within Statement.Unfolds q →
        ∀ (source : Source) (helpers : HelperSet) (side : SideTable Value) (data : Value),
          EndsAlike RenderFailure.cause (Artifact.render ⟨⟨source, p⟩, helpers⟩ side data)
            (Artifact.render ⟨⟨source, q⟩, helpers⟩ side data) := by
  refine ⟨fun p q hswap => ?_, fun p q hunfold source helpers side data => ?_⟩
  · have hsame := hswap.replaceable fun _ _ => Statement.Swaps.replaceable
    refine ⟨fun a => ?_, fun source helpers side data => ⟨?_, ?_⟩⟩
    · have hdiagnostics := hsame.diagnostics a [⟨some a.root, false⟩]
      exact ⟨hsame.schema a _, Analysis.isValid_of_perm hdiagnostics, hdiagnostics⟩
    · exact hsame.artifactRender source helpers side data
    · exact hsame.execute (by simp) (by simp) source helpers side data
  · have halike := hunfold.renderProgram_alike (r := ⟨⟨side, data⟩, helpers⟩)
      (fun _ _ related => related.render_alike _) [⟨data, none⟩]
    exact halike.map String.ofList

/-- A conditional inside the context of an object. -/
def guardedChoice (kind : BlockKind) (body other : Program) : Program :=
  [.block ⟨1, 1, 0, 11⟩ .inside [.path ⟨⟨1, 9, 8, 9⟩, "o", ["o"], 0, false, false⟩] []
    [.block ⟨1, 12, 11, 20⟩ kind [.path ⟨⟨1, 18, 17, 18⟩, "c", ["c"], 0, false, false⟩] []
      body (some other)] none]

/-- The text of a choice between two numbers. -/
def guardedText : String :=
  "\x7b\x7b#with o\x7d\x7d\x7b\x7b#if c\x7d\x7d1\x7b\x7belse\x7d\x7d2" ++
    "\x7b\x7b/if\x7d\x7d\x7b\x7b/with\x7d\x7d"

/-- A digit as a text. -/
def digit (col : Nat) (text : String) : Program := [.content ⟨1, col, col - 1, col⟩ text]

/-- A helper that decides between two digits. -/
def comparedDigits : Program :=
  [.block ⟨1, 1, 0, 10⟩ (.custom "gt")
    [.literal ⟨1, 7, 6, 7⟩ (.number (.uint 2)), .literal ⟨1, 9, 8, 9⟩ (.number (.uint 1))] []
    (digit 11 "1") none]

/-- A choice of numbers inside `#with` stays a choice of numbers, and makes the same one, if it is
written the other way; and so does a comparison, if it is made in parentheses. -/
theorem choice_rewritten :
    readProgram guardedText =
        .ok (guardedChoice .whenTrue (digit 21 "1") (digit 30 "2")) ∧
      (guardedChoice .whenTrue (digit 21 "1") (digit 30 "2")).Within Statement.Swaps
        (guardedChoice .whenFalse (digit 30 "2") (digit 21 "1")) ∧
      (∀ a : Analyzer, (analyze a
        (guardedChoice .whenFalse (digit 30 "2") (digit 21 "1"))).schema = .ofType .number) ∧
      (∀ (source : Source) (helpers : HelperSet),
        Artifact.execute
            ⟨⟨source, guardedChoice .whenFalse (digit 30 "2") (digit 21 "1")⟩, helpers⟩ []
            (.object [("o", .object [("c", .bool true)])]) =
          .ok (.number (.uint 1))) ∧
      ∃ q, comparedDigits.Within Statement.Unfolds q ∧ ∀ source : Source,
        (Artifact.render ⟨⟨source, q⟩, .builtins⟩ [] .null).toOption = some "1" := by
  have hswap : (guardedChoice .whenTrue (digit 21 "1") (digit 30 "2")).Within Statement.Swaps
      (guardedChoice .whenFalse (digit 30 "2") (digit 21 "1")) :=
    .body [] [] _ _ _ _ _ (.here [] [] (.intro _ _ _ _ (some (digit 30 "2"))))
  have hunfold := Program.Within.here [] []
    (Statement.Unfolds.intro ⟨1, 1, 0, 10⟩ ⟨1, 6, 5, 13⟩ "gt"
      [.literal ⟨1, 7, 6, 7⟩ (.number (.uint 2)), .literal ⟨1, 9, 8, 9⟩ (.number (.uint 1))] []
      (digit 11 "1") none)
  obtain ⟨hswaps, hunfolds⟩ := conditionals_rewritten
  obtain ⟨hanalyze, hexecute⟩ := hswaps _ _ hswap
  refine ⟨by with_unfolding_all rfl, hswap, fun a => ?_, fun source helpers => ?_,
    _, hunfold, fun source => ?_⟩
  · rw [← (hanalyze a).1]
    rfl
  · rw [← (hexecute source helpers _ _).2]
    rfl
  · rw [← (hunfolds _ _ hunfold source .builtins [] .null).toOption_eq]
    rfl

end TypedTemplate
