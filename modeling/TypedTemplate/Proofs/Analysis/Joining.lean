import TypedTemplate.Proofs.Analysis.Selectors
import TypedTemplate.Proofs.Render.Lone

/-!
# Entering a context and walking on

A block over a context renders its body there, so a path in the body goes on where the target of
the block ends. This file says that the joined path does the same: data and schemas are walked along
two lists of segments one after the other, and what is missing at the end of the first stays missing
behind it.

* `Value.walk?_append`, `Value.follow_append`: through data.
* `Miss.behind`, `Schema.walk_append`: through a schema, a miss being counted from the front.
* `Path.IsInner`, `Path.Joins`: paths that go on from the context at hand, and two of them joined.
* `Environment.resolve_of_isInner`, `Declarations.resolve_of_isInner`: what such a path refers to.
* `renderProgram_within`, `inferProgram_within`: a block over a path that refers to another one.
* **`joined_composes`**: the block and the joined path render to the same text over a true target,
  and one of them has an unknown path just when the other has.
-/

namespace TypedTemplate

/-! ## Two lists of segments -/

/-- **Data is walked along two lists of segments one after the other**, also where nothing is at the
end of the first. -/
theorem Value.walk?_append (v : Value) (p q : List String) :
    v.walk? (p ++ q) = (v.walk? p).bind fun w => w.walk? q := by
  unfold walk?
  rw [foldlM_step?_append]
  cases p.foldlM step? v with
  | none => rfl
  | some w =>
    simp only [Option.bind_some]
    cases w with
    | undefined =>
      rcases foldlM_step?_undefined q with h | h
      · rw [h]
        rfl
      · rw [h]
        rfl
    | _ => rfl

/-- What lies at the end of two lists of segments. -/
theorem Value.follow_append (v : Value) (p q : List String) :
    v.follow (p ++ q) = (v.follow p).follow q := by
  unfold follow
  rw [walk?_append]
  cases v.walk? p with
  | some w => rfl
  | none => exact (follow_undefined q).symm

/-- The miss, counted from the front of segments that stand before. -/
def Miss.behind (count : Nat) (miss : Miss) : Miss := { miss with index := count + miss.index }

/-- The position of the first segment only shifts the position of a miss. -/
theorem Schema.walkFrom_eq_walk (index : Nat) (s : Schema) (segments : List String) :
    s.walkFrom index segments = (s.walk segments).mapError (Miss.behind index) := by
  induction segments generalizing index s with
  | nil => rfl
  | cons segment rest ih =>
    unfold walk
    rw [walkFrom, walkFrom]
    cases s.step? segment with
    | none => rfl
    | some next =>
      simp only
      rw [ih (index + 1), ih (0 + 1)]
      cases next.walk rest with
      | ok t => rfl
      | error miss => simp [Except.mapError, Miss.behind, Nat.add_assoc]

/-- **A schema is walked along two lists of segments one after the other.** A miss in the second one
is the same miss, behind all segments of the first. -/
theorem Schema.walk_append (s : Schema) (p q : List String) :
    s.walk (p ++ q) =
      match s.walk p with
      | .ok t => (t.walk q).mapError (Miss.behind p.length)
      | .error miss => .error miss := by
  unfold walk
  rw [walkFrom_append]
  cases s.walkFrom 0 p with
  | error miss => rfl
  | ok t =>
    simp only [Nat.zero_add]
    exact walkFrom_eq_walk p.length t q

/-! ## Paths that go on -/

namespace Path

/-- **The path goes on from the context at hand**: it leaves none, refers to no variable, and its
last segment selects no side source. -/
structure IsInner (p : Path) : Prop where
  depth : p.depth = 0
  data : p.data = false
  last : ∀ segment ∈ p.parts.getLast?, splitIdentifier? segment = none

/-- **A path whose segments are those of two others**, one behind the other, and which starts from
the context at hand. -/
structure Joins (first second joined : Path) : Prop where
  depth : joined.depth = 0
  data : joined.data = false
  parts : joined.parts = first.parts ++ second.parts

theorem Joins.isInner {first second joined : Path} (h : Joins first second joined)
    (hfirst : first.IsInner) (hsecond : second.IsInner) : joined.IsInner := by
  refine ⟨h.depth, h.data, ?_⟩
  intro segment hsegment
  rw [h.parts] at hsegment
  rcases List.eq_nil_or_concat second.parts with hnil | ⟨front, last, hparts⟩
  · rw [hnil, List.append_nil] at hsegment
    exact hfirst.last segment hsegment
  · refine hsecond.last segment ?_
    rw [hparts] at hsegment ⊢
    simpa using hsegment

theorem IsInner.extract {p : Path} (h : p.IsInner) : extractIdentifier p.parts = (p.parts, none) := by
  rcases List.eq_nil_or_concat p.parts with hnil | ⟨front, last, hparts⟩
  · rw [hnil]
    rfl
  · have hlast : splitIdentifier? last = none := h.last last (by simp [hparts])
    rw [hparts, List.concat_eq_append, extractIdentifier_append, hlast]

end Path

section Resolution

variable {p : Path} (h : p.IsInner)

include h

/-- In the rendering, such a path refers to what lies at the end of its segments in the context at
hand. -/
theorem Environment.resolve_of_isInner (env : Environment) (frame : Frame) (frames : List Frame) :
    env.resolve (frame :: frames) p = frame.context.follow p.parts := by
  unfold Environment.resolve
  rw [h.data, h.depth]
  simp only [Bool.false_eq_true, if_false, List.getElem?_cons_zero, resolveIn, h.extract]

/-- In the analysis, it leads through the schema of the context at hand, if that is known. -/
theorem Declarations.resolve_of_isInner (d : Declarations) (scope : Scope) (scopes : List Scope) :
    d.resolve (scope :: scopes) p =
      match scope.schema with
      | some s => s.follow p.parts p
      | none => (none, []) := by
  unfold Declarations.resolve
  rw [h.data, h.extract, h.depth]
  rfl

end Resolution

/-! ## Blocks over a path -/

/-- A lone reference to a path. -/
def Statement.reference (span : Span) (p : Path) : Statement := .expression span (.path p) [] []

/-- A block over the context that a path refers to, without an alternative. -/
def Statement.within (span : Span) (target : Path) (body : Program) : Statement :=
  .block span .inside [.path target] [] body none

section Rendering

variable (r : Renderer) (frames : List Frame)

theorem renderProgram_reference (span : Span) (p : Path) :
    r.renderProgram frames [.reference span p] = .ok (r.resolve frames p).renderChars := by
  show Except.ok ((r.resolve frames p).renderChars ++ []) = _
  rw [List.append_nil]

/-- **A block over a path renders its body in what the path refers to**, if that is true. -/
theorem renderProgram_within (span : Span) (target : Path) (body : Program) :
    r.renderProgram frames [.within span target body] =
      if (r.resolve frames target).isTruthy then
        r.renderProgram (⟨r.resolve frames target, none⟩ :: frames) body
      else .ok [] := by
  have hdecider : r.decider frames span .inside [.path target] [] =
      .ok (r.resolve frames target) := rfl
  rw [Renderer.renderProgram, Statement.within]
  cases htrue : (r.resolve frames target).isTruthy with
  | false =>
    rw [Renderer.renderStatement, hdecider]
    simp only [BlockKind.bodies, htrue]
    rfl
  | true =>
    rw [r.renderStatement_of_branch? frames
      (Renderer.branch?_of_bodies hdecider (if_pos htrue) body none), if_pos rfl]
    cases r.renderProgram (⟨r.resolve frames target, none⟩ :: frames) body with
    | error => rfl
    | ok text => simp [Renderer.renderProgram, Except.map]

end Rendering

section Inference

variable (a : Analyzer) (scopes : List Scope)

theorem inferProgram_reference (span : Span) (p : Path) :
    (a.inferProgram scopes [.reference span p]).2 = (a.resolve scopes p).2 := by
  show (a.resolve scopes p).2 ++ [] = _
  rw [List.append_nil]

/-- **A block over a path is gone through in the schema that the path leads to**, which is unknown
where it leads nowhere. -/
theorem inferProgram_within (span : Span) (target : Path) (body : Program) :
    (a.inferProgram scopes [.within span target body]).2 =
      (a.resolve scopes target).2 ++
        (a.inferProgram (⟨(a.resolve scopes target).1, false⟩ :: scopes) body).2 := by
  show (a.resolve scopes target).2 ++
    (a.inferStatements (⟨(a.resolve scopes target).1, false⟩ :: scopes) body).2 ++ [] ++ [] = _
  rw [List.append_nil, List.append_nil]
  rfl

end Inference

/-! ## Unknown paths -/

/-- Some error is about an unknown path. -/
def HasUnknownPath (ds : List Diagnostic) : Prop :=
  ∃ d ∈ ds, d.isError = true ∧ d.problem.kind = .unknownPath

theorem hasUnknownPath_append {ds es : List Diagnostic} :
    HasUnknownPath (ds ++ es) ↔ HasUnknownPath ds ∨ HasUnknownPath es := by
  unfold HasUnknownPath
  simp only [List.mem_append, or_and_right, exists_or]

theorem not_hasUnknownPath_nil : ¬HasUnknownPath [] := by
  rintro ⟨d, hd, -⟩
  cases hd

/-- An unknown path is reported just where the walk misses. -/
theorem Schema.hasUnknownPath_follow (s : Schema) (segments : List String) (p : Path) :
    HasUnknownPath (s.follow segments p).2 ↔ ∃ miss, s.walk segments = .error miss := by
  unfold follow
  cases s.walk segments with
  | ok t => simp [not_hasUnknownPath_nil]
  | error miss =>
    refine iff_of_true ⟨_, List.mem_cons_self, ?_, rfl⟩ ⟨miss, rfl⟩
    simp [Diagnostic.isError, Problem.severity, Problem.kind]

/-- Without any scope, a path is above all contexts. -/
theorem Declarations.hasUnknownPath_of_isInner {p : Path} (h : p.IsInner) (d : Declarations) :
    HasUnknownPath (d.resolve [] p).2 := by
  unfold Declarations.resolve
  rw [h.data, h.extract, h.depth]
  refine ⟨_, List.mem_cons_self, ?_, rfl⟩
  simp [Diagnostic.isError, Problem.severity, Problem.kind]

section Joining

variable {first second joined : Path} (hfirst : first.IsInner) (hsecond : second.IsInner)
  (h : Path.Joins first second joined)

include hfirst hsecond h

/-- The joined path refers to what the second one does in what the first one refers to. -/
theorem Environment.resolve_joined (env : Environment) (frames : List Frame) :
    env.resolve frames joined =
      env.resolve (⟨env.resolve frames first, none⟩ :: frames) second := by
  have hjoined := h.isInner hfirst hsecond
  rw [env.resolve_of_isInner hsecond]
  cases frames with
  | nil =>
    have hnone : ∀ q : Path, q.IsInner → env.resolve [] q = .undefined := by
      intro q hq
      unfold Environment.resolve
      rw [hq.data]
      rfl
    rw [hnone joined hjoined, hnone first hfirst, follow_undefined]
  | cons frame frames =>
    rw [env.resolve_of_isInner hjoined, env.resolve_of_isInner hfirst, h.parts,
      Value.follow_append]

/-- The joined path is unknown just when the first one is, or the second one in the schema that the
first one leads to. -/
theorem Declarations.hasUnknownPath_joined (d : Declarations) (scopes : List Scope) :
    HasUnknownPath (d.resolve scopes joined).2 ↔
      HasUnknownPath (d.resolve scopes first).2 ∨
        HasUnknownPath (d.resolve (⟨(d.resolve scopes first).1, false⟩ :: scopes) second).2 := by
  have hjoined := h.isInner hfirst hsecond
  rw [d.resolve_of_isInner hsecond]
  cases scopes with
  | nil =>
    exact iff_of_true (d.hasUnknownPath_of_isInner hjoined)
      (.inl (d.hasUnknownPath_of_isInner hfirst))
  | cons scope scopes =>
    rw [d.resolve_of_isInner hjoined, d.resolve_of_isInner hfirst]
    cases scope.schema with
    | none => simp [not_hasUnknownPath_nil]
    | some s =>
      have hfound : (s.follow first.parts first).1 = (s.walk first.parts).toOption := by
        unfold Schema.follow
        cases s.walk first.parts <;> rfl
      simp only [s.hasUnknownPath_follow, h.parts, s.walk_append, hfound]
      cases s.walk first.parts with
      | error miss => simp
      | ok t =>
        simp only [Except.toOption, t.hasUnknownPath_follow]
        cases t.walk second.parts <;> simp [Except.mapError]

end Joining

/-- **Entering a context is walking on.** Data and schemas are walked along two lists of segments
one after the other. So a block over a path, with a lone reference in its body, renders to just what
the reference of the joined path does where the target is true, and to nothing elsewhere, in any
contexts; and in any scopes one of the two has an unknown path if and only if the other has. -/
theorem joined_composes :
    (∀ (v : Value) (p q : List String),
        v.walk? (p ++ q) = (v.walk? p).bind fun w => w.walk? q) ∧
      (∀ (s : Schema) (p q : List String), s.walk (p ++ q) =
        match s.walk p with
        | .ok t => (t.walk q).mapError (Miss.behind p.length)
        | .error miss => .error miss) ∧
      ∀ first second joined : Path, first.IsInner → second.IsInner →
        Path.Joins first second joined → ∀ outer inner whole : Span,
          (∀ (r : Renderer) (frames : List Frame),
            r.renderProgram frames [.within outer first [.reference inner second]] =
              if (r.resolve frames first).isTruthy then
                r.renderProgram frames [.reference whole joined]
              else .ok []) ∧
          ∀ (a : Analyzer) (scopes : List Scope),
            HasUnknownPath
                (a.inferProgram scopes [.within outer first [.reference inner second]]).2 ↔
              HasUnknownPath (a.inferProgram scopes [.reference whole joined]).2 := by
  refine ⟨Value.walk?_append, Schema.walk_append, ?_⟩
  intro first second joined hfirst hsecond h outer inner whole
  constructor
  · intro r frames
    rw [renderProgram_within, renderProgram_reference, renderProgram_reference,
      Environment.resolve_joined hfirst hsecond h]
  · intro a scopes
    rw [inferProgram_within, inferProgram_reference, inferProgram_reference,
      hasUnknownPath_append, Declarations.hasUnknownPath_joined hfirst hsecond h]

/-- The customer of an order, a name there, and both in one path. -/
def customerPath : Path := ⟨⟨1, 9, 8, 22⟩, "order.customer", ["order", "customer"], 0, false, false⟩

def namePath : Path := ⟨⟨1, 27, 26, 30⟩, "name", ["name"], 0, false, false⟩

def customerNamePath : Path :=
  ⟨⟨1, 3, 2, 21⟩, "order.customer.name", ["order", "customer", "name"], 0, false, false⟩

/-- An order with a customer. -/
def customerData (customer : Value) : Value :=
  .object [("order", .object [("customer", customer)])]

/-- The name of a customer is found in the context of the customer, there is nothing to render over
an order without one, and in a schema of customers without names the block has an unknown path. -/
theorem customer_composes :
    Renderer.renderProgram ⟨⟨[], customerData (.object [("name", .string "Ada")])⟩, []⟩
        [⟨customerData (.object [("name", .string "Ada")]), none⟩]
        [.within ⟨1, 1, 0, 24⟩ customerPath [.reference ⟨1, 25, 24, 32⟩ namePath]] =
          .ok ['A', 'd', 'a'] ∧
      Renderer.renderProgram ⟨⟨[], customerData .null⟩, []⟩ [⟨customerData .null, none⟩]
        [.within ⟨1, 1, 0, 24⟩ customerPath [.reference ⟨1, 25, 24, 32⟩ namePath]] = .ok [] ∧
      HasUnknownPath (Analyzer.inferProgram
        ⟨⟨[], .ofProperties [("order", .ofProperties [("customer", .ofType .object)])]⟩, []⟩
        [⟨some (.ofProperties [("order", .ofProperties [("customer", .ofType .object)])]), false⟩]
        [.within ⟨1, 1, 0, 24⟩ customerPath [.reference ⟨1, 25, 24, 32⟩ namePath]]).2 := by
  have hcustomer : customerPath.IsInner := ⟨rfl, rfl, by decide⟩
  have hname : namePath.IsInner := ⟨rfl, rfl, by decide⟩
  obtain ⟨-, -, hpaths⟩ := joined_composes
  obtain ⟨hrendering, hanalysis⟩ := hpaths customerPath namePath customerNamePath hcustomer hname
    ⟨rfl, rfl, rfl⟩ ⟨1, 1, 0, 24⟩ ⟨1, 25, 24, 32⟩ ⟨1, 1, 0, 23⟩
  refine ⟨?_, ?_, ?_⟩
  · rw [hrendering]
    rfl
  · rw [hrendering]
    rfl
  · rw [hanalysis]
    exact ⟨_, List.mem_cons_self, by decide, by decide⟩

end TypedTemplate
