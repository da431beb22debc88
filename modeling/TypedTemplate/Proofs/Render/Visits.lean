import TypedTemplate.Analysis.Inference
import TypedTemplate.Proofs.Program.Mentions
import TypedTemplate.Proofs.Program.Reading
import TypedTemplate.Proofs.Render.Failures

/-!
# The paths that a rendering evaluates

A rendering looks at its data only through paths. A path is evaluated as often as its statement is
rendered: not at all in a body that is not taken or behind a failure, and many times in the body of
an iteration, each time under other contexts. A *visit* is one such evaluation. It also says under
which scopes the analysis has gone through the same path, so that the two stacks can be compared.

* `Visit`: a path, the contexts it is evaluated under, and the scopes it is analysed under.
* `visitsExpr`, `visitsTag`, `visitsStatement`, `visitsProgram`: the visits of a rendering, in
  order. They follow the renderer: what comes behind a failure is not visited, and the answers that
  decide about a block are the renderer's own.
* `VisitsBy`: the visits of what goes through a list.
* **`path_mem_of_mem_visitsProgram`**: what is visited is a path of the program.
* **`renderProgram_congr`**: nothing else is looked at. Where the values at the visits and the helpers
  at the calls are the same, so is the rendering.
-/

namespace TypedTemplate

/-- One evaluation of a path. -/
structure Visit where
  /-- The scopes under which the analysis resolves the path. -/
  scopes : List Scope
  /-- The contexts under which the rendering evaluates it. -/
  frames : List Frame
  path : Path

/-! ## Lists -/

/-- The visits behind a step: none if it failed. -/
def Rendered.before {α : Type} (step : Rendered α) (visits : List Visit) : List Visit :=
  match step with
  | .ok _ => visits
  | .error _ => []

/-- The visits of what goes through a list are those of its steps, up to the first failure. -/
structure VisitsBy {α β : Type} (step : α → Rendered β) (visits : α → List Visit)
    (all : List α → List Visit) : Prop where
  nil : all [] = []
  cons : ∀ a as, all (a :: as) = visits a ++ (step a).before (all as)

section VisitsBy

variable {α β γ : Type} {step step' : α → Rendered β} {visits : α → List Visit}
  {all : List α → List Visit}

theorem Rendered.mem_of_mem_before {r : Rendered α} {later : List Visit} {x : Visit}
    (h : x ∈ r.before later) : x ∈ later := by
  cases r with
  | ok _ => exact h
  | error _ => cases h

/-- A visit of a list is one of its steps. -/
theorem VisitsBy.exists_of_mem (h : VisitsBy step visits all) {as : List α} {x : Visit}
    (hx : x ∈ all as) : ∃ a ∈ as, x ∈ visits a := by
  induction as with
  | nil => rw [h.nil] at hx; cases hx
  | cons a as ih =>
    rw [h.cons, List.mem_append] at hx
    rcases hx with hx | hx
    · exact ⟨a, List.mem_cons_self, hx⟩
    · obtain ⟨a', hmem, ha'⟩ := ih (Rendered.mem_of_mem_before hx)
      exact ⟨a', List.mem_cons_of_mem _ hmem, ha'⟩

/-- **Steps that depend on their visits alone make a run that depends on its visits alone.** -/
theorem VisitsBy.run_congr (h : VisitsBy step visits all) {join : α → β → γ → γ} {c : γ}
    {run run' : List α → Rendered γ} (hrun : RunsBy step join c run)
    (hrun' : RunsBy step' join c run') {Same : Visit → Prop} {as : List α}
    (hstep : ∀ a ∈ as, (∀ x ∈ visits a, Same x) → step a = step' a) (hsame : ∀ x ∈ all as, Same x) :
    run as = run' as := by
  induction as with
  | nil => rw [hrun.nil, hrun'.nil]
  | cons a as ih =>
    rw [h.cons, List.forall_mem_append] at hsame
    rw [List.forall_mem_cons] at hstep
    rw [hrun.cons, hrun'.cons, ← hstep.1 hsame.1]
    cases ha : step a with
    | error e => rfl
    | ok b =>
      rw [ha] at hsame
      rw [ih hstep.2 hsame.2]

end VisitsBy

namespace Renderer

/-! ## Tags -/

section Tags

variable (r : Renderer) (scopes : List Scope) (frames : List Frame)

mutual

/-- The visits of an expression. The arguments of a call are evaluated only where there is such a
helper. -/
def visitsExpr : Expr → List Visit
  | .path p => [⟨scopes, frames, p⟩]
  | .literal _ _ => []
  | .call _ name params hash =>
    if Dict.contains name r.helpers then
      visitsAll params ++ (r.evaluateAll frames params).before (visitsNamed hash)
    else []
termination_by structural e => e

/-- The visits of expressions. -/
def visitsAll : List Expr → List Visit
  | [] => []
  | e :: rest => visitsExpr e ++ (r.evaluate frames e).before (visitsAll rest)
termination_by structural es => es

/-- The visits of named expressions. -/
def visitsNamed : List (String × Expr) → List Visit
  | [] => []
  | (_, e) :: rest => visitsExpr e ++ (r.evaluate frames e).before (visitsNamed rest)
termination_by structural es => es

end

/-- The visits of a call of the helper of a name. -/
def visitsCall (name : String) (params : List Expr) (hash : List (String × Expr)) : List Visit :=
  if Dict.contains name r.helpers then
    r.visitsAll scopes frames params ++
      (r.evaluateAll frames params).before (r.visitsNamed scopes frames hash)
  else []

/-- The visits of the tag of a statement. -/
def visitsTag : Statement → List Visit
  | .content _ _ => []
  | .expression _ head params hash =>
    match helperName? head params hash with
    | some name => r.visitsCall scopes frames name params hash
    | none => r.visitsExpr scopes frames head
  | .block _ (.custom name) params hash _ _ => r.visitsCall scopes frames name params hash
  | .block _ _ (target :: _) _ _ _ => r.visitsExpr scopes frames target
  | .block _ _ [] _ _ _ => []

end Tags

/-! ## Programs -/

/-- The visits of a body under each of several contexts. -/
def visitsBodies (render : List Frame → Rendered (List Char)) (visits : List Frame → List Visit) :
    List (List Frame) → List Visit
  | [] => []
  | frames :: rest => visits frames ++ (render frames).before (visitsBodies render visits rest)

section Programs

variable (a : Analyzer) (r : Renderer)

mutual

/-- The visits of a statement. -/
def visitsStatement (scopes : List Scope) (frames : List Frame) : Statement → List Visit
  | .content span text => r.visitsTag scopes frames (.content span text)
  | .expression span head params hash =>
    r.visitsTag scopes frames (.expression span head params hash)
  | .block span kind params hash program inverse =>
    r.visitsTag scopes frames (.block span kind params hash program inverse) ++
      match r.decider frames span kind params hash with
      | .error _ => []
      | .ok v =>
        match kind.bodies frames v with
        | [] => visitsInverse scopes frames inverse
        | bodies =>
          visitsBodies (fun frames => r.renderProgram frames program)
            (fun frames => visitsProgram (a.enter scopes span kind params hash).1 frames program)
            bodies
termination_by structural s => s

/-- The visits of a program. -/
def visitsProgram (scopes : List Scope) (frames : List Frame) : List Statement → List Visit
  | [] => []
  | s :: rest =>
    visitsStatement scopes frames s ++
      (r.renderStatement frames s).before (visitsProgram scopes frames rest)
termination_by structural p => p

/-- The visits of the alternative of a block, if there is one. -/
def visitsInverse (scopes : List Scope) (frames : List Frame) : Option (List Statement) → List Visit
  | none => []
  | some program => visitsProgram scopes frames program
termination_by structural p => p

end

/-- The visits of the rendering of a program over the data. -/
def visits (program : Program) : List Visit :=
  r.visitsProgram a [⟨some a.root, false⟩] [⟨r.root, none⟩] program

end Programs

/-! ## Where visits stand -/

section Lists

variable (a : Analyzer) (r : Renderer) (scopes : List Scope) (frames : List Frame)

theorem visitsAll_visitsBy :
    VisitsBy (r.evaluate frames) (r.visitsExpr scopes frames) (r.visitsAll scopes frames) :=
  ⟨rfl, fun _ _ => rfl⟩

theorem visitsNamed_visitsBy :
    VisitsBy (fun e : String × Expr => r.evaluate frames e.2)
      (fun e => r.visitsExpr scopes frames e.2) (r.visitsNamed scopes frames) :=
  ⟨rfl, fun _ _ => rfl⟩

theorem visitsBodies_visitsBy (render : List Frame → Rendered (List Char))
    (visits : List Frame → List Visit) : VisitsBy render visits (visitsBodies render visits) :=
  ⟨rfl, fun _ _ => rfl⟩

theorem visitsProgram_visitsBy :
    VisitsBy (r.renderStatement frames) (r.visitsStatement a scopes frames)
      (r.visitsProgram a scopes frames) :=
  ⟨rfl, fun _ _ => rfl⟩

end Lists

section Membership

variable {a : Analyzer} {r : Renderer} {scopes : List Scope} {frames : List Frame} {x : Visit}

/-- A visit of a call is one of its arguments. -/
theorem exists_of_mem_visitsCall {name : String} {params : List Expr} {hash : List (String × Expr)}
    (h : x ∈ r.visitsCall scopes frames name params hash) :
    ∃ e ∈ params ++ hash.map Prod.snd, x ∈ r.visitsExpr scopes frames e := by
  rw [visitsCall] at h
  split at h
  · rcases List.mem_append.mp h with h | h
    · obtain ⟨e, hmem, he⟩ := (r.visitsAll_visitsBy scopes frames).exists_of_mem h
      exact ⟨e, List.mem_append_left _ hmem, he⟩
    · obtain ⟨e, hmem, he⟩ := (r.visitsNamed_visitsBy scopes frames).exists_of_mem
        (Rendered.mem_of_mem_before h)
      exact ⟨e.2, List.mem_append_right _ (List.mem_map_of_mem hmem), he⟩
  · cases h

/-- A visit of a tag is one of its operands. -/
theorem exists_of_mem_visitsTag {s : Statement} (h : x ∈ r.visitsTag scopes frames s) :
    ∃ e ∈ s.operands, x ∈ r.visitsExpr scopes frames e := by
  unfold visitsTag at h
  split at h
  · cases h
  · rw [Statement.operands]
    split at h
    · next hname => rw [hname]; exact exists_of_mem_visitsCall h
    · next hname => rw [hname]; exact ⟨_, List.mem_cons_self, h⟩
  · exact exists_of_mem_visitsCall h
  · exact ⟨_, List.mem_cons_self, h⟩
  · cases h

/-- **A visit of a block** is one of its tag, of its alternative, or of its body under one of the
contexts that the answer of its tag gives rise to. -/
theorem mem_visitsStatement_block {span : Span} {kind : BlockKind} {params : List Expr}
    {hash : List (String × Expr)} {program : Program} {inverse : Option Program}
    (h : x ∈ r.visitsStatement a scopes frames (.block span kind params hash program inverse)) :
    x ∈ r.visitsTag scopes frames (.block span kind params hash program inverse) ∨
      (∃ body, inverse = some body ∧ x ∈ r.visitsProgram a scopes frames body) ∨
      ∃ v, r.decider frames span kind params hash = .ok v ∧ ∃ inner ∈ kind.bodies frames v,
        x ∈ r.visitsProgram a (a.enter scopes span kind params hash).1 inner program := by
  rw [visitsStatement, List.mem_append] at h
  rcases h with h | h
  · exact .inl h
  · split at h
    · cases h
    · next v hv =>
      split at h
      · cases inverse with
        | none => cases h
        | some body => exact .inr (.inl ⟨body, rfl, h⟩)
      · obtain ⟨inner, hinner, hx⟩ := (visitsBodies_visitsBy _ _).exists_of_mem h
        exact .inr (.inr ⟨v, hv, inner, hinner, hx⟩)

/-- **What is visited in an expression** is a path in it, where the expression stands. -/
theorem stands_of_mem_visitsExpr {e : Expr} (h : x ∈ r.visitsExpr scopes frames e) :
    x.scopes = scopes ∧ x.frames = frames ∧ x.path ∈ e.paths := by
  induction e using Expr.induction with
  | path p =>
    simp only [visitsExpr, List.mem_singleton] at h
    simp [h]
  | literal => cases h
  | call span name params hash ihParams ihHash =>
    have hcall : x ∈ r.visitsCall scopes frames name params hash := h
    obtain ⟨e, he, hx⟩ := exists_of_mem_visitsCall hcall
    have hargument : x.scopes = scopes ∧ x.frames = frames ∧ x.path ∈ e.paths := by
      rcases List.mem_append.mp he with he | he
      · exact ihParams e he hx
      · obtain ⟨named, hnamed, rfl⟩ := List.mem_map.mp he
        exact ihHash named hnamed hx
    obtain ⟨hscopes, hframes, hpath⟩ := hargument
    exact ⟨hscopes, hframes, Expr.mem_paths_of_argument he hpath⟩

theorem stands_of_mem_visitsTag {s : Statement} (h : x ∈ r.visitsTag scopes frames s) :
    x.scopes = scopes ∧ x.frames = frames ∧ x.path ∈ s.paths := by
  obtain ⟨e, he, hx⟩ := exists_of_mem_visitsTag h
  obtain ⟨hscopes, hframes, hpath⟩ := stands_of_mem_visitsExpr hx
  exact ⟨hscopes, hframes, Statement.mem_paths_of_operand he hpath⟩

/-- What is visited in a statement is a path of it, or of one in its bodies. -/
theorem path_of_mem_visitsStatement {P : Path → Prop} {s : Statement}
    (hP : ∀ t ∈ s.nested, ∀ p ∈ t.paths, P p) :
    ∀ x ∈ r.visitsStatement a scopes frames s, P x.path := by
  induction s using Statement.induction generalizing scopes frames with
  | content => exact fun x hx => absurd hx List.not_mem_nil
  | expression span head params hash =>
    intro x hx
    have htag : x ∈ r.visitsTag scopes frames (.expression span head params hash) := hx
    obtain ⟨-, -, hpath⟩ := stands_of_mem_visitsTag htag
    exact hP _ (Statement.self_mem_nested _) x.path hpath
  | block span kind params hash program inverse ihProgram ihInverse =>
    obtain ⟨htag, hprogram, hinverse⟩ := Statement.forall_nested_block.mp hP
    intro x hx
    rcases mem_visitsStatement_block hx with hx | ⟨body, hbody, hx⟩ | ⟨v, -, inner, -, hx⟩
    · obtain ⟨-, -, hpath⟩ := stands_of_mem_visitsTag hx
      exact htag x.path hpath
    · obtain ⟨s, hs, hx⟩ := (r.visitsProgram_visitsBy a _ _).exists_of_mem hx
      exact ihInverse body hbody s hs (Program.everywhere_iff.mp (hinverse body hbody) s hs) x hx
    · obtain ⟨s, hs, hx⟩ := (r.visitsProgram_visitsBy a _ _).exists_of_mem hx
      exact ihProgram s hs (Program.everywhere_iff.mp hprogram s hs) x hx

/-- **What is visited is a path of the program.** -/
theorem path_mem_of_mem_visitsProgram {p : Program} (h : x ∈ r.visitsProgram a scopes frames p) :
    x.path ∈ p.paths := by
  obtain ⟨s, hs, hx⟩ := (r.visitsProgram_visitsBy a scopes frames).exists_of_mem h
  refine path_of_mem_visitsStatement (fun t ht path hpath => ?_) x hx
  exact Program.mem_paths_of_statement (List.mem_flatMap.mpr ⟨s, hs, ht⟩) hpath

end Membership

/-! ## Nothing else is looked at -/

section Congruence

variable {r r' : Renderer} {scopes : List Scope} {frames : List Frame}

/-- The path has the same value for both renderers. -/
def Alike (r r' : Renderer) (x : Visit) : Prop :=
  r.resolve x.frames x.path = r'.resolve x.frames x.path

/-- A call depends on its arguments only where there is such a helper, and on the named ones only
where the others do not fail. -/
theorem call_congr {name : String} (hhelper : Dict.get? name r.helpers = Dict.get? name r'.helpers)
    {span : Span} {args args' : Rendered (List Value)}
    {named named' : Rendered (List (String × Value))}
    (h : Dict.contains name r.helpers = true →
      args = args' ∧ ((∃ vs, args = .ok vs) → named = named')) :
    r.call span name args named = r'.call span name args' named' := by
  rw [call, call, ← hhelper]
  cases hname : Dict.get? name r.helpers with
  | none => rfl
  | some helper =>
    obtain ⟨rfl, hnamed⟩ := h (by rw [Dict.contains, hname]; rfl)
    cases args with
    | error e => rfl
    | ok vs => rw [hnamed ⟨vs, rfl⟩]

theorem callOn_congr {name : String}
    (hhelper : Dict.get? name r.helpers = Dict.get? name r'.helpers) {span : Span}
    {params : List Expr} {hash : List (String × Expr)}
    (hargs : ∀ e ∈ params ++ hash.map Prod.snd,
      (∀ x ∈ r.visitsExpr scopes frames e, Alike r r' x) → r.evaluate frames e = r'.evaluate frames e)
    (h : ∀ x ∈ r.visitsCall scopes frames name params hash, Alike r r' x) :
    r.callOn frames span name params hash = r'.callOn frames span name params hash := by
  refine call_congr hhelper fun hname => ?_
  rw [List.forall_mem_append] at hargs
  rw [visitsCall, if_pos hname, List.forall_mem_append] at h
  refine ⟨(r.visitsAll_visitsBy scopes frames).run_congr (r.evaluateAll_runsBy frames)
    (r'.evaluateAll_runsBy frames) hargs.1 h.1, fun ⟨vs, hvs⟩ => ?_⟩
  rw [hvs] at h
  exact (r.visitsNamed_visitsBy scopes frames).run_congr (r.evaluateNamed_runsBy frames)
    (r'.evaluateNamed_runsBy frames) (fun e he => hargs.2 e.2 (List.mem_map_of_mem he)) h.2

theorem evaluate_congr {e : Expr} (hhelpers : HelperSet.AgreeOn e.calls r.helpers r'.helpers)
    (h : ∀ x ∈ r.visitsExpr scopes frames e, Alike r r' x) :
    r.evaluate frames e = r'.evaluate frames e := by
  induction e using Expr.induction with
  | path p => exact congrArg Except.ok (h _ List.mem_cons_self)
  | literal span v => rfl
  | call span name params hash ihParams ihHash =>
    refine callOn_congr (hhelpers ⟨span, name⟩ (by simp)) (fun e he => ?_) h
    have hagree : HelperSet.AgreeOn e.calls r.helpers r'.helpers :=
      hhelpers.mono fun _ => Expr.mem_calls_of_argument he
    rcases List.mem_append.mp he with he | he
    · exact ihParams e he hagree
    · obtain ⟨named, hnamed, rfl⟩ := List.mem_map.mp he
      exact ihHash named hnamed hagree

/-- The tag of a statement depends on its visits, and on the helpers that are called in it. -/
theorem evaluateStatement_congr {span : Span} {head : Expr} {params : List Expr}
    {hash : List (String × Expr)}
    (hhelpers : HelperSet.AgreeOn (Statement.expression span head params hash).calls r.helpers
      r'.helpers)
    (h : ∀ x ∈ r.visitsTag scopes frames (.expression span head params hash), Alike r r' x) :
    r.evaluateStatement frames span head params hash =
      r'.evaluateStatement frames span head params hash := by
  rw [visitsTag] at h
  rw [evaluateStatement, evaluateStatement]
  cases hname : helperName? head params hash with
  | none =>
    rw [hname] at h
    refine evaluate_congr (hhelpers.mono fun _ => Statement.mem_calls_of_operand ?_) h
    simp [Statement.operands, hname]
  | some name =>
    rw [hname] at h
    refine callOn_congr (hhelpers _ (Statement.mem_calls_of_callee hname)) (fun e he => ?_) h
    refine evaluate_congr (hhelpers.mono fun _ => Statement.mem_calls_of_operand ?_)
    simpa [Statement.operands, hname] using he

theorem decider_congr {span : Span} {kind : BlockKind} {params : List Expr}
    {hash : List (String × Expr)} {program : Program} {inverse : Option Program}
    (hhelpers : HelperSet.AgreeOn (Statement.block span kind params hash program inverse).calls
      r.helpers r'.helpers)
    (h : ∀ x ∈ r.visitsTag scopes frames (.block span kind params hash program inverse),
      Alike r r' x) :
    r.decider frames span kind params hash = r'.decider frames span kind params hash := by
  have hoperands : ∀ e ∈ params ++ hash.map Prod.snd,
      HelperSet.AgreeOn e.calls r.helpers r'.helpers :=
    fun e he => hhelpers.mono fun _ => Statement.mem_calls_of_operand he
  cases kind with
  | custom name =>
    exact callOn_congr (hhelpers _ (Statement.mem_calls_of_callee rfl))
      (fun e he => evaluate_congr (hoperands e he)) h
  | _ =>
    cases params with
    | nil => rfl
    | cons target rest => exact evaluate_congr (hoperands target List.mem_cons_self) h

/-- What is rendered of a statement depends on its visits, and on the helpers that are called in
it. -/
theorem renderStatement_congr (a : Analyzer) {s : Statement}
    (hhelpers : ∀ t ∈ s.nested, HelperSet.AgreeOn t.calls r.helpers r'.helpers)
    (h : ∀ x ∈ r.visitsStatement a scopes frames s, Alike r r' x) :
    r.renderStatement frames s = r'.renderStatement frames s := by
  induction s using Statement.induction generalizing scopes frames with
  | content span text => rfl
  | expression span head params hash =>
    have htag := evaluateStatement_congr (hhelpers _ (Statement.self_mem_nested _)) h
    rw [renderStatement, renderStatement, htag]
  | block span kind params hash program inverse ihProgram ihInverse =>
    obtain ⟨htag, hprogram, hinverse⟩ := Statement.forall_nested_block.mp hhelpers
    rw [visitsStatement, List.forall_mem_append] at h
    rw [renderStatement, renderStatement, ← decider_congr htag h.1]
    cases hv : r.decider frames span kind params hash with
    | error e => rfl
    | ok v =>
      replace h := h.2
      simp only [hv] at h ⊢
      split
      · next hnone =>
        rw [hnone] at h
        cases inverse with
        | none => rfl
        | some body =>
          have hbody := Program.everywhere_iff.mp (hinverse body rfl)
          exact (r.visitsProgram_visitsBy a scopes frames).run_congr
            (r.renderProgram_runsBy frames) (r'.renderProgram_runsBy frames)
            (fun s hs => ihInverse body rfl s hs (hbody s hs)) h
      · next hsome =>
        have hbody := Program.everywhere_iff.mp hprogram
        split at h
        · next hnil => exact absurd hnil hsome
        · refine (visitsBodies_visitsBy _ _).run_congr (renderBodies_runsBy _)
            (renderBodies_runsBy _) (fun inner _ hinner => ?_) h
          exact (r.visitsProgram_visitsBy a _ inner).run_congr (r.renderProgram_runsBy inner)
            (r'.renderProgram_runsBy inner) (fun s hs => ihProgram s hs (hbody s hs)) hinner

/-- **Rendering looks at nothing but its visits**, and the helpers that are called. -/
theorem renderProgram_congr (a : Analyzer) {p : Program}
    (hhelpers : HelperSet.AgreeOn p.calls r.helpers r'.helpers)
    (h : ∀ x ∈ r.visitsProgram a scopes frames p, Alike r r' x) :
    r.renderProgram frames p = r'.renderProgram frames p := by
  have hall : p.Everywhere fun t => HelperSet.AgreeOn t.calls r.helpers r'.helpers := fun t ht =>
    hhelpers.mono fun _ => Program.mem_calls_of_statement ht
  exact (r.visitsProgram_visitsBy a scopes frames).run_congr (r.renderProgram_runsBy frames)
    (r'.renderProgram_runsBy frames)
    (fun s hs => renderStatement_congr a (Program.everywhere_iff.mp hall s hs)) h

end Congruence

end Renderer

end TypedTemplate
