import TypedTemplate.Helper.Catalogue
import TypedTemplate.Proofs.Analysis.Diagnostics
import TypedTemplate.Proofs.Program.Order

/-!
# The order of diagnostics

An analysis goes through a program in written order, and what it says about a tag, a call or a path
is blamed on where that begins. There is one thing that it says late: the type of a call is known
only once its arguments have been gone through. What is wrong with the type is then blamed on the
opening parenthesis, in front of everything that has already been said about the arguments.

* `Expr.judged`, `Program.judged`: the expressions whose types are held against something.
* `Late`: a complaint about the type of a call, behind what is said about an argument of the call.
* `Follows`: diagnostics in the order of the spans they are blamed on, late ones apart.
* `Analyzer.inferExpr_follows`, `Analyzer.inferStatement_follows`: expressions and statements.
* **`diagnostics_follow`**: the diagnostics of a program that is read are in order if and only if
  none of them is late.
-/

namespace TypedTemplate

/-! ## What may be late -/

/-- The line and column that a diagnostic is blamed on. -/
def Diagnostic.place (d : Diagnostic) : Place := d.span.place

/-- The problem is the type of a value that is not a path: of an argument, or of what is iterated
over. -/
def Problem.isOfType : Problem → Bool
  | .argumentType _ _ _ _ => true
  | .notAnArrayValue _ => true
  | _ => false

/-- The positional arguments of a call. Their types are held against the declaration. -/
def Expr.positional : Expr → List Expr
  | .call _ _ params _ => params
  | _ => []

/-- The expressions inside an expression whose types are held against a declaration. -/
def Expr.judged (e : Expr) : List Expr := e.parts.flatMap Expr.positional

theorem Expr.judged_call (span : Span) (name : String) (params : List Expr)
    (hash : List (String × Expr)) :
    (Expr.call span name params hash).judged =
      params ++ (params ++ hash.map Prod.snd).flatMap judged := by
  have hjudged : (fun e : Expr => e.parts.flatMap positional) = judged := rfl
  unfold judged
  rw [parts, List.flatMap_cons, partsIn_eq_flatMap, partsInNamed_eq_flatMap, List.flatMap_append,
    List.flatMap_assoc, List.flatMap_assoc, List.flatMap_append, List.flatMap_map]
  rfl

/-- The expressions in a tag whose types are held against something: the positional arguments of a
call, and the target of an iteration. -/
def Statement.judged : Statement → List Expr
  | .content _ _ => []
  | .expression span head params hash =>
    params ++ (Statement.expression span head params hash).exprs.flatMap Expr.judged
  | .block span kind params hash program inverse =>
    (if kind.isCustom || kind = .forEach then params else []) ++
      (Statement.block span kind params hash program inverse).exprs.flatMap Expr.judged

/-- The expressions of a program whose types are held against something. -/
def Program.judged (p : Program) : List Expr := p.statements.flatMap Statement.judged

/-- The spans inside a call: those of its arguments and of everything in them. -/
def Expr.inside : Expr → List Span
  | .call _ _ params hash => (params ++ hash.map Prod.snd).flatMap Expr.spans
  | _ => []

theorem Expr.spans_eq (e : Expr) : e.spans = e.span :: e.inside := by
  cases e with
  | path p => rfl
  | literal span v => rfl
  | call span name params hash => exact spans_call span name params hash

/-- **A late complaint**: what is wrong with the type of a call comes behind a diagnostic about an
argument of the call, or about something in it. -/
def Late (judged : List Expr) (earlier late : Diagnostic) : Prop :=
  late.problem.isOfType = true ∧
    ∃ e ∈ judged, late.span = e.span ∧ earlier.span ∈ e.inside

/-! ## Diagnostics in the order of spans -/

/-- **Diagnostics follow spans**: each is blamed on one of them, and they are in the order of their
places, late complaints apart. -/
structure Follows (judged : List Expr) (spans : List Span) (ds : List Diagnostic) : Prop where
  within : ∀ d ∈ ds, d.span ∈ spans
  ordered : ds.Pairwise fun d e => d.place ≤ e.place ∨ Late judged d e

namespace Follows

variable {judged : List Expr} {spans others : List Span} {ds es : List Diagnostic}

theorem nil : Follows judged spans [] := ⟨by simp, .nil⟩

theorem mono (h : Follows judged spans ds) (hsub : spans ⊆ others) : Follows judged others ds :=
  ⟨fun d hd => hsub (h.within d hd), h.ordered⟩

/-- Diagnostics about one span. -/
theorem of_span {span : Span} (h : ∀ d ∈ ds, d.span = span) : Follows judged [span] ds where
  within d hd := List.mem_singleton.mpr (h d hd)
  ordered := List.pairwise_of_forall_mem_list fun d hd e he => by
    have hsame : d.place = e.place := by rw [Diagnostic.place, Diagnostic.place, h d hd, h e he]
    exact .inl hsame.le

/-- What follows some spans, and behind it what follows the spans behind them. -/
theorem append (hds : Follows judged spans ds) (hes : Follows judged others es)
    (hsorted : ((spans ++ others).map Span.place).Pairwise (· < ·)) :
    Follows judged (spans ++ others) (ds ++ es) where
  within := List.forall_mem_append.mpr
    ⟨fun d hd => List.mem_append_left _ (hds.within d hd),
      fun e he => List.mem_append_right _ (hes.within e he)⟩
  ordered := by
    rw [List.map_append, List.pairwise_append] at hsorted
    refine List.pairwise_append.mpr ⟨hds.ordered, hes.ordered, fun d hd e he => .inl ?_⟩
    have hd := List.mem_map_of_mem (f := Span.place) (hds.within d hd)
    have he := List.mem_map_of_mem (f := Span.place) (hes.within e he)
    exact (hsorted.2.2 _ hd _ he).le

/-- What follows the spans of each member of a list. -/
theorem flatMap {α : Type} {f : α → List Diagnostic} {spansOf : α → List Span} {l : List α}
    (h : ∀ x ∈ l, ((spansOf x).map Span.place).Pairwise (· < ·) →
      Follows judged (spansOf x) (f x))
    (hsorted : ((l.flatMap spansOf).map Span.place).Pairwise (· < ·)) :
    Follows judged (l.flatMap spansOf) (l.flatMap f) := by
  induction l with
  | nil => exact .nil
  | cons x l ih =>
    rw [List.forall_mem_cons] at h
    rw [List.flatMap_cons] at hsorted
    have hboth := hsorted
    rw [List.map_append, List.pairwise_append] at hboth
    rw [List.flatMap_cons, List.flatMap_cons]
    exact (h.1 hboth.1).append (ih h.2 hboth.2.1) hsorted

/-- **A complaint about an expression behind what is said about it.** About a path everything is
blamed on its word; a complaint about the type of a call is late. -/
theorem complain {e : Expr} (h : Follows judged e.spans ds) (he : e ∈ judged)
    (hes : ∀ c ∈ es, c.span = e.span ∧ (e.path? = none → c.problem.isOfType = true)) :
    Follows judged e.spans (ds ++ es) where
  within := List.forall_mem_append.mpr ⟨h.within, fun c hc => by
    rw [(hes c hc).1, e.spans_eq]
    exact List.mem_cons_self⟩
  ordered := by
    have hown : Follows judged [e.span] es := of_span fun c hc => (hes c hc).1
    refine List.pairwise_append.mpr ⟨h.ordered, hown.ordered, fun d hd c hc => ?_⟩
    obtain ⟨hspan, htype⟩ := hes c hc
    have hwithin := h.within d hd
    rw [e.spans_eq] at hwithin
    rcases List.mem_cons.mp hwithin with hself | hinside
    · have hsame : d.place = c.place := by rw [Diagnostic.place, Diagnostic.place, hself, hspan]
      exact .inl hsame.le
    · have hcall : e.path? = none := by
        cases e with
        | path p => cases hinside
        | literal => rfl
        | call => rfl
      exact .inr ⟨htype hcall, e, he, hspan, hinside⟩

end Follows

/-! ## Expressions -/

/-- Everything that is said about a path is blamed on the path. -/
theorem Schema.span_of_mem_follow {s : Schema} {segments : List String} {p : Path} {d : Diagnostic}
    (hd : d ∈ (s.follow segments p).2) : d.span = p.span := by
  rw [follow] at hd
  split at hd
  · cases hd
  · rw [List.mem_singleton.mp hd]

theorem Declarations.span_of_mem_resolve {decls : Declarations} {scopes : List Scope} {p : Path}
    {d : Diagnostic} (hd : d ∈ (decls.resolve scopes p).2) : d.span = p.span := by
  rw [resolve] at hd
  split at hd
  · rw [resolveVariable] at hd
    split at hd
    · cases hd
    · split at hd
      · exact Schema.span_of_mem_follow hd
      · split at hd
        · split at hd
          · exact Schema.span_of_mem_follow hd
          · rw [List.mem_singleton.mp hd]
        · rw [List.mem_singleton.mp hd]
  · simp only at hd
    split at hd
    · split at hd
      · exact Schema.span_of_mem_follow hd
      · rw [List.mem_singleton.mp hd]
    · split at hd
      · rw [List.mem_singleton.mp hd]
      · split at hd
        · exact Schema.span_of_mem_follow hd
        · cases hd

theorem Helper.of_mem_countProblems {h : Helper} {span : Span} {count : Nat} {d : Diagnostic}
    (hd : d ∈ h.countProblems span count) : d.span = span := by
  rw [countProblems] at hd
  split at hd
  · cases hd
  · rw [List.mem_singleton.mp hd]

theorem Helper.of_mem_typeProblems {h : Helper} {index : Nat} {arg : Argument} {d : Diagnostic}
    (hd : d ∈ h.typeProblems index arg) : d.span = arg.span ∧ d.problem.isOfType = true := by
  rw [typeProblems] at hd
  split at hd
  · split at hd
    · cases hd
    · rw [List.mem_singleton.mp hd]
      exact ⟨rfl, rfl⟩
  · cases hd

namespace Analyzer

variable (a : Analyzer) {judged : List Expr} {scopes : List Scope}

/-- What is said about positional arguments, each with the complaint about its type behind it. -/
theorem argumentProblems_follows (h : Helper) (index : Nat) {es : List Expr} (hes : es ⊆ judged)
    (heach : ∀ e ∈ es, (e.spans.map Span.place).Pairwise (· < ·) →
      Follows judged e.spans (a.inferExpr scopes e).2)
    (hsorted : ((es.flatMap Expr.spans).map Span.place).Pairwise (· < ·)) :
    Follows judged (es.flatMap Expr.spans) (h.argumentProblems index (a.inferAll scopes es)) := by
  induction es generalizing index with
  | nil => exact .nil
  | cons e es ih =>
    rw [List.forall_mem_cons] at heach
    rw [List.flatMap_cons] at hsorted
    have hboth := hsorted
    rw [List.map_append, List.pairwise_append] at hboth
    have hcomplaints : ∀ c ∈ h.typeProblems index
        ⟨e.span, (a.inferExpr scopes e).1, (a.inferExpr scopes e).2⟩,
        c.span = e.span ∧ (e.path? = none → c.problem.isOfType = true) := by
      intro c hc
      exact ⟨(Helper.of_mem_typeProblems hc).1, fun _ => (Helper.of_mem_typeProblems hc).2⟩
    have hfirst := (heach.1 hboth.1).complain (hes List.mem_cons_self) hcomplaints
    have hmore := ih (index + 1) (fun x hx => hes (List.mem_cons_of_mem e hx)) heach.2 hboth.2.1
    rw [List.flatMap_cons, inferAll, Helper.argumentProblems]
    exact hfirst.append hmore hsorted

/-- **A call** says something about itself, and then about its arguments. -/
theorem inferCall_follows {span : Span} (name : String) {params : List Expr}
    {hash : List (String × Expr)} (hparams : params ⊆ judged)
    (heach : ∀ e ∈ params ++ hash.map Prod.snd, (e.spans.map Span.place).Pairwise (· < ·) →
      Follows judged e.spans (a.inferExpr scopes e).2)
    (hsorted : ((span :: (params ++ hash.map Prod.snd).flatMap Expr.spans).map
      Span.place).Pairwise (· < ·)) :
    Follows judged (span :: (params ++ hash.map Prod.snd).flatMap Expr.spans)
      (a.inferCall scopes span name params hash).2 := by
  have hnamed : a.inferNamed scopes hash =
      (hash.map Prod.snd).flatMap fun e => (a.inferExpr scopes e).2 := by
    rw [inferNamed_diagnostics, List.flatMap_map]
  have hargs : ((params ++ hash.map Prod.snd).flatMap Expr.spans |>.map
      Span.place).Pairwise (· < ·) := (List.pairwise_cons.mp hsorted).2
  unfold inferCall judge
  rw [hnamed]
  cases Dict.get? name a.helpers with
  | none =>
    have hall : (a.inferAll scopes params).flatMap Argument.diagnostics =
        params.flatMap fun e => (a.inferExpr scopes e).2 := by
      rw [List.flatMap_def, inferAll_diagnostics, ← List.flatMap_def]
    have hself : Follows judged [span] [⟨.unknownHelper name, span⟩] :=
      .of_span fun d hd => by rw [List.mem_singleton.mp hd]
    simp only
    rw [hall, List.cons_append, ← List.flatMap_append]
    exact hself.append (.flatMap heach hargs) hsorted
  | some h =>
    have hself : Follows judged [span]
        (h.countProblems span (a.inferAll scopes params).length) :=
      .of_span fun d hd => Helper.of_mem_countProblems hd
    have hboth := hargs
    rw [List.forall_mem_append] at heach
    rw [List.flatMap_append] at hargs hsorted ⊢
    rw [List.flatMap_append, List.map_append, List.pairwise_append] at hboth
    have hmore := (a.argumentProblems_follows h 0 hparams heach.1 hboth.1).append
      (.flatMap heach.2 hboth.2.1) hargs
    simp only
    rw [List.append_assoc]
    exact hself.append hmore hsorted

/-- **What is said about an expression** follows its spans. -/
theorem inferExpr_follows (e : Expr) : e.judged ⊆ judged →
    (e.spans.map Span.place).Pairwise (· < ·) →
    Follows judged e.spans (a.inferExpr scopes e).2 := by
  induction e using Expr.induction with
  | path p =>
    intro _ _
    exact .of_span fun d hd => Declarations.span_of_mem_resolve hd
  | literal span v =>
    intro _ _
    exact .nil
  | call span name params hash ihParams ihHash =>
    intro hjudged hsorted
    rw [Expr.judged_call, List.append_subset] at hjudged
    obtain ⟨hparams, hin⟩ := hjudged
    rw [Expr.spans_call] at hsorted ⊢
    refine a.inferCall_follows name hparams (fun e he => ?_) hsorted
    have hinside : e.judged ⊆ judged := fun x hx => hin (List.mem_flatMap.mpr ⟨e, he, hx⟩)
    rcases List.mem_append.mp he with hparam | hnamed
    · exact ihParams e hparam hinside
    · obtain ⟨named, hmem, rfl⟩ := List.mem_map.mp hnamed
      exact ihHash named hmem hinside

/-! ## Statements -/

/-- The complaint about the target of an iteration. -/
theorem of_mem_elementScope {target : Expr} {s : Schema} {d : Diagnostic}
    (hd : d ∈ (elementScope target s).2) :
    d.span = target.span ∧ (target.path? = none → d.problem.isOfType = true) := by
  unfold elementScope at hd
  split at hd
  · cases hd
  · cases target with
    | path p =>
      rw [List.mem_singleton.mp hd]
      exact ⟨rfl, fun hnone => by cases hnone⟩
    | literal =>
      rw [List.mem_singleton.mp hd]
      exact ⟨rfl, fun _ => rfl⟩
    | call =>
      rw [List.mem_singleton.mp hd]
      exact ⟨rfl, fun _ => rfl⟩

/-- The expressions in a tag follow their spans, and these are in order where those of the tag
are. -/
theorem follows_of_mem_exprs {s : Statement} (hjudged : s.judged ⊆ judged)
    (hsorted : (s.spans.map Span.place).Pairwise (· < ·)) {e : Expr} (he : e ∈ s.exprs) :
    Follows judged e.spans (a.inferExpr scopes e).2 := by
  have hin : e.judged ⊆ s.judged := by
    intro x hx
    have hmem : x ∈ s.exprs.flatMap Expr.judged := List.mem_flatMap.mpr ⟨e, he, hx⟩
    cases s with
    | content => cases he
    | expression => exact List.mem_append_right _ hmem
    | block => exact List.mem_append_right _ hmem
  have hsub : e.spans.Sublist s.spans :=
    (List.sublist_flatten_of_mem (List.mem_map_of_mem he)).trans (List.sublist_cons_self _ _)
  exact a.inferExpr_follows e (fun x hx => hjudged (hin hx)) (hsorted.sublist (hsub.map Span.place))

/-- The spans of an expression in a tag are among those of the tag. -/
theorem spans_subset_of_mem_exprs {s : Statement} {e : Expr} (he : e ∈ s.exprs) :
    e.spans ⊆ s.spans :=
  fun _ hx => List.mem_cons_of_mem _ (List.mem_flatMap.mpr ⟨e, he, hx⟩)

/-- **The tag of an expression statement.** A word that names a helper is passed over. -/
theorem inferExpression_follows {span : Span} {head : Expr} {params : List Expr}
    {hash : List (String × Expr)}
    (hjudged : (Statement.expression span head params hash).judged ⊆ judged)
    (hsorted : ((Statement.expression span head params hash).spans.map
      Span.place).Pairwise (· < ·)) :
    Follows judged (Statement.expression span head params hash).spans
      (a.inferExpression scopes span head params hash).2 := by
  have heach : ∀ e ∈ (Statement.expression span head params hash).exprs,
      Follows judged e.spans (a.inferExpr scopes e).2 :=
    fun e he => a.follows_of_mem_exprs hjudged hsorted he
  unfold inferExpression
  cases helperName? head params hash with
  | none =>
    exact (heach head List.mem_cons_self).mono (spans_subset_of_mem_exprs List.mem_cons_self)
  | some name =>
    have hsub : (span :: (params ++ hash.map Prod.snd).flatMap Expr.spans).Sublist
        (Statement.expression span head params hash).spans :=
      (List.sublist_append_right head.spans _).cons_cons span
    have hparams : params ⊆ judged := fun x hx => hjudged (List.mem_append_left _ hx)
    exact (a.inferCall_follows name hparams (fun e he _ => heach e (List.mem_cons_of_mem head he))
      (hsorted.sublist (hsub.map Span.place))).mono hsub.subset

/-- **The tag of a block.** -/
theorem enter_follows {span : Span} {kind : BlockKind} {params : List Expr}
    {hash : List (String × Expr)} {program : Program} {inverse : Option Program}
    (hjudged : (Statement.block span kind params hash program inverse).judged ⊆ judged)
    (hsorted : ((Statement.block span kind params hash program inverse).spans.map
      Span.place).Pairwise (· < ·)) :
    Follows judged (Statement.block span kind params hash program inverse).spans
      (a.enter scopes span kind params hash).2 := by
  have heach : ∀ e ∈ (Statement.block span kind params hash program inverse).exprs,
      Follows judged e.spans (a.inferExpr scopes e).2 :=
    fun e he => a.follows_of_mem_exprs hjudged hsorted he
  have hone : ∀ e, e ∈ (Statement.block span kind params hash program inverse).exprs →
      Follows judged (Statement.block span kind params hash program inverse).spans
        (a.inferExpr scopes e).2 :=
    fun e he => (heach e he).mono (spans_subset_of_mem_exprs he)
  cases kind with
  | custom name =>
    have hparams : params ⊆ judged := fun x hx => hjudged (List.mem_append_left _ hx)
    exact a.inferCall_follows name hparams (fun e he _ => heach e he) hsorted
  | whenTrue =>
    cases params with
    | nil => exact .nil
    | cons target rest => exact hone target List.mem_cons_self
  | whenFalse =>
    cases params with
    | nil => exact .nil
    | cons target rest => exact hone target List.mem_cons_self
  | inside =>
    cases params with
    | nil => exact .nil
    | cons target rest => exact hone target List.mem_cons_self
  | forEach =>
    cases params with
    | nil => exact .nil
    | cons target rest =>
      have htarget := heach target List.mem_cons_self
      have hmem : target ∈ judged := hjudged (List.mem_append_left _ List.mem_cons_self)
      rw [enter]
      cases hinfer : a.inferExpr scopes target with
      | mk schema ds =>
        rw [hinfer] at htarget
        refine Follows.mono ?_ (spans_subset_of_mem_exprs (List.mem_cons_self (a := target)))
        cases schema with
        | none => exact htarget
        | some schema => exact htarget.complain hmem fun c hc => of_mem_elementScope hc

/-- **What is said about a statement** follows the spans of the statement and of its bodies: first
its tag, then its body, then its alternative. -/
theorem inferStatement_follows (s : Statement) : ∀ scopes,
    s.nested.flatMap Statement.judged ⊆ judged →
    (s.allSpans.map Span.place).Pairwise (· < ·) →
    Follows judged s.allSpans (a.inferStatement scopes s).2 := by
  induction s using Statement.induction with
  | content span text =>
    intro scopes _ _
    exact .nil
  | expression span head params hash =>
    intro scopes hjudged hsorted
    have hall : (Statement.expression span head params hash).allSpans =
        (Statement.expression span head params hash).spans := by
      simp [Statement.allSpans, Statement.nested]
    have hown : (Statement.expression span head params hash).judged ⊆ judged := by
      simpa [Statement.nested] using hjudged
    rw [hall] at hsorted ⊢
    exact a.inferExpression_follows hown hsorted
  | block span kind params hash program inverse ihProgram ihInverse =>
    intro scopes hjudged hsorted
    have hall : (Statement.block span kind params hash program inverse).allSpans =
        (Statement.block span kind params hash program inverse).spans ++
          (program.flatMap Statement.allSpans ++ (inverse.getD []).flatMap Statement.allSpans) := by
      rw [← Program.spans_eq_flatMap, ← Program.spans_eq_flatMap]
      exact Header.allSpans_block ⟨span, kind, params, hash⟩ program inverse
    rw [Statement.nested_block, List.flatMap_cons, List.flatMap_append, List.append_subset,
      List.append_subset] at hjudged
    obtain ⟨hown, hbody, hother⟩ := hjudged
    rw [hall] at hsorted ⊢
    have hparts := hsorted
    rw [List.map_append, List.pairwise_append] at hparts
    obtain ⟨htag, hbodies, -⟩ := hparts
    have hboth := hbodies
    rw [List.map_append, List.pairwise_append] at hboth
    rw [inferStatement_block_diagnostics, List.append_assoc]
    refine (a.enter_follows hown htag).append (Follows.append ?_ ?_ hbodies) hsorted
    · refine .flatMap (fun s hs => ihProgram s hs _ fun x hx => hbody ?_) hboth.1
      obtain ⟨t, ht, hx⟩ := List.mem_flatMap.mp hx
      exact List.mem_flatMap.mpr ⟨t, List.mem_flatMap.mpr ⟨s, hs, ht⟩, hx⟩
    · refine .flatMap (fun s hs => ?_) hboth.2.1
      cases inverse with
      | none => cases hs
      | some body =>
        refine ihInverse body rfl s hs _ fun x hx => hother ?_
        obtain ⟨t, ht, hx⟩ := List.mem_flatMap.mp hx
        exact List.mem_flatMap.mpr ⟨t, List.mem_flatMap.mpr ⟨s, hs, ht⟩, hx⟩

end Analyzer

/-! ## Programs -/

/-- **What is said about a program** whose places ascend follows its spans. -/
theorem analyze_follows (a : Analyzer) {p : Program}
    (hsorted : (p.spans.map Span.place).Pairwise (· < ·)) :
    Follows p.judged p.spans (analyze a p).diagnostics := by
  rw [Analyzer.analyze_diagnostics]
  rw [Program.spans_eq_flatMap] at hsorted ⊢
  refine .flatMap (fun s hs => a.inferStatement_follows s _ fun x hx => ?_) hsorted
  obtain ⟨t, ht, hx⟩ := List.mem_flatMap.mp hx
  exact List.mem_flatMap.mpr ⟨t, List.mem_flatMap.mpr ⟨s, hs, ht⟩, hx⟩

/-- What is inside an expression is written in the order in which it stands there. -/
theorem Expr.parts_sublist {e x : Expr} (h : x ∈ e.parts) : x.parts.Sublist e.parts := by
  induction e using Expr.induction with
  | path p =>
    rw [List.mem_singleton.mp h]
  | literal span v =>
    rw [List.mem_singleton.mp h]
  | call span name params hash ihParams ihHash =>
    have hself : (Expr.call span name params hash).parts =
        .call span name params hash ::
          (params.flatMap parts ++ hash.flatMap fun e => e.2.parts) := by
      rw [parts, partsIn_eq_flatMap, partsInNamed_eq_flatMap]
    rw [hself, List.mem_cons, List.mem_append, List.mem_flatMap, List.mem_flatMap] at h
    rcases h with rfl | ⟨e, he, hx⟩ | ⟨e, he, hx⟩
    · exact List.Sublist.refl _
    · rw [hself]
      have hone : e.parts.Sublist (params.flatMap parts) :=
        List.sublist_flatten_of_mem (List.mem_map_of_mem he)
      exact ((ihParams e he hx).trans hone).trans
        ((List.sublist_append_left _ _).trans (List.sublist_cons_self _ _))
    · rw [hself]
      have hone : e.2.parts.Sublist (hash.flatMap fun e => e.2.parts) :=
        List.sublist_flatten_of_mem (List.mem_map_of_mem he)
      exact ((ihHash e he hx).trans hone).trans
        ((List.sublist_append_right _ _).trans (List.sublist_cons_self _ _))

/-- An expression that is judged inside another one is one of its parts. -/
theorem Expr.mem_parts_of_mem_judged {e x : Expr} (h : x ∈ e.judged) : x ∈ e.parts := by
  obtain ⟨c, hc, hx⟩ := List.mem_flatMap.mp h
  cases c with
  | path => cases hx
  | literal => cases hx
  | call span name params hash =>
    refine (parts_sublist hc).subset (List.mem_cons_of_mem _ (List.mem_append_left _ ?_))
    rw [partsIn_eq_flatMap]
    refine List.mem_flatMap.mpr ⟨x, hx, ?_⟩
    cases x <;> exact List.mem_cons_self

/-- An expression in a tag that is judged stands in one of the expressions of the tag. -/
theorem Statement.exists_of_mem_judged {s : Statement} {x : Expr} (h : x ∈ s.judged) :
    ∃ e ∈ s.exprs, x ∈ e.parts := by
  have hself : x ∈ x.parts := by cases x <;> exact List.mem_cons_self
  have hinside : x ∈ s.exprs.flatMap Expr.judged → ∃ e ∈ s.exprs, x ∈ e.parts := by
    intro hx
    obtain ⟨e, he, hx⟩ := List.mem_flatMap.mp hx
    exact ⟨e, he, Expr.mem_parts_of_mem_judged hx⟩
  cases s with
  | content => cases h
  | expression span head params hash =>
    rcases List.mem_append.mp h with hparam | hx
    · exact ⟨x, List.mem_cons_of_mem _ (List.mem_append_left _ hparam), hself⟩
    · exact hinside hx
  | block span kind params hash program inverse =>
    rcases List.mem_append.mp h with hparam | hx
    · split at hparam
      · exact ⟨x, List.mem_append_left _ hparam, hself⟩
      · cases hparam
    · exact hinside hx

/-- The spans of an expression that is judged are in the order of the program. -/
theorem Program.spans_sublist_of_mem_judged {p : Program} {x : Expr} (h : x ∈ p.judged) :
    x.spans.Sublist p.spans := by
  obtain ⟨s, hs, hx⟩ := List.mem_flatMap.mp h
  obtain ⟨e, he, hx⟩ := Statement.exists_of_mem_judged hx
  have hinner : x.spans.Sublist e.spans := (Expr.parts_sublist hx).map Expr.span
  have htag : e.spans.Sublist s.spans :=
    (List.sublist_flatten_of_mem (List.mem_map_of_mem he)).trans (List.sublist_cons_self _ _)
  have hprogram : s.spans.Sublist p.spans :=
    List.sublist_flatten_of_mem (List.mem_map_of_mem hs)
  exact (hinner.trans htag).trans hprogram

/-- **A late complaint is out of order**: what stands before it is blamed on a later place. -/
theorem Late.place_lt {p : Program} (hsorted : (p.spans.map Span.place).Pairwise (· < ·))
    {earlier late : Diagnostic} (h : Late p.judged earlier late) : late.place < earlier.place := by
  obtain ⟨-, e, he, hspan, hinside⟩ := h
  have hown := hsorted.sublist ((Program.spans_sublist_of_mem_judged he).map Span.place)
  rw [e.spans_eq, List.map_cons] at hown
  have hfirst := (List.pairwise_cons.mp hown).1 _ (List.mem_map_of_mem hinside)
  rw [← hspan] at hfirst
  exact hfirst

/-- **The diagnostics of a program that is read** are in the order of their places, except that a
complaint about the type of a call may come late. They are in order if and only if none does, and so
they are wherever no call whose type is held against something has an argument. -/
theorem diagnostics_follow (a : Analyzer) {text : String} {p : Program}
    (h : readProgram text = .ok p) :
    ((analyze a p).diagnostics.Pairwise fun d e => d.place ≤ e.place ∨ Late p.judged d e) ∧
    (((analyze a p).diagnostics.Pairwise fun d e => d.place ≤ e.place) ↔
      (analyze a p).diagnostics.Pairwise fun d e => ¬Late p.judged d e) ∧
    ((∀ e ∈ p.judged, e.inside = []) →
      (analyze a p).diagnostics.Pairwise fun d e => d.place ≤ e.place) := by
  have hsorted := ascends_of_readProgram h
  have hfollows := (analyze_follows a hsorted).ordered
  have hnone : ((analyze a p).diagnostics.Pairwise fun d e => ¬Late p.judged d e) →
      (analyze a p).diagnostics.Pairwise fun d e => d.place ≤ e.place := by
    intro hnever
    refine (hfollows.and hnever).imp fun hpair => ?_
    exact hpair.1.resolve_right hpair.2
  refine ⟨hfollows, ⟨fun horder => ?_, hnone⟩, fun hbare => hnone ?_⟩
  · refine horder.imp fun hle hlate => ?_
    exact absurd (hlate.place_lt hsorted) (not_lt.mpr hle)
  · refine hfollows.imp fun _ hlate => ?_
    obtain ⟨-, e, he, -, hinside⟩ := hlate
    rw [hbare e he] at hinside
    cases hinside

/-- The analysis of a template over data that nothing is known of. -/
def openAnalyzer : Analyzer where
  side := []
  root := .any
  helpers := .builtins

/-- The lines and columns of what is said about a program. -/
def blamedPlaces (p : Program) : List (Nat × Nat) :=
  (analyze openAnalyzer p).diagnostics.map fun d => (d.span.line, d.span.col)

/-- A call with too many arguments, and a chain of conditions, on two lines. -/
def wordyText : String :=
  "a \x7b\x7badd (nope b=zz) 'x' (lt 1 2)\x7d\x7d\n" ++
  "\x7b\x7b#if y\x7d\x7d\x7b\x7bz\x7d\x7d\x7b\x7belse if (sub 1)\x7d\x7d\x7b\x7b@q\x7d\x7d" ++
  "\x7b\x7b/if\x7d\x7d"

theorem wordyText_diagnostics :
    ∃ p, readProgram wordyText = .ok p ∧
      blamedPlaces p =
        [(1, 3), (1, 9), (1, 17), (1, 21), (2, 7), (2, 12), (2, 25), (2, 36)] ∧
      ((analyze openAnalyzer p).diagnostics.Pairwise fun d e =>
        d.place ≤ e.place ∨ Late p.judged d e) := by
  have hread : ∃ p, readProgram wordyText = .ok p ∧
      decide (blamedPlaces p =
        [(1, 3), (1, 9), (1, 17), (1, 21), (2, 7), (2, 12), (2, 25), (2, 36)]) = true :=
    exists_eq_ok (by decide +kernel)
  obtain ⟨p, hp, hplaces⟩ := hread
  exact ⟨p, hp, of_decide_eq_true hplaces, (diagnostics_follow openAnalyzer hp).1⟩

/-- A call whose type is wrong, with an argument that leads nowhere. -/
def lateText : String := "\x7b\x7badd (eq zz 1) 1\x7d\x7d"

/-- **The diagnostics are not always in order**: of the call it is said first that its argument leads
nowhere, and then that its type is wrong. -/
theorem not_inOrder_lateText :
    (∃ p, readProgram lateText = .ok p ∧ blamedPlaces p = [(1, 11), (1, 7)]) ∧
      ¬∀ (a : Analyzer) (text : String) (p : Program), readProgram text = .ok p →
        (analyze a p).diagnostics.Pairwise fun d e => d.place ≤ e.place := by
  have hread : ∃ p, readProgram lateText = .ok p ∧
      decide (blamedPlaces p = [(1, 11), (1, 7)]) = true := exists_eq_ok (by decide +kernel)
  obtain ⟨p, hp, hplaces⟩ := hread
  have hplaces := of_decide_eq_true hplaces
  refine ⟨⟨p, hp, hplaces⟩, fun hall => ?_⟩
  have horder := hall openAnalyzer lateText p hp
  have hmapped : (blamedPlaces p).Pairwise fun x y => toLex x ≤ toLex y :=
    List.pairwise_map.mpr horder
  rw [hplaces, List.pairwise_pair] at hmapped
  have hcolumns : (11 : Nat) ≤ 7 := by
    rcases Prod.Lex.toLex_le_toLex.mp hmapped with hline | ⟨-, hcol⟩
    · exact absurd hline (lt_irrefl 1)
    · exact hcol
  exact absurd hcolumns (by decide)

end TypedTemplate
