import Mathlib.Data.List.Basic
import TypedTemplate.Proofs.Analysis.Diagnostics
import TypedTemplate.Proofs.Program.WellFormed
import TypedTemplate.Proofs.Render.Failures

/-!
# Every call is looked at

The analysis and the renderer go through a program each in its own way, and both look helpers up by
name. A call that only the renderer reached could fail in a template that was found valid. There is
none: what the analysis says about helpers that are not there is, call by call, what there is to say
about the calls that are written in the program.

## Results

* **`unknownHelpers_analyze`**: the diagnostics about unknown helpers are those of the calls whose
  helper is missing, one for each, in the order of the program.
* `present_of_isValid`: in a valid template every call has its helper.
* **`unknownHelpers_complete`**: both halves for a template that was read. If it is valid, an
  execution fails only for a helper that failed on its arguments.
-/

namespace TypedTemplate

/-! ## Missing helpers -/

/-- The diagnostic is about a helper that is not there. -/
def Diagnostic.isUnknownHelper (d : Diagnostic) : Bool := d.problem.kind = .unknownHelper

/-- The diagnostics about helpers that are not there. -/
def unknownHelpers (ds : List Diagnostic) : List Diagnostic := ds.filter Diagnostic.isUnknownHelper

namespace CallSite

/-- There is no helper for the call. -/
def isMissing (helpers : HelperSet) (site : CallSite) : Bool := !Dict.contains site.name helpers

/-- What there is to say about a call without a helper. -/
def diagnostic (site : CallSite) : Diagnostic := ⟨.unknownHelper site.name, site.span⟩

end CallSite

/-- What there is to say about calls, one diagnostic for each that has no helper. -/
def missingHelpers (helpers : HelperSet) (sites : List CallSite) : List Diagnostic :=
  (sites.filter (CallSite.isMissing helpers)).map CallSite.diagnostic

variable {helpers : HelperSet}

theorem missingHelpers_append (l m : List CallSite) :
    missingHelpers helpers (l ++ m) = missingHelpers helpers l ++ missingHelpers helpers m := by
  rw [missingHelpers, List.filter_append, List.map_append]
  rfl

theorem missingHelpers_flatMap {α : Type} (f : α → List CallSite) (l : List α) :
    missingHelpers helpers (l.flatMap f) = l.flatMap fun x => missingHelpers helpers (f x) := by
  rw [missingHelpers, List.filter_flatMap, List.map_flatMap]
  rfl

theorem unknownHelpers_append (l m : List Diagnostic) :
    unknownHelpers (l ++ m) = unknownHelpers l ++ unknownHelpers m := List.filter_append ..

theorem unknownHelpers_flatMap {α : Type} (f : α → List Diagnostic) (l : List α) :
    unknownHelpers (l.flatMap f) = l.flatMap fun x => unknownHelpers (f x) := List.filter_flatMap ..

theorem unknownHelpers_eq_nil {ds : List Diagnostic}
    (h : ∀ d ∈ ds, d.problem.kind ≠ .unknownHelper) : unknownHelpers ds = [] :=
  List.filter_eq_nil_iff.mpr fun d hd => by simp [Diagnostic.isUnknownHelper, h d hd]

/-! ## Expressions -/

namespace Analyzer

variable (a : Analyzer) (scopes : List Scope)

theorem unknownHelpers_resolve (p : Path) : unknownHelpers (a.resolve scopes p).2 = [] :=
  unknownHelpers_eq_nil fun d hd => by
    rcases Declarations.kind_of_mem_resolve hd with h | h <;> simp [h]

/-- A call is looked up once, before its arguments. -/
theorem unknownHelpers_judge (span : Span) (name : String) (args : List Argument)
    (named : List Diagnostic) :
    unknownHelpers (a.judge span name args named).2 =
      missingHelpers a.helpers [⟨span, name⟩] ++
        (args.flatMap fun arg => unknownHelpers arg.diagnostics) ++ unknownHelpers named := by
  have hkind : ∀ d : Diagnostic, d.problem.kind = .argumentMismatch → d.isUnknownHelper = false :=
    fun d hd => by simp [Diagnostic.isUnknownHelper, hd]
  rw [unknownHelpers, judge_filter hkind, missingHelpers]
  congr 2
  by_cases hname : Dict.contains name a.helpers = true
  · rw [if_pos hname, List.filter_cons_of_neg (by simp [CallSite.isMissing, hname])]
    rfl
  · rw [if_neg hname, List.filter_cons_of_pos rfl,
      List.filter_cons_of_pos (by simp [CallSite.isMissing, hname])]
    rfl

/-- Of arguments whose calls are looked at, all calls are looked at. -/
theorem unknownHelpers_arguments {params : List Expr} {hash : List (String × Expr)}
    (hparams : ∀ e ∈ params,
      unknownHelpers (a.inferExpr scopes e).2 = missingHelpers a.helpers e.calls)
    (hhash : ∀ e ∈ hash,
      unknownHelpers (a.inferExpr scopes e.2).2 = missingHelpers a.helpers e.2.calls) :
    ((a.inferAll scopes params).flatMap fun arg => unknownHelpers arg.diagnostics) ++
        unknownHelpers (a.inferNamed scopes hash) =
      missingHelpers a.helpers
        (params.flatMap Expr.calls ++ hash.flatMap fun e => e.2.calls) := by
  have hall : ((a.inferAll scopes params).flatMap fun arg => unknownHelpers arg.diagnostics) =
      params.flatMap fun e => unknownHelpers (a.inferExpr scopes e).2 := by
    have hmap := congrArg (List.flatMap unknownHelpers) (a.inferAll_diagnostics scopes params)
    rwa [List.flatMap_map, List.flatMap_map] at hmap
  rw [hall, inferNamed_diagnostics, unknownHelpers_flatMap, missingHelpers_append,
    missingHelpers_flatMap, missingHelpers_flatMap, List.flatMap_congr hparams,
    List.flatMap_congr hhash]

/-- **Every call in an expression is looked at.** -/
theorem unknownHelpers_inferExpr (e : Expr) :
    unknownHelpers (a.inferExpr scopes e).2 = missingHelpers a.helpers e.calls := by
  induction e using Expr.induction with
  | path p => exact unknownHelpers_resolve a scopes p
  | literal span v => rfl
  | call span name params hash ihParams ihHash =>
    rw [inferExpr, unknownHelpers_judge, List.append_assoc,
      unknownHelpers_arguments a scopes ihParams ihHash, ← missingHelpers_append, Expr.calls_call]
    rfl

theorem unknownHelpers_inferCall (span : Span) (name : String) (params : List Expr)
    (hash : List (String × Expr)) :
    unknownHelpers (a.inferCall scopes span name params hash).2 =
      missingHelpers a.helpers
        (⟨span, name⟩ :: (params ++ hash.map Prod.snd).flatMap Expr.calls) := by
  rw [inferCall, unknownHelpers_judge, List.append_assoc,
    unknownHelpers_arguments a scopes (fun e _ => unknownHelpers_inferExpr a scopes e)
      (fun e _ => unknownHelpers_inferExpr a scopes e.2), ← missingHelpers_append,
    List.flatMap_append, List.flatMap_map]
  rfl

/-! ## Tags -/

/-- Every call in the tag of an expression is looked at. -/
theorem unknownHelpers_inferExpression {span : Span} {head : Expr} {params : List Expr}
    {hash : List (String × Expr)}
    (hs : (Statement.expression span head params hash).WellFormed) :
    unknownHelpers (a.inferExpression scopes span head params hash).2 =
      missingHelpers a.helpers (Statement.expression span head params hash).calls := by
  rw [inferExpression, Statement.calls, Statement.callee?, Statement.operands]
  cases hname : helperName? head params hash with
  | some name => exact unknownHelpers_inferCall a scopes span name params hash
  | none =>
    obtain ⟨rfl, rfl⟩ := hs.arguments_eq_nil hname
    simpa using unknownHelpers_inferExpr a scopes head

/-- Every call in the tag of a block is looked at, whatever becomes of the scope of its body. -/
theorem unknownHelpers_enter {span : Span} {kind : BlockKind} {params : List Expr}
    {hash : List (String × Expr)} {program : Program} {inverse : Option Program}
    (hs : (Statement.block span kind params hash program inverse).WellFormed) :
    unknownHelpers (a.enter scopes span kind params hash).2 =
      missingHelpers a.helpers (Statement.block span kind params hash program inverse).calls := by
  cases hkind : kind.isCustom with
  | true =>
    cases kind with
    | custom name => exact unknownHelpers_inferCall a scopes span name params hash
    | _ => cases hkind
  | false =>
    obtain ⟨⟨target, rfl⟩, rfl⟩ := hs.shape hkind
    have hcalls : (Statement.block span kind [target] [] program inverse).calls = target.calls := by
      cases kind with
      | custom name => cases hkind
      | _ => simp [Statement.calls, Statement.callee?, Statement.operands, Statement.exprs]
    rw [hcalls, ← unknownHelpers_inferExpr a scopes target]
    cases kind with
    | custom name => cases hkind
    | whenTrue => rfl
    | whenFalse => rfl
    | inside => rfl
    | forEach =>
      rw [enter]
      split
      · next h => rw [h]
      · next schema diagnostics h =>
        rw [h]
        simp only
        have hnone : unknownHelpers (elementScope target schema).2 = [] :=
          unknownHelpers_eq_nil fun d hd => by simp [kind_of_mem_elementScope hd]
        rw [unknownHelpers_append, hnone, List.append_nil]

/-! ## Programs -/

theorem unknownHelpers_flatMap_inferStatement {p : Program}
    (h : ∀ s ∈ p, unknownHelpers (a.inferStatement scopes s).2 =
      missingHelpers a.helpers (s.nested.flatMap Statement.calls)) :
    unknownHelpers (p.flatMap fun s => (a.inferStatement scopes s).2) =
      missingHelpers a.helpers p.calls := by
  rw [unknownHelpers_flatMap, List.flatMap_congr h, ← missingHelpers_flatMap, Program.calls,
    Program.statements, List.flatMap_assoc]

/-- **Every call of a statement is looked at**, in its tag and in its bodies, under any scopes. -/
theorem unknownHelpers_inferStatement {s : Statement} (hs : ∀ t ∈ s.nested, t.WellFormed) :
    unknownHelpers (a.inferStatement scopes s).2 =
      missingHelpers a.helpers (s.nested.flatMap Statement.calls) := by
  induction s using Statement.induction generalizing scopes with
  | content span text => rfl
  | expression span head params hash =>
    rw [inferStatement,
      unknownHelpers_inferExpression a scopes (hs _ (Statement.self_mem_nested _)),
      Statement.nested, List.flatMap_singleton]
  | block span kind params hash program inverse ihProgram ihInverse =>
    obtain ⟨hself, hprogram, hinverse⟩ := Statement.forall_nested_block.mp hs
    have hbody := unknownHelpers_flatMap_inferStatement a
      (a.enter scopes span kind params hash).1
      fun s h => ihProgram s h _ (Program.everywhere_iff.mp hprogram s h)
    have hother : unknownHelpers
        ((inverse.getD []).flatMap fun s => (a.inferStatement scopes s).2) =
        missingHelpers a.helpers (Program.calls (inverse.getD [])) := by
      refine unknownHelpers_flatMap_inferStatement a scopes fun s h => ?_
      cases inverse with
      | none => cases h
      | some body =>
        exact ihInverse body rfl s h _ (Program.everywhere_iff.mp (hinverse body rfl) s h)
    rw [inferStatement_block_diagnostics, unknownHelpers_append, unknownHelpers_append, hbody,
      hother, unknownHelpers_enter a scopes hself, Statement.nested_block, List.flatMap_cons,
      List.flatMap_append, missingHelpers_append, missingHelpers_append, List.append_assoc]
    rfl

end Analyzer

/-- **What an analysis says about unknown helpers** is what there is to say about the calls of the
program, call by call. -/
theorem unknownHelpers_analyze (a : Analyzer) {p : Program}
    (hp : p.Everywhere Statement.WellFormed) :
    unknownHelpers (analyze a p).diagnostics = missingHelpers a.helpers p.calls := by
  rw [Analyzer.analyze_diagnostics]
  exact Analyzer.unknownHelpers_flatMap_inferStatement a _ fun s hs =>
    Analyzer.unknownHelpers_inferStatement a _ (Program.everywhere_iff.mp hp s hs)

/-! ## Validity -/

/-- That a helper is unknown makes a template invalid. -/
theorem unknownHelpers_of_isValid {a : Analysis} (h : a.isValid = true) :
    unknownHelpers a.diagnostics = [] := by
  refine unknownHelpers_eq_nil fun d hd hkind => ?_
  have herrors : a.errors = [] := List.isEmpty_iff.mp h
  refine List.filter_eq_nil_iff.mp herrors d hd ?_
  simp [Diagnostic.isError, Problem.severity, hkind]

/-- In a valid template every call has its helper. -/
theorem present_of_isValid {a : Analyzer} {p : Program} (hp : p.Everywhere Statement.WellFormed)
    (h : (analyze a p).isValid = true) :
    ∀ site ∈ p.calls, (Dict.get? site.name a.helpers).isSome = true := by
  have hnil := (unknownHelpers_analyze a hp).symm.trans (unknownHelpers_of_isValid h)
  intro site hsite
  have hpresent := List.filter_eq_nil_iff.mp (List.map_eq_nil_iff.mp hnil) site hsite
  simpa only [CallSite.isMissing, Dict.contains, Bool.not_eq_true', Bool.not_eq_false]
    using hpresent

/-- **Unknown helpers are found, all of them and nothing else**: one diagnostic for every call
without a helper, in the order of the program. So a valid template, over any data, fails only where
a helper that it calls fails on its arguments. -/
theorem unknownHelpers_complete {source : Source} {t : Template}
    (ht : Template.read source = .ok t) (a : Analyzer) :
    unknownHelpers (analyze a t.program).diagnostics = missingHelpers a.helpers t.program.calls ∧
      ((analyze a t.program).isValid = true → ∀ side data e,
        Artifact.execute ⟨t, a.helpers⟩ side data = .error e →
          ∃ site ∈ t.program.calls, ∃ helper args named failure,
            Dict.get? site.name a.helpers = some helper ∧
            helper.call args named = .error failure ∧
            e = .failed source ⟨.helperFailed site.name failure, site.span⟩) := by
  have hwell := Template.wellFormed_of_read ht
  refine ⟨unknownHelpers_analyze a hwell, fun hvalid side data e he => ?_⟩
  obtain ⟨failure, rfl, site, hsite, haccounts⟩ := exists_call_of_execute_error he
  obtain ⟨rfl, -⟩ := Template.read_eq_ok ht
  cases haccounts with
  | unknown absent =>
    have hpresent := present_of_isValid hwell hvalid site hsite
    rw [show Dict.get? site.name a.helpers = none from absent] at hpresent
    cases hpresent
  | failed helper args named failure present answer =>
    exact ⟨site, hsite, helper, args, named, failure, present, answer, rfl⟩

/-- The names that an analysis says are unknown. -/
theorem map_problem_missingHelpers (helpers : HelperSet) (sites : List CallSite) :
    (missingHelpers helpers sites).map Diagnostic.problem =
      ((sites.map CallSite.name).filter fun name => !Dict.contains name helpers).map
        Problem.unknownHelper := by
  rw [missingHelpers, List.filter_map, List.map_map, List.map_map]
  rfl

/-- A helper that takes any arguments and refuses them. -/
def Helper.refusing (name : String) : Helper :=
  ⟨name, [], true, .any, none, fun _ _ => .error (.stated "no")⟩

/-- Three calls, in the target of a block and in its body. -/
def nestedCalls : Source :=
  ⟨"nested", "\x7b\x7b#if (ready x)\x7d\x7d{{shout k=(quote y)}}\x7b\x7b/if\x7d\x7d"⟩

/-- Three calls inside one another, two of them without a helper; and a valid template that fails
for the one helper it calls. -/
theorem unknownHelpers_of_nested_calls :
    (∃ t, Template.read nestedCalls = .ok t ∧
      (unknownHelpers (analyze ⟨⟨[], .any⟩, [("shout", .refusing "shout")]⟩
          t.program).diagnostics).map Diagnostic.problem =
        [.unknownHelper "ready", .unknownHelper "quote"]) ∧
    ∃ t, Template.read ⟨"refusal", "{{shout 1}}"⟩ = .ok t ∧
      ∃ e, Artifact.execute ⟨t, [("shout", .refusing "shout")]⟩ [] .null = .error e ∧
        ∃ site ∈ t.program.calls, ∃ failure,
          e = .failed ⟨"refusal", "{{shout 1}}"⟩ ⟨.helperFailed site.name failure, site.span⟩ := by
  constructor
  · have hread : ∃ t, Template.read nestedCalls = .ok t ∧
        decide (t.program.calls.map CallSite.name = ["ready", "shout", "quote"]) = true :=
      exists_eq_ok (by decide +kernel)
    obtain ⟨t, ht, hcalls⟩ := hread
    refine ⟨t, ht, ?_⟩
    rw [(unknownHelpers_complete ht _).1, map_problem_missingHelpers, of_decide_eq_true hcalls]
    rfl
  · have hread : ∃ t, Template.read ⟨"refusal", "{{shout 1}}"⟩ = .ok t ∧
        ((analyze ⟨⟨[], .any⟩, [("shout", .refusing "shout")]⟩ t.program).isValid &&
          match Artifact.execute ⟨t, [("shout", .refusing "shout")]⟩ [] .null with
          | .ok _ => false
          | .error _ => true) = true :=
      exists_eq_ok (by decide +kernel)
    obtain ⟨t, ht, hrun⟩ := hread
    rw [Bool.and_eq_true] at hrun
    refine ⟨t, ht, ?_⟩
    have hcomplete := (unknownHelpers_complete ht _).2 hrun.1 [] .null
    cases he : Artifact.execute ⟨t, [("shout", .refusing "shout")]⟩ [] .null with
    | ok v => rw [he] at hrun; cases hrun.2
    | error e =>
      obtain ⟨site, hsite, _, _, _, failure, -, -, heq⟩ := hcomplete e he
      exact ⟨e, rfl, site, hsite, failure, heq⟩

end TypedTemplate
