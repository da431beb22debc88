import TypedTemplate.Analysis.Inference
import TypedTemplate.Proofs.Program.Occurrence

/-!
# The diagnostics of a program

An analysis says about a program what it says about its statements, in their order, and about a
statement what it says about its tag and its bodies. The schemas that are inferred on the way decide
in which scopes a body is gone through, never whether it is.

* `Harmless`: diagnostics none of which is an error.
* `inferStatements_diagnostics`, `inferStatement_block_diagnostics`: programs and blocks.
* `inferAll_diagnostics`, `inferNamed_diagnostics`: arguments.
* `argumentProblems_filter`: a kind of diagnostic that no argument list causes comes from the
  arguments themselves.
-/

namespace TypedTemplate

/-! ## Harmless diagnostics -/

/-- None of the diagnostics is an error. -/
def Harmless (ds : List Diagnostic) : Prop := ds.filter Diagnostic.isError = []

theorem harmless_append {l m : List Diagnostic} : Harmless (l ++ m) ↔ Harmless l ∧ Harmless m := by
  rw [Harmless, List.filter_append, List.append_eq_nil_iff]
  rfl

theorem harmless_flatMap {α : Type} {f : α → List Diagnostic} {l : List α} :
    Harmless (l.flatMap f) ↔ ∀ x ∈ l, Harmless (f x) := by
  rw [Harmless, List.filter_flatMap, List.flatMap_eq_nil_iff]
  rfl

theorem not_harmless_of_kind {d : Diagnostic} (h : d.problem.kind ≠ .argumentMismatch) :
    ¬Harmless [d] := by
  have herror : d.isError = true := by simp [Diagnostic.isError, Problem.severity, h]
  rw [Harmless, List.filter_cons_of_pos herror]
  exact List.cons_ne_nil _ _

theorem Analysis.isValid_iff {a : Analysis} : a.isValid = true ↔ Harmless a.diagnostics :=
  List.isEmpty_iff

namespace Analyzer

variable (a : Analyzer) (scopes : List Scope)

/-! ## Programs -/

/-- **What there is to say about a program** is what there is to say about its statements. -/
theorem inferStatements_diagnostics (p : Program) :
    (a.inferStatements scopes p).2 = p.flatMap fun s => (a.inferStatement scopes s).2 := by
  induction p with
  | nil => rfl
  | cons s rest ih =>
    rw [inferStatements, List.flatMap_cons, ← ih]

theorem inferInverse_diagnostics (inverse : Option Program) :
    (a.inferInverse scopes inverse).2 =
      (inverse.getD []).flatMap fun s => (a.inferStatement scopes s).2 := by
  cases inverse with
  | none => rfl
  | some p => exact inferStatements_diagnostics a scopes p

/-- A body is gone through in the scopes of its block, an alternative in those around it. -/
theorem inferStatement_block_diagnostics (span : Span) (kind : BlockKind) (params : List Expr)
    (hash : List (String × Expr)) (program : Program) (inverse : Option Program) :
    (a.inferStatement scopes (.block span kind params hash program inverse)).2 =
      (a.enter scopes span kind params hash).2 ++
        (program.flatMap fun s =>
          (a.inferStatement (a.enter scopes span kind params hash).1 s).2) ++
        (inverse.getD []).flatMap fun s => (a.inferStatement scopes s).2 := by
  rw [inferStatement, ← inferStatements_diagnostics, ← inferInverse_diagnostics]

theorem analyze_diagnostics (p : Program) :
    (analyze a p).diagnostics =
      p.flatMap fun s => (a.inferStatement [⟨some a.root, false⟩] s).2 :=
  inferStatements_diagnostics a _ p

/-! ## Arguments -/

theorem inferAll_diagnostics (es : List Expr) :
    (a.inferAll scopes es).map Argument.diagnostics = es.map fun e => (a.inferExpr scopes e).2 := by
  induction es with
  | nil => rfl
  | cons e rest ih => rw [inferAll, List.map_cons, List.map_cons, ih]

theorem inferNamed_diagnostics (es : List (String × Expr)) :
    a.inferNamed scopes es = es.flatMap fun e => (a.inferExpr scopes e.2).2 := by
  induction es with
  | nil => rfl
  | cons e rest ih => rw [inferNamed, List.flatMap_cons, ih]

end Analyzer

/-! ## Kinds of diagnostics -/

theorem Helper.kind_of_mem_countProblems {h : Helper} {span : Span} {count : Nat} {d : Diagnostic}
    (hd : d ∈ h.countProblems span count) : d.problem.kind = .argumentMismatch := by
  rw [countProblems] at hd
  split at hd
  · cases hd
  · rw [List.mem_singleton.mp hd]
    rfl

theorem Helper.kind_of_mem_typeProblems {h : Helper} {index : Nat} {arg : Argument} {d : Diagnostic}
    (hd : d ∈ h.typeProblems index arg) : d.problem.kind = .argumentMismatch := by
  rw [typeProblems] at hd
  split at hd
  · split at hd
    · cases hd
    · rw [List.mem_singleton.mp hd]
      rfl
  · cases hd

section Filter

variable {q : Diagnostic → Bool}
  (hq : ∀ d, d.problem.kind = .argumentMismatch → q d = false)

include hq

/-- What a declaration has against arguments are mismatches, so anything else that is said about
them is said about the arguments themselves. -/
theorem Helper.argumentProblems_filter (h : Helper) (index : Nat) (args : List Argument) :
    (h.argumentProblems index args).filter q =
      args.flatMap fun arg => arg.diagnostics.filter q := by
  induction args generalizing index with
  | nil => rfl
  | cons arg rest ih =>
    have hnone : (h.typeProblems index arg).filter q = [] :=
      List.filter_eq_nil_iff.mpr fun d hd => by simp [hq d (kind_of_mem_typeProblems hd)]
    rw [argumentProblems, List.filter_append, List.filter_append, hnone, ih, List.append_nil,
      List.flatMap_cons]

theorem Helper.countProblems_filter (h : Helper) (span : Span) (count : Nat) :
    (h.countProblems span count).filter q = [] :=
  List.filter_eq_nil_iff.mpr fun d hd => by simp [hq d (kind_of_mem_countProblems hd)]

/-- **What is said about a call**, mismatches apart: that there is no such helper, and what is said
about the arguments. -/
theorem Analyzer.judge_filter (a : Analyzer) (span : Span) (name : String) (args : List Argument)
    (named : List Diagnostic) :
    (a.judge span name args named).2.filter q =
      (if Dict.contains name a.helpers then [] else [⟨.unknownHelper name, span⟩]).filter q ++
        (args.flatMap fun arg => arg.diagnostics.filter q) ++ named.filter q := by
  rw [judge, Dict.contains]
  cases Dict.get? name a.helpers with
  | none =>
    simp only [Option.isSome_none, Bool.false_eq_true, if_false]
    rw [← List.singleton_append, List.filter_append, List.filter_append, List.filter_flatMap]
  | some h =>
    simp only [Option.isSome_some, if_true]
    rw [List.filter_append, List.filter_append, Helper.countProblems_filter hq,
      Helper.argumentProblems_filter hq]
    rfl

end Filter

/-- What is said about a path that leads nowhere. -/
theorem Schema.kind_of_mem_follow {s : Schema} {segments : List String} {p : Path} {d : Diagnostic}
    (hd : d ∈ (s.follow segments p).2) : d.problem.kind = .unknownPath := by
  rw [follow] at hd
  split at hd
  · cases hd
  · rw [List.mem_singleton.mp hd]
    rfl

/-- What is said about a path is about the path, or about the side source that it selects. -/
theorem Declarations.kind_of_mem_resolve {decls : Declarations} {scopes : List Scope} {p : Path}
    {d : Diagnostic} (hd : d ∈ (decls.resolve scopes p).2) :
    d.problem.kind = .unknownPath ∨ d.problem.kind = .unknownIdentifier := by
  rw [resolve] at hd
  split at hd
  · rw [resolveVariable] at hd
    split at hd
    · cases hd
    · split at hd
      · exact .inl (Schema.kind_of_mem_follow hd)
      · split at hd
        · split at hd
          · exact .inl (Schema.kind_of_mem_follow hd)
          · rw [List.mem_singleton.mp hd]
            exact .inl rfl
        · rw [List.mem_singleton.mp hd]
          exact .inl rfl
  · simp only at hd
    split at hd
    · split at hd
      · exact .inl (Schema.kind_of_mem_follow hd)
      · rw [List.mem_singleton.mp hd]
        exact .inr rfl
    · split at hd
      · rw [List.mem_singleton.mp hd]
        exact .inl rfl
      · split at hd
        · exact .inl (Schema.kind_of_mem_follow hd)
        · cases hd

/-- What is said about the target of an iteration is that it is no array. -/
theorem Analyzer.kind_of_mem_elementScope {target : Expr} {s : Schema} {d : Diagnostic}
    (hd : d ∈ (elementScope target s).2) : d.problem.kind = .notAnArray := by
  unfold elementScope at hd
  split at hd
  · cases hd
  · split at hd
    all_goals rw [List.mem_singleton.mp hd]; rfl

end TypedTemplate
