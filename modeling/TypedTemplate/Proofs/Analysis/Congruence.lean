import TypedTemplate.Analysis.Inference
import TypedTemplate.Proofs.Program.Mentions
import TypedTemplate.Proofs.Program.Reading

/-!
# What an analysis depends on

The analysis looks at the data through its schema, at side sources where a path selects one, and at
helpers where one is called. Analyzers that agree there say the same of a program: they report the
same and infer the same schema.

* `Analyzer.AgreeOn`: two analyzers find the same at some calls and paths.
* `Analyzer.inferExpr_congr`, `Analyzer.enter_congr`: one tag.
* `Analyzer.inferStatement_congr`: from one tag to what is nested in a statement.
* **`Analyzer.analyze_congr`**: analyzers that agree on a program analyse it alike.
-/

namespace TypedTemplate

namespace Analyzer

variable {a a' : Analyzer} {scopes : List Scope}

/-- Two analyzers find the same data, the same helpers at some calls, and the same side sources
where some paths select one. -/
structure AgreeOn (calls : List CallSite) (paths : List Path) (a a' : Analyzer) : Prop where
  root : a.root = a'.root
  helpers : HelperSet.AgreeOn calls a.helpers a'.helpers
  side : SideTable.AgreeOn paths a.side a'.side

theorem AgreeOn.mono {calls calls' : List CallSite} {paths paths' : List Path}
    (h : AgreeOn calls paths a a') (hcalls : ∀ c ∈ calls', c ∈ calls)
    (hpaths : ∀ p ∈ paths', p ∈ paths) : AgreeOn calls' paths' a a' :=
  ⟨h.root, h.helpers.mono hcalls, h.side.mono hpaths⟩

/-! ## Expressions -/

/-- A path has the same schema for analyzers that find the same source where it selects one. -/
theorem resolve_congr {p : Path} (h : AgreeOn [] [p] a a') :
    a.resolve scopes p = a'.resolve scopes p := by
  unfold Declarations.resolve
  by_cases hdata : p.data = true
  · simp only [hdata, if_true, Declarations.resolveVariable, h.root]
  · rw [if_neg hdata, if_neg hdata]
    simp only
    cases hid : (extractIdentifier p.parts).2 with
    | none => rfl
    | some id =>
      have hsource := h.side.get? (by simpa using hdata) hid
      simp only [hsource]

theorem judge_congr {name : String} (hname : Dict.get? name a.helpers = Dict.get? name a'.helpers)
    (span : Span) (args : List Argument) (named : List Diagnostic) :
    a.judge span name args named = a'.judge span name args named := by
  unfold judge
  rw [hname]

theorem inferAll_congr {es : List Expr}
    (h : ∀ e ∈ es, a.inferExpr scopes e = a'.inferExpr scopes e) :
    a.inferAll scopes es = a'.inferAll scopes es := by
  induction es with
  | nil => rfl
  | cons e es ih =>
    rw [List.forall_mem_cons] at h
    rw [inferAll, inferAll, h.1, ih h.2]

theorem inferNamed_congr {es : List (String × Expr)}
    (h : ∀ e ∈ es, a.inferExpr scopes e.2 = a'.inferExpr scopes e.2) :
    a.inferNamed scopes es = a'.inferNamed scopes es := by
  induction es with
  | nil => rfl
  | cons e es ih =>
    rw [List.forall_mem_cons] at h
    rw [inferNamed, inferNamed, h.1, ih h.2]

/-- A call is judged alike where the helper and the arguments are the same. -/
theorem inferCall_congr {name : String}
    (hname : Dict.get? name a.helpers = Dict.get? name a'.helpers) {params : List Expr}
    {hash : List (String × Expr)}
    (hargs : ∀ e ∈ params ++ hash.map Prod.snd, a.inferExpr scopes e = a'.inferExpr scopes e)
    (span : Span) :
    a.inferCall scopes span name params hash = a'.inferCall scopes span name params hash := by
  rw [List.forall_mem_append] at hargs
  unfold inferCall
  rw [inferAll_congr hargs.1,
    inferNamed_congr fun e he => hargs.2 e.2 (List.mem_map_of_mem he), judge_congr hname]

/-- **An expression** has the same schema for analyzers that agree on it. -/
theorem inferExpr_congr {e : Expr} (h : AgreeOn e.calls e.paths a a') :
    a.inferExpr scopes e = a'.inferExpr scopes e := by
  induction e using Expr.induction with
  | path p => exact resolve_congr (h.mono (by simp) (by simp))
  | literal => rfl
  | call span name params hash ihParams ihHash =>
    refine inferCall_congr (h.helpers ⟨span, name⟩ (by simp)) (fun e he => ?_) span
    have hagree : AgreeOn e.calls e.paths a a' :=
      h.mono (fun _ => Expr.mem_calls_of_argument he) fun _ => Expr.mem_paths_of_argument he
    rcases List.mem_append.mp he with he | he
    · exact ihParams e he hagree
    · obtain ⟨named, hnamed, rfl⟩ := List.mem_map.mp he
      exact ihHash named hnamed hagree

/-! ## Tags -/

/-- An operand has the same schema for analyzers that agree on its statement. -/
theorem operand_congr {s : Statement} (h : AgreeOn s.calls s.paths a a') {e : Expr}
    (he : e ∈ s.operands) : a.inferExpr scopes e = a'.inferExpr scopes e :=
  inferExpr_congr (h.mono (fun _ => Statement.mem_calls_of_operand he)
    fun _ => Statement.mem_paths_of_operand he)

theorem inferExpression_congr {span : Span} {head : Expr} {params : List Expr}
    {hash : List (String × Expr)}
    (h : AgreeOn (Statement.expression span head params hash).calls
      (Statement.expression span head params hash).paths a a') :
    a.inferExpression scopes span head params hash =
      a'.inferExpression scopes span head params hash := by
  unfold inferExpression
  cases hname : helperName? head params hash with
  | none =>
    have hhead : head ∈ (Statement.expression span head params hash).operands := by
      simp [Statement.operands, hname]
    simp only [operand_congr h hhead]
  | some name =>
    have hargs : ∀ e ∈ params ++ hash.map Prod.snd,
        a.inferExpr scopes e = a'.inferExpr scopes e := by
      intro e he
      refine operand_congr h ?_
      simpa [Statement.operands, hname] using he
    have hcallee := h.helpers _ (Statement.mem_calls_of_callee hname)
    simp only [inferCall_congr hcallee hargs]

theorem enter_congr {span : Span} {kind : BlockKind} {params : List Expr}
    {hash : List (String × Expr)} {program : Program} {inverse : Option Program}
    (h : AgreeOn (Statement.block span kind params hash program inverse).calls
      (Statement.block span kind params hash program inverse).paths a a') :
    a.enter scopes span kind params hash = a'.enter scopes span kind params hash := by
  have hargs : ∀ e ∈ params ++ hash.map Prod.snd,
      a.inferExpr scopes e = a'.inferExpr scopes e := fun e he => operand_congr h he
  cases kind with
  | custom name =>
    have hcallee := h.helpers _ (Statement.mem_calls_of_callee rfl)
    simp only [enter, inferCall_congr hcallee hargs]
  | _ =>
    cases params with
    | nil => rfl
    | cons target rest => simp only [enter, hargs target List.mem_cons_self]

/-! ## Programs -/

theorem inferStatements_congr {p : Program}
    (h : ∀ s ∈ p, a.inferStatement scopes s = a'.inferStatement scopes s) :
    a.inferStatements scopes p = a'.inferStatements scopes p := by
  induction p with
  | nil => rfl
  | cons s p ih =>
    rw [List.forall_mem_cons] at h
    rw [inferStatements, inferStatements, h.1, ih h.2]

/-- **A statement** is analysed alike by analyzers that agree on it and on what is nested in it. -/
theorem inferStatement_congr {s : Statement} (h : ∀ t ∈ s.nested, AgreeOn t.calls t.paths a a') :
    a.inferStatement scopes s = a'.inferStatement scopes s := by
  induction s using Statement.induction generalizing scopes with
  | content => rfl
  | expression => exact inferExpression_congr (h _ (Statement.self_mem_nested _))
  | block span kind params hash program inverse ihProgram ihInverse =>
    obtain ⟨htag, hprogram, hinverse⟩ := Statement.forall_nested_block.mp h
    have hbody : ∀ scopes, a.inferStatements scopes program = a'.inferStatements scopes program :=
      fun scopes => inferStatements_congr fun s hs =>
        ihProgram s hs (Program.everywhere_iff.mp hprogram s hs)
    have hother : a.inferInverse scopes inverse = a'.inferInverse scopes inverse := by
      cases inverse with
      | none => rfl
      | some body =>
        have hstatements : a.inferStatements scopes body = a'.inferStatements scopes body :=
          inferStatements_congr fun s hs =>
            ihInverse body rfl s hs (Program.everywhere_iff.mp (hinverse body rfl) s hs)
        rw [inferInverse, inferInverse, hstatements]
    rw [inferStatement, inferStatement, enter_congr htag]
    simp only [hbody, hother]

/-- **Analyzers that agree on a program analyse it alike.** -/
theorem analyze_congr {p : Program} (h : AgreeOn p.calls p.paths a a') :
    analyze a p = analyze a' p := by
  have hall : p.Everywhere fun t => AgreeOn t.calls t.paths a a' := fun t ht =>
    h.mono (fun _ => Program.mem_calls_of_statement ht) fun _ => Program.mem_paths_of_statement ht
  have hstatements : ∀ scopes, a.inferStatements scopes p = a'.inferStatements scopes p :=
    fun scopes => inferStatements_congr fun s hs =>
      inferStatement_congr (Program.everywhere_iff.mp hall s hs)
  unfold analyze inferProgram
  rw [h.root, hstatements]

end Analyzer

end TypedTemplate
