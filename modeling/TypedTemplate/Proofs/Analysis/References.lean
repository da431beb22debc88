import TypedTemplate.Proofs.Analysis.PassThrough
import TypedTemplate.Proofs.Program.Mentions

/-!
# What a lone reference gives

A template that consists of a reference is executed without rendering: it gives what the reference
refers to in the data. The analysis infers the schema to which the reference leads. This file says
that the one is a value of the other, over unambiguous schemas and data that they allow, wherever
the analysis finds nothing wrong.

* `Statement.reference?_eq_some`: the statements that consist of a path.
* `execute_of_reference`, `inferStatement_of_reference`: what is given, and what is inferred.
* `resolveRoot_allows`: one path over the data.
* **`references_allowed`**: schema and data lead to the same places, and so a lone reference gives
  what its schema allows, or nothing.
-/

namespace TypedTemplate

/-! ## Lone references -/

/-- A statement that consists of a path calls no helper. -/
theorem Statement.reference?_eq_some {s : Statement} {p : Path} (h : s.reference? = some p) :
    ∃ span params hash, s = .expression span (.path p) params hash ∧
      helperName? (.path p) params hash = none ∧ s.isPlain = true := by
  unfold reference? at h
  split at h
  · next span q params hash =>
    split at h
    · cases h
    · next hno =>
      cases h
      exact ⟨span, params, hash, rfl, by simp [helperName?, hno], by simp [isPlain, hno]⟩
  · cases h

section References

variable {t : Template} {e : Statement} {p : Path}

/-- **A lone reference is executed to what it refers to**, whatever the helpers are. -/
theorem execute_of_reference (he : t.program.singleExpression? = some e)
    (hp : e.reference? = some p) (helpers : HelperSet) (side : SideTable Value) (data : Value) :
    Artifact.execute ⟨t, helpers⟩ side data = .ok (resolveRoot side data p) := by
  obtain ⟨span, params, hash, rfl, -, hplain⟩ := Statement.reference?_eq_some hp
  have htier : t.program.tier = .direct := by
    unfold Program.tier
    rw [he]
    exact if_pos hplain
  unfold Artifact.execute Program.execute Program.direct?
  rw [htier]
  simp only
  rw [he]
  rfl

/-- What is inferred for a reference is what is said about its path. -/
theorem inferStatement_of_reference (a : Analyzer) (scopes : List Scope)
    (hp : e.reference? = some p) :
    a.inferStatement scopes e = ((a.resolve scopes p).1.getD .any, (a.resolve scopes p).2) := by
  obtain ⟨span, params, hash, rfl, hname, -⟩ := Statement.reference?_eq_some hp
  rw [Analyzer.inferStatement, Analyzer.inferExpression, hname]
  rfl

/-- **The analysis of a lone reference** infers the schema of its path, and is valid only where
nothing is wrong with the path. -/
theorem analyze_of_reference (a : Analyzer) (he : t.program.singleExpression? = some e)
    (hp : e.reference? = some p) :
    (analyze a t.program).schema = (a.resolve [⟨some a.root, false⟩] p).1.getD .any ∧
      ((analyze a t.program).isValid = true →
        Harmless (a.resolve [⟨some a.root, false⟩] p).2) := by
  obtain ⟨hsig, -⟩ := significant_of_singleExpression? he
  constructor
  · show (a.inferProgram [⟨some a.root, false⟩] t.program).1 = _
    rw [a.inferProgram_of_significant _ hsig, inferStatement_of_reference a _ hp]
  · intro hvalid
    have hharmless := Analysis.isValid_iff.mp hvalid
    rw [Analyzer.analyze_diagnostics, harmless_flatMap] at hharmless
    have hmem : e ∈ t.program := mem_of_significant hsig
    have hstatement := hharmless e hmem
    rwa [inferStatement_of_reference a _ hp] at hstatement

end References

/-! ## Over unambiguous schemas -/

section Allowed

variable {s : Schema} {v : Value}

/-- **One path over the data**: where nothing is wrong with it, it refers to nothing or to what its
schema allows. A path to anything but the data, and one that leaves it, refers to nothing. -/
theorem resolveRoot_allows (hs : s.Unambiguous) (hv : s.Allows v) {p : Path}
    (hselector : p.selector? = none) (declared : SideTable Schema) (side : SideTable Value)
    (h : Harmless (Declarations.resolve ⟨declared, s⟩ [⟨some s, false⟩] p).2) :
    resolveRoot side v p = .undefined ∨
      ∃ found, (Declarations.resolve ⟨declared, s⟩ [⟨some s, false⟩] p).1 = some found ∧
        found.Allows (resolveRoot side v p) := by
  have hfollow {segments : List String} (hharmless : Harmless (s.follow segments p).2) :
      v.follow segments = .undefined ∨
        ∃ found, (s.follow segments p).1 = some found ∧ found.Allows (v.follow segments) := by
    obtain ⟨found, hwalk, hfound⟩ := s.walk_of_harmless hharmless
    rcases Schema.follow_allows hs hv hwalk with hnone | hallows
    · exact .inl hnone
    · exact .inr ⟨found, hfound, hallows⟩
  unfold Path.selector? at hselector
  unfold resolveRoot
  unfold Declarations.resolve at h ⊢
  by_cases hdepth : 0 < p.depth
  · exact .inl (if_pos hdepth)
  · rw [if_neg hdepth]
    by_cases hdata : p.data = true
    · rw [if_pos hdata] at h ⊢
      unfold Declarations.resolveVariable at h ⊢
      split
      · next rest hparts =>
        rw [hparts] at h ⊢
        rw [if_pos hdata]
        exact hfollow h
      · exact .inl rfl
    · rw [if_neg hdata] at h hselector ⊢
      have hzero : p.depth = 0 := by omega
      unfold resolveIn
      simp only [hselector, hzero, List.getElem?_cons_zero] at h ⊢
      rw [if_neg hdata]
      exact hfollow h

/-- **Schema and data lead to the same places.** Over an unambiguous schema and a value that it
allows, whatever the segments are, the schema at their end allows the value at their end. So a
template that consists of a reference to the data, and is valid over the schema, gives nothing or a
value that the inferred schema allows. -/
theorem references_allowed (hs : s.Unambiguous) (hv : s.Allows v) :
    (∀ segments found w, s.walk segments = .ok found → v.walk? segments = some w →
        found.Allows w) ∧
      ∀ (t : Template) (e : Statement) (p : Path) (a : Analyzer),
        t.program.singleExpression? = some e → e.reference? = some p → p.selector? = none →
        a.root = s → (analyze a t.program).isValid = true →
        ∀ (helpers : HelperSet) (side : SideTable Value),
          ∃ w, Artifact.execute ⟨t, helpers⟩ side v = .ok w ∧
            (w = .undefined ∨ (analyze a t.program).schema.Allows w) := by
  constructor
  · exact fun segments found w h hw => Schema.walk_allows hs hv h hw
  · intro t e p a he hp hselector hroot hvalid helpers side
    subst hroot
    obtain ⟨hschema, hharmless⟩ := analyze_of_reference a he hp
    refine ⟨_, execute_of_reference he hp helpers side v, ?_⟩
    rw [hschema]
    rcases resolveRoot_allows hs hv hselector a.side side (hharmless hvalid) with
      hnone | ⟨found, hfound, hallows⟩
    · exact .inl hnone
    · right
      have hfound' : (a.resolve [⟨some a.root, false⟩] p).1 = some found := hfound
      rw [hfound']
      exact hallows

end Allowed

/-! ## A ledger -/

/-- The rows of a ledger. -/
def ledgerRows : Schema :=
  .ofProperties [("rows", .arrayOf (.ofProperties [("total", .ofType .number)]))]

/-- The analysis of a ledger, whose rows are declared by a conjunct. -/
def ledgerAnalyzer : Analyzer where
  side := []
  root := { Schema.ofType .object with allOf := [ledgerRows] }
  helpers := []

/-- A ledger with one row. -/
def ledgerData : Value :=
  .object [("note", .null), ("rows", .array [.object [("total", .number (.uint 3))]])]

theorem plain_ledgerRows : ledgerRows.Plain := by
  refine Schema.plain_ofProperties (List.forall_mem_singleton.mpr ⟨by decide, ?_⟩)
  refine Schema.plain_arrayOf (Schema.plain_ofProperties (List.forall_mem_singleton.mpr ?_))
  exact ⟨by decide, Schema.plain_ofType (by decide)⟩

theorem complete_ledgerRows : ledgerRows.Complete ledgerData := by
  refine Schema.complete_ofProperties (List.forall_mem_singleton.mpr ⟨_, rfl, ?_⟩)
  refine Schema.complete_arrayOf (List.forall_mem_singleton.mpr ?_)
  refine Schema.complete_ofProperties (List.forall_mem_singleton.mpr ⟨_, rfl, ?_⟩)
  exact Schema.complete_ofType (.inr ⟨rfl, rfl⟩)

theorem unambiguous_ledger : ledgerAnalyzer.root.Unambiguous :=
  .intro .object rfl rfl rfl (fun _ hp => absurd hp List.not_mem_nil)
    (fun _ hp => absurd hp List.not_mem_nil) (fun _ hi => by cases hi)
    (List.forall_mem_singleton.mpr plain_ledgerRows.unambiguous)

theorem allows_ledger : ledgerAnalyzer.root.Allows ledgerData :=
  .intro (fun tag htag => by cases htag; exact Value.hasOneOf_single.mpr (.inl rfl))
    (fun _ _ hi => by cases hi) (fun _ _ _ _ hp => by cases hp)
    (List.forall_mem_singleton.mpr (complete_ledgerRows.allows plain_ledgerRows))

/-- The total of the first row is there, and a number. -/
theorem ledger_allowed :
    ∃ t w, Template.read ⟨"total", " {{./rows.0.total}} "⟩ = .ok t ∧
      Artifact.execute ⟨t, []⟩ [] ledgerData = .ok w ∧ w.isUndefined = false ∧
      (analyze ledgerAnalyzer t.program).schema.category? = some .number ∧
      (analyze ledgerAnalyzer t.program).schema.Allows w := by
  have hread : ∃ t, Template.read ⟨"total", " {{./rows.0.total}} "⟩ = .ok t ∧
      decide (∃ e ∈ t.program.singleExpression?, ∃ p ∈ e.reference?,
        p.selector? = none ∧ (analyze ledgerAnalyzer t.program).isValid = true ∧
          (analyze ledgerAnalyzer t.program).schema.category? = some .number ∧
          (resolveRoot [] ledgerData p).isUndefined = false) = true :=
    exists_eq_ok (by decide +kernel)
  obtain ⟨t, ht, hchecked⟩ := hread
  obtain ⟨e, he, p, hp, hselector, hvalid, hkind, hdefined⟩ := of_decide_eq_true hchecked
  obtain ⟨w, hw, hallowed⟩ := (references_allowed unambiguous_ledger allows_ledger).2 t e p
    ledgerAnalyzer he hp hselector rfl hvalid [] []
  obtain rfl : resolveRoot [] ledgerData p = w :=
    Except.ok.inj ((execute_of_reference he hp [] [] ledgerData).symm.trans hw)
  refine ⟨t, _, ht, hw, hdefined, hkind, ?_⟩
  rcases hallowed with hnone | hallows
  · rw [hnone] at hdefined
    cases hdefined
  · exact hallows

end TypedTemplate
