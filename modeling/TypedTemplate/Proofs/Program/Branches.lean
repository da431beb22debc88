import TypedTemplate.Program.Shape
import TypedTemplate.Proofs.Program.Reading

/-!
# Lone blocks and their branches

Blanks around a block do not keep it from being all that a program is in effect. A conditional
block renders one of its bodies, and a body may be a lone conditional block again, so what a
program may come down to is found by going from body to body.

* `significant_of_singleBlock?`, `Program.shape_of_singleBlock?`: a program with a lone block.
* `Statement.bodies`: the bodies of a conditional block.
* `Program.branches`: the bodies of the conditional blocks of a program, at any depth.
* `Program.forall_branches`: from the branches of a lone conditional block to those of its bodies.
* `Program.Everywhere.of_mem_branches`: what holds everywhere holds in the branches.
-/

namespace TypedTemplate

/-! ## Lone blocks -/

/-- A lone block is the only significant statement. -/
theorem significant_of_singleBlock? {p : Program} {s : Statement} (h : p.singleBlock? = some s) :
    p.significant = [s] := by
  rw [Program.singleBlock?] at h
  split at h
  · next hsig =>
    cases h
    exact hsig
  · cases h

theorem mem_of_significant {p : Program} {s : Statement} (h : p.significant = [s]) : s ∈ p := by
  have hmem : s ∈ p.significant := h ▸ List.mem_cons_self
  exact (List.mem_filter.mp hmem).1

/-- Where there is a block, there is more than text. -/
theorem Program.pureText?_eq_none {p : Program} {span : Span} {kind : BlockKind}
    {params : List Expr} {hash : List (String × Expr)} {program : Program}
    {inverse : Option Program} (h : .block span kind params hash program inverse ∈ p) :
    p.pureText? = none := by
  induction p with
  | nil => cases h
  | cons s rest ih =>
    cases s with
    | expression => rfl
    | block => rfl
    | content =>
      rcases List.mem_cons.mp h with heq | hrest
      · cases heq
      · rw [pureText?, ih hrest]
        rfl

/-- A program with a lone block has no text of its own, and is no lone expression. -/
theorem Program.shape_of_singleBlock? {p : Program} {s : Statement}
    (h : p.singleBlock? = some s) : p.pureText? = none ∧ p.singleExpression? = none := by
  have hsig := significant_of_singleBlock? h
  have hmem := mem_of_significant hsig
  unfold singleBlock? at h
  rw [hsig] at h
  cases s with
  | content => cases h
  | expression => cases h
  | block =>
    constructor
    · exact pureText?_eq_none hmem
    · unfold singleExpression?
      rw [hsig]

theorem Statement.exists_of_isConditional {s : Statement} (h : s.isConditional = true) :
    ∃ span kind params hash program inverse, s = .block span kind params hash program inverse ∧
      (kind = .whenTrue ∨ kind = .whenFalse) := by
  cases s with
  | content => cases h
  | expression => cases h
  | block span kind params hash program inverse =>
    refine ⟨span, kind, params, hash, program, inverse, rfl, ?_⟩
    cases kind with
    | whenTrue => exact .inl rfl
    | whenFalse => exact .inr rfl
    | forEach => cases h
    | inside => cases h
    | custom => cases h

/-! ## Branches -/

namespace Statement

/-- The bodies of a conditional block. -/
def bodies : Statement → List Program
  | .block _ .whenTrue _ _ program inverse => program :: inverse.toList
  | .block _ .whenFalse _ _ program inverse => program :: inverse.toList
  | _ => []

mutual

/-- The bodies of a conditional block, and the branches in each of them. -/
def branches : Statement → List Program
  | .block _ .whenTrue _ _ program inverse =>
    program :: branchesIn program ++ branchesInInverse inverse
  | .block _ .whenFalse _ _ program inverse =>
    program :: branchesIn program ++ branchesInInverse inverse
  | _ => []
termination_by structural s => s

/-- The branches of statements. -/
def branchesIn : List Statement → List Program
  | [] => []
  | s :: rest => branches s ++ branchesIn rest
termination_by structural p => p

/-- An alternative, and the branches in it. -/
def branchesInInverse : Option (List Statement) → List Program
  | none => []
  | some program => program :: branchesIn program
termination_by structural p => p

end

end Statement

/-- **The branches of a program**: the bodies of its conditional blocks, and the branches of those
bodies. -/
def Program.branches (p : Program) : List Program := p.flatMap Statement.branches

theorem Statement.branchesIn_eq (p : Program) : branchesIn p = p.branches := by
  induction p with
  | nil => rfl
  | cons s rest ih => rw [branchesIn, ih, Program.branches, Program.branches, List.flatMap_cons]

theorem Statement.branches_eq (s : Statement) :
    s.branches = s.bodies.flatMap fun b => b :: b.branches := by
  cases s with
  | content => rfl
  | expression => rfl
  | block span kind params hash program inverse =>
    cases kind with
    | whenTrue => cases inverse <;> simp [branches, bodies, branchesInInverse, branchesIn_eq]
    | whenFalse => cases inverse <;> simp [branches, bodies, branchesInInverse, branchesIn_eq]
    | forEach => rfl
    | inside => rfl
    | custom => rfl

theorem Statement.mem_bodies {span : Span} {kind : BlockKind} {params : List Expr}
    {hash : List (String × Expr)} {program b : Program} {inverse : Option Program}
    (h : b ∈ (Statement.block span kind params hash program inverse).bodies) :
    b = program ∨ inverse = some b := by
  have hlist : b ∈ program :: inverse.toList := by
    cases kind with
    | whenTrue => exact h
    | whenFalse => exact h
    | forEach => cases h
    | inside => cases h
    | custom => cases h
  rcases List.mem_cons.mp hlist with rfl | hother
  · exact .inl rfl
  · exact .inr (Option.mem_toList.mp hother)

/-- What holds of all branches of a lone conditional block holds of its bodies, and of their
branches. -/
theorem Program.forall_branches {p : Program} {span : Span} {kind : BlockKind} {params : List Expr}
    {hash : List (String × Expr)} {program inverse : Program}
    (hsig : p.significant = [.block span kind params hash program (some inverse)])
    (hkind : kind = .whenTrue ∨ kind = .whenFalse) {P : Program → Prop} (h : ∀ q ∈ p.branches, P q)
    {b : Program} (hb : b ∈ [program, inverse]) : ∀ q ∈ b :: b.branches, P q := by
  intro q hq
  refine h q (List.mem_flatMap.mpr ⟨_, mem_of_significant hsig, ?_⟩)
  rw [Statement.branches_eq]
  refine List.mem_flatMap.mpr ⟨b, ?_, hq⟩
  rcases hkind with rfl | rfl
  · exact hb
  · exact hb

/-- **What holds of the statements of a program at every level holds of those of its branches.** -/
theorem Program.Everywhere.of_mem_branches {S : Statement → Prop} {p : Program}
    (h : p.Everywhere S) : ∀ q ∈ p.branches, q.Everywhere S := by
  have hstatement : ∀ s : Statement, (∀ t ∈ s.nested, S t) → ∀ q ∈ s.branches, q.Everywhere S := by
    intro s
    induction s using Statement.induction with
    | content => exact fun _ q hq => absurd hq List.not_mem_nil
    | expression => exact fun _ q hq => absurd hq List.not_mem_nil
    | block span kind params hash program inverse ihProgram ihInverse =>
      intro hs q hq
      obtain ⟨-, hprogram, hinverse⟩ := Statement.forall_nested_block.mp hs
      rw [Statement.branches_eq] at hq
      obtain ⟨b, hb, hq⟩ := List.mem_flatMap.mp hq
      have hbody : b.Everywhere S ∧ ∀ s ∈ b, (∀ t ∈ s.nested, S t) →
          ∀ q ∈ s.branches, q.Everywhere S := by
        rcases Statement.mem_bodies hb with rfl | hother
        · exact ⟨hprogram, ihProgram⟩
        · exact ⟨hinverse b hother, ihInverse b hother⟩
      rcases List.mem_cons.mp hq with rfl | hq
      · exact hbody.1
      · obtain ⟨s, hs, hq⟩ := List.mem_flatMap.mp hq
        exact hbody.2 s hs (everywhere_iff.mp hbody.1 s hs) q hq
  intro q hq
  obtain ⟨s, hs, hq⟩ := List.mem_flatMap.mp hq
  exact hstatement s (everywhere_iff.mp h s hs) q hq

end TypedTemplate
