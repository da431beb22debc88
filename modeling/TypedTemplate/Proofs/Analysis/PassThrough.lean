import TypedTemplate.Proofs.Analysis.Conditionals
import TypedTemplate.Proofs.Analysis.Scopes
import TypedTemplate.Proofs.Analysis.Simple
import TypedTemplate.Proofs.Program.Canonical

/-!
# What blocks over a context pass through

The body of a lone block `with` is inferred like a branch, in the scope of its target, and the
block is taken to produce what its body does. This file says when it does. The analysis alone does
not tell: an array may be shorter than an index in a path, a path may leave all contexts before it
selects a side source, a helper may fail or answer something else than it declares, and a body is
not rendered at all where the target is not true.

* `Environment.start?`, `Environment.inRange`: where a path starts, and that it stays in arrays.
* `Declarations.Simple`, `Declarations.Fits`, `Scope.Fits`: schemas are simple, and values fit them.
* `resolve_fits`: over simple schemas and data that fits, a path that has a schema has a value that
  fits, if it starts somewhere and no index is out of range.
* `finiteLiterals_of_read`: numbers that are written in a template are finite.
* `Settled`: what is asked of a body, besides schema and data; `Settled.reliable` and
  `Settled.renderable` are what follows for its rendering.
* **`inside_isOf`**: over a true target, a lone block without an alternative is executed to a scalar
  of the inferred kind.
* `inside_not_isOf`: the conditions are needed.
-/

namespace TypedTemplate

/-! ## Where paths start -/

namespace Environment

variable (env : Environment)

/-- The value that a path starts from, and the segments along which it goes. -/
def start? (frames : List Frame) (path : Path) : Option (Value × List String) :=
  if path.data then
    match path.parts with
    | [] => none
    | name :: rest => some (env.lookup frames name, rest)
  else
    match frames[path.depth]? with
    | none => none
    | some frame =>
      match (extractIdentifier path.parts).2 with
      | none => some (frame.context, (extractIdentifier path.parts).1)
      | some id => (env.side.get? id).map (·, (extractIdentifier path.parts).1)

/-- The path starts from a value, and no index along it is past the end of an array. -/
def inRange (frames : List Frame) (path : Path) : Bool :=
  (env.start? frames path).any fun start => start.1.inRange start.2

/-- A path refers to what lies at the end of its segments, and to nothing if it does not start. -/
theorem resolve_eq (frames : List Frame) (path : Path) :
    env.resolve frames path =
      ((env.start? frames path).map fun start => start.1.follow start.2).getD .undefined := by
  unfold start? resolve
  by_cases hdata : path.data = true
  · rw [if_pos hdata, if_pos hdata]
    cases path.parts <;> rfl
  · rw [if_neg hdata, if_neg hdata]
    cases frames[path.depth]? with
    | none => rfl
    | some frame =>
      simp only [resolveIn]
      cases (extractIdentifier path.parts).2 with
      | none => rfl
      | some id =>
        simp only
        cases env.side.get? id <;> rfl

end Environment

/-! ## Scopes of simple schemas -/

/-- The schemas of the data and of the side sources are simple. -/
structure Declarations.Simple (d : Declarations) : Prop where
  root : d.root.Simple
  side : ∀ id s, d.side.get? id = some s → s.Simple

/-- The data fits its schema, and so does a side source for each that has a schema. -/
structure Declarations.Fits (d : Declarations) (env : Environment) : Prop where
  root : d.root.Fits env.root
  side : ∀ id s, d.side.get? id = some s → ∃ v, env.side.get? id = some v ∧ s.Fits v

/-- The schema of a scope is simple, and the context beside it fits. -/
structure Scope.Fits (scope : Scope) (frame : Frame) : Prop where
  schema : ∀ s, scope.schema = some s → s.Simple ∧ s.Fits frame.context
  iterating : scope.iterating = false

theorem Schema.walk_of_follow {s found : Schema} {segments : List String} {p : Path}
    (h : (s.follow segments p).1 = some found) : s.walk segments = .ok found := by
  unfold follow at h
  split at h
  · next hwalk =>
    cases h
    exact hwalk
  · cases h

section Paths

variable {d : Declarations} {env : Environment} {scopes : List Scope} {frames : List Frame}

theorem not_iterating_of_fits (hstack : List.Forall₂ Scope.Fits scopes frames) :
    scopes.any Scope.iterating = false := by
  induction hstack with
  | nil => rfl
  | cons hfits _ ih => rw [List.any_cons, hfits.iterating, ih, Bool.or_false]

/-- Where a path has a schema and starts from a value, the value fits a schema from which its
segments lead to it. -/
theorem fits_of_start? (hd : d.Simple) (hdata : d.Fits env)
    (hstack : List.Forall₂ Scope.Fits scopes frames) {p : Path} {found : Schema}
    (h : (d.resolve scopes p).1 = some found) {v : Value} {segments : List String}
    (hstart : env.start? frames p = some (v, segments)) :
    ∃ s : Schema, s.Simple ∧ s.Fits v ∧ s.walk segments = .ok found := by
  unfold Declarations.resolve at h
  unfold Environment.start? at hstart
  by_cases hvariable : p.data = true
  · rw [if_pos hvariable] at h hstart
    unfold Declarations.resolveVariable at h
    cases hparts : p.parts with
    | nil =>
      rw [hparts] at h
      cases h
    | cons name rest =>
      rw [hparts] at h hstart
      cases hstart
      simp only at h
      -- A block over a context is no iteration, so the data is the only variable.
      by_cases hname : name = "root"
      · subst hname
        exact ⟨d.root, hd.root, hdata.root, Schema.walk_of_follow h⟩
      · rw [if_neg hname, not_iterating_of_fits hstack] at h
        cases hiteration : iterationSchema? name with
        | none =>
          rw [hiteration] at h
          cases h
        | some s =>
          rw [hiteration] at h
          cases h
  · rw [if_neg hvariable] at h hstart
    simp only at h
    cases hframe : frames[p.depth]? with
    | none =>
      rw [hframe] at hstart
      cases hstart
    | some frame =>
      rw [hframe] at hstart
      simp only at hstart
      cases hid : (extractIdentifier p.parts).2 with
      | some id =>
        rw [hid] at h hstart
        simp only at h hstart
        cases hsource : d.side.get? id with
        | none =>
          rw [hsource] at h
          cases h
        | some s =>
          rw [hsource] at h
          obtain ⟨w, hw, hfits⟩ := hdata.side id s hsource
          rw [hw] at hstart
          cases hstart
          exact ⟨s, hd.side id s hsource, hfits, Schema.walk_of_follow h⟩
      | none =>
        rw [hid] at h hstart
        cases hstart
        simp only at h
        cases hscope : scopes[p.depth]? with
        | none =>
          rw [hscope] at h
          cases h
        | some scope =>
          rw [hscope] at h
          simp only at h
          obtain ⟨beside, hbeside, hfits⟩ := exists_frame hstack hscope
          obtain rfl : frame = beside := Option.some.inj (hframe.symm.trans hbeside)
          cases hschema : scope.schema with
          | none =>
            rw [hschema] at h
            cases h
          | some s =>
            rw [hschema] at h
            obtain ⟨hsimple, hcontext⟩ := hfits.schema s hschema
            exact ⟨s, hsimple, hcontext, Schema.walk_of_follow h⟩

/-- **One path**: where it has a schema, its value fits if there is one, and there is one if the
path starts from a value and no index is out of range. -/
theorem resolve_fits (hd : d.Simple) (hdata : d.Fits env)
    (hstack : List.Forall₂ Scope.Fits scopes frames) {p : Path} {found : Schema}
    (h : (d.resolve scopes p).1 = some found) :
    (env.resolve frames p ≠ .undefined → found.Simple ∧ found.Fits (env.resolve frames p)) ∧
      (env.inRange frames p = true → env.resolve frames p ≠ .undefined) := by
  rw [env.resolve_eq, Environment.inRange]
  cases hstart : env.start? frames p with
  | none => exact ⟨fun hdefined => absurd rfl hdefined, fun hrange => by cases hrange⟩
  | some start =>
    obtain ⟨s, hsimple, hfits, hwalk⟩ := fits_of_start? hd hdata hstack h hstart
    exact Schema.follow_fits hsimple hfits hwalk

end Paths

/-! ## Literals -/

/-- The expression is no number, or a finite one. -/
def Expr.IsFinite (e : Expr) : Prop := ∀ span n, e = .literal span (.number n) → n.IsFinite

/-- The numbers that are written in the tag of a statement are finite. -/
def Statement.FiniteLiterals (s : Statement) : Prop :=
  ∀ e ∈ s.exprs, ∀ x ∈ e.parts, x.IsFinite

theorem Expr.isFinite_of_ofToken {t : Token} {e : Expr} (h : ofToken t = .ok e) : e.IsFinite := by
  intro span n heq
  subst heq
  exact isLiteral_of_ofToken h

/-- **The numbers that are written in a template are finite.** -/
theorem finiteLiterals_of_read {source : Source} {t : Template} (h : Template.read source = .ok t) :
    t.program.Everywhere Statement.FiniteLiterals :=
  readProgram_forall
    (readsAs_parts (fun _ _ h => Expr.isFinite_of_ofToken h) (fun _ _ _ _ _ _ heq => by cases heq))
    (Template.read_eq_ok h).2

/-! ## Lone references and literals -/

/-- The path that a statement consists of. -/
def Statement.reference? : Statement → Option Path
  | .expression _ (.path p) params hash =>
    if isHelperCall (.path p) params hash then none else some p
  | _ => none

/-- **What is asked of a body**, over schemas and data that fit: numbers in its text can be read,
its path stays inside arrays and leads to no number that is not finite, and the helpers that it
calls answer, with a value of the type that was inferred if the body consists of the call. -/
structure Settled (a : Analyzer) (r : Renderer) (scopes : List Scope) (frames : List Frame)
    (p : Program) : Prop where
  numbers : p.ReadsNumber
  inRange : ∀ s q, p.singleExpression? = some s → s.reference? = some q →
    r.inRange frames q = true
  finite : ∀ s q n, p.singleExpression? = some s → s.reference? = some q →
    r.resolve frames q = .number n → n.IsFinite
  answers : ∀ s, p.singleExpression? = some s → s.isPlain = false →
    (r.valueOf frames s).isOk = true
  typed : ∀ c s v, a.contribution scopes p = .typed c → p.singleExpression? = some s →
    s.isPlain = false → r.valueOf frames s = .ok v → v.Shows c
  decides : ∀ s, p.singleBlock? = some s → (r.deciderOf frames s).isOk = true

/-- A statement that calls no helper has the value and the schema of its path or literal. -/
theorem plain_cases (a : Analyzer) (r : Renderer) (scopes : List Scope) (frames : List Frame)
    {span : Span} {head : Expr} {params : List Expr} {hash : List (String × Expr)}
    (hplain : (Statement.expression span head params hash).isPlain = true) :
    (∃ p, (Statement.expression span head params hash).reference? = some p ∧
      r.valueOf frames (.expression span head params hash) = .ok (r.resolve frames p) ∧
      (a.inferStatement scopes (.expression span head params hash)).1 =
        (a.resolve scopes p).1.getD .any) ∨
    ∃ at' v, head = .literal at' v ∧
      r.valueOf frames (.expression span head params hash) = .ok v ∧
      (a.inferStatement scopes (.expression span head params hash)).1 = .ofValue v := by
  have hno : isHelperCall head params hash = false := by simpa [Statement.isPlain] using hplain
  obtain ⟨-, -, hcall⟩ := eq_nil_of_not_isHelperCall hno
  have hname : helperName? head params hash = none := by
    cases head <;> simp [helperName?, hno]
  have hvalue : r.valueOf frames (.expression span head params hash) = r.evaluate frames head := by
    rw [Renderer.valueOf, Renderer.evaluateStatement, hname]
  have hschema : (a.inferStatement scopes (.expression span head params hash)).1 =
      (a.inferExpr scopes head).1.getD .any := by
    rw [Analyzer.inferStatement, Analyzer.inferExpression, hname]
  rw [hvalue, hschema]
  cases head with
  | path p => exact .inl ⟨p, by simp [Statement.reference?, hno], rfl, rfl⟩
  | literal at' v => exact .inr ⟨at', v, rfl, rfl, rfl⟩
  | call => cases hcall

/-- A literal of numbers or booleans is a number or a boolean. -/
theorem shows_of_ofValue {v : Value} {c : Literal.Category}
    (hc : (Schema.ofValue v).category? = some c) (hnull : c ≠ .null)
    (hfinite : ∀ n, v = .number n → n.IsFinite) : v.Shows c := by
  unfold Schema.ofValue at hc
  split at hc
  · next t ht =>
    exact (Schema.fits_ofType (.inl ht)).shows (Schema.simple_ofType t) hc hnull hfinite
  · cases hc

section Settled

variable {a : Analyzer} {r : Renderer} {scopes : List Scope} {frames : List Frame} {p : Program}

instance : Decidable (Settled a r scopes frames p) :=
  decidable_of_iff
    (p.ReadsNumber ∧
      (∀ s ∈ p.singleExpression?,
        (∀ q ∈ s.reference?, r.inRange frames q = true ∧
          ∀ n ∈ (r.resolve frames q).number?, n.IsFinite) ∧
        (s.isPlain = false → (r.valueOf frames s).isOk = true ∧
          ∀ c ∈ (a.contribution scopes p).typed?, ∀ v ∈ (r.valueOf frames s).toOption, v.Shows c)) ∧
      ∀ s ∈ p.singleBlock?, (r.deciderOf frames s).isOk = true) <| by
    constructor
    · rintro ⟨hnumbers, hexpression, hdecides⟩
      constructor
      · exact hnumbers
      · exact fun s q hs hq => ((hexpression s hs).1 q hq).1
      · exact fun s q n hs hq hn => ((hexpression s hs).1 q hq).2 n (Value.number?_eq_some.mpr hn)
      · exact fun s hs hplain => ((hexpression s hs).2 hplain).1
      · intro c s v hc hs hplain hv
        refine ((hexpression s hs).2 hplain).2 c ?_ v ?_
        · exact Branch.typed?_eq_some.mpr hc
        · exact toOption_eq_some.mpr hv
      · exact hdecides
    · intro h
      refine ⟨h.numbers, fun s hs => ⟨fun q hq => ⟨h.inRange s q hs hq, ?_⟩, ?_⟩, h.decides⟩
      · exact fun n hn => h.finite s q n hs hq (Value.number?_eq_some.mp hn)
      · intro hplain
        refine ⟨h.answers s hs hplain, fun c hc v hv => h.typed c s v ?_ hs hplain ?_⟩
        · exact Branch.typed?_eq_some.mp hc
        · exact toOption_eq_some.mp hv

/-- A body that is settled has a value of the type that is inferred for its expression. -/
theorem Settled.reliable (hp : Settled a r scopes frames p) (ha : a.Simple)
    (hdata : a.Fits r.toEnvironment) (hstack : List.Forall₂ Scope.Fits scopes frames)
    (hliterals : p.Everywhere Statement.FiniteLiterals) : Reliable a r scopes frames p := by
  refine ⟨hp.numbers, ?_⟩
  intro c s v htyped hsingle hv
  by_cases hplain : s.isPlain = true
  · obtain ⟨hkind, hnull⟩ := a.category?_of_contribution_typed scopes htyped hsingle
    obtain ⟨hsig, span, head, params, hash, rfl⟩ := significant_of_singleExpression? hsingle
    obtain ⟨q, hq, hvalue, hschema⟩ | ⟨at', u, rfl, hvalue, hschema⟩ :=
      plain_cases a r scopes frames hplain
    · rw [hschema] at hkind
      cases hfound : (a.resolve scopes q).1 with
      | none =>
        rw [hfound] at hkind
        cases hkind
      | some found =>
        rw [hfound] at hkind
        obtain ⟨hfits, hdefined⟩ := resolve_fits ha hdata hstack hfound
        obtain ⟨hsimple, hvalueFits⟩ := hfits (hdefined (hp.inRange _ q hsingle hq))
        obtain rfl : r.resolve frames q = v := Except.ok.inj (hvalue.symm.trans hv)
        exact hvalueFits.shows hsimple hkind hnull fun n => hp.finite _ q n hsingle hq
    · rw [hschema] at hkind
      obtain rfl : u = v := Except.ok.inj (hvalue.symm.trans hv)
      refine shows_of_ofValue hkind hnull ?_
      rintro n rfl
      have hwritten := hliterals.of_mem _ (mem_of_significant hsig) _ List.mem_cons_self
      exact hwritten _ List.mem_cons_self at' n rfl
  · exact hp.typed c s v htyped hsingle (Bool.eq_false_iff.mpr hplain) hv

/-- A body that is settled can be rendered. -/
theorem Settled.renderable (hp : Settled a r scopes frames p) : Renderable r frames p := by
  refine ⟨?_, hp.decides⟩
  intro s hsingle
  by_cases hplain : s.isPlain = true
  · obtain ⟨-, span, head, params, hash, rfl⟩ := significant_of_singleExpression? hsingle
    obtain ⟨q, -, hvalue, -⟩ | ⟨at', u, -, hvalue, -⟩ := plain_cases a r scopes frames hplain
    · rw [hvalue]
      rfl
    · rw [hvalue]
      rfl
  · exact hp.answers s hsingle (Bool.eq_false_iff.mpr hplain)

end Settled

/-! ## Passing through -/

/-- The target and the body, where a program is a lone block over a path that changes the context
and has no alternative. -/
def Program.inside? (p : Program) : Option (Path × Program) :=
  match p.singleBlock? with
  | some (.block _ .inside [.path target] _ body none) => some (target, body)
  | _ => none

theorem Program.singleBlock?_of_inside? {p : Program} {target : Path} {body : Program}
    (h : p.inside? = some (target, body)) :
    ∃ span hash, p.singleBlock? = some (.block span .inside [.path target] hash body none) := by
  unfold inside? at h
  split at h
  · next span target hash body hblock =>
    cases h
    exact ⟨span, hash, hblock⟩
  · cases h

/-- The scopes of the body of a block over a path. -/
def Analyzer.scopesInside (a : Analyzer) (target : Path) : List Scope :=
  [⟨(a.resolve [⟨some a.root, false⟩] target).1, false⟩, ⟨some a.root, false⟩]

/-- The contexts of the body of a block over a path. -/
def Environment.framesInside (env : Environment) (target : Path) : List Frame :=
  [⟨env.resolve [⟨env.root, none⟩] target, none⟩, ⟨env.root, none⟩]

/-- The block has the kind that its body contributes. -/
theorem category?_of_inside (a : Analyzer) (span : Span) (target : Path)
    (hash : List (String × Expr)) (body : Program) :
    (a.inferStatement [⟨some a.root, false⟩]
        (.block span .inside [.path target] hash body none)).1.category? =
      (a.contribution (a.scopesInside target) body).category? :=
  Branch.category?_schemaOf _

/-- Over a true target, the block renders its body in it. -/
theorem renderStatement_inside (r : Renderer) (span : Span) {target : Path}
    (hash : List (String × Expr)) (body : Program)
    (h : (r.resolve [⟨r.root, none⟩] target).isTruthy = true) :
    r.renderStatement [⟨r.root, none⟩] (.block span .inside [.path target] hash body none) =
      r.renderProgram (r.framesInside target) body := by
  have hdecider : r.decider [⟨r.root, none⟩] span .inside [.path target] hash =
      .ok (r.resolve [⟨r.root, none⟩] target) := rfl
  exact r.renderStatement_of_branch? _ (Renderer.branch?_of_bodies hdecider (if_pos h) body none)

/-- Over a true target, the scopes inside a block are simple, and the contexts fit them. -/
theorem fits_inside {a : Analyzer} {env : Environment} (ha : a.Simple) (hdata : a.Fits env)
    {target : Path}
    (h : (env.resolve [⟨env.root, none⟩] target).isTruthy = true) :
    List.Forall₂ Scope.Fits (a.scopesInside target) (env.framesInside target) := by
  have houter : List.Forall₂ Scope.Fits [⟨some a.root, false⟩] [⟨env.root, none⟩] := by
    refine .cons ⟨?_, rfl⟩ .nil
    intro s hs
    cases hs
    exact ⟨ha.root, hdata.root⟩
  refine .cons ⟨?_, rfl⟩ houter
  intro s hs
  refine (resolve_fits ha hdata houter hs).1 ?_
  intro hundefined
  rw [hundefined] at h
  cases h

/-- **What a lone block over a path is inferred to pass through, it passes through.** Over simple
schemas and data that fits, where the target is true and the body and its branches are settled, the
block is executed to a scalar of the inferred kind. -/
theorem inside_isOf {source : Source} {t : Template} (ht : Template.read source = .ok t)
    {target : Path} {body : Program} (hinside : t.program.inside? = some (target, body))
    {a : Analyzer} (ha : a.Simple) {side : SideTable Value} {data : Value}
    (hdata : a.Fits ⟨side, data⟩) {c : Literal.Category}
    (hc : (analyze a t.program).schema.category? = some c)
    (htrue : (Environment.resolve ⟨side, data⟩ [⟨data, none⟩] target).isTruthy = true)
    (hsettled : ∀ q ∈ body :: body.branches,
      Settled a ⟨⟨side, data⟩, a.helpers⟩ (a.scopesInside target)
        (Environment.framesInside ⟨side, data⟩ target) q) :
    ∃ v, Artifact.execute ⟨t, a.helpers⟩ side data = .ok v ∧ v.IsOf c := by
  obtain ⟨span, hash, hblock⟩ := Program.singleBlock?_of_inside? hinside
  have hsig := significant_of_singleBlock? hblock
  have hstack : List.Forall₂ Scope.Fits (a.scopesInside target)
      (Environment.framesInside ⟨side, data⟩ target) := fits_inside ha hdata htrue
  have hcontribution : (a.contribution (a.scopesInside target) body).category? = some c := by
    rw [← category?_of_inside a span target hash body,
      ← a.inferProgram_of_significant [⟨some a.root, false⟩] hsig]
    exact hc
  have hliterals : ∀ q ∈ body :: body.branches, q.Everywhere Statement.FiniteLiterals := by
    have hall := Program.everywhere_iff.mp (finiteLiterals_of_read ht) _ (mem_of_significant hsig)
    obtain ⟨-, hbody, -⟩ := Statement.forall_nested_block.mp hall
    exact List.forall_mem_cons.mpr ⟨hbody, hbody.of_mem_branches⟩
  obtain ⟨inner, hinner⟩ :=
    exists_text_of_contribution hcontribution fun q hq => (hsettled q hq).renderable
  have hspells := spells_of_contribution hcontribution
    (fun q hq => (hsettled q hq).reliable ha hdata hstack (hliterals q hq)) hinner
  obtain ⟨before, after, hbefore, hafter, hrender⟩ :=
    Renderer.renderProgram_of_significant ⟨⟨side, data⟩, a.helpers⟩ [⟨data, none⟩] hsig
  rw [renderStatement_inside ⟨⟨side, data⟩, a.helpers⟩ span hash body htrue, hinner] at hrender
  rw [execute_of_singleBlock? hblock, hrender]
  refine ⟨_, rfl, Literal.Spells.coerce_isOf ?_⟩
  rw [String.toList_ofList]
  exact hspells.surrounded hbefore hafter

/-- The analysis of a form with a number, and another number, a text and a list in an object. There
is a rate beside it. -/
def formAnalyzer : Analyzer where
  side := [(1, .ofProperties [("rate", .ofType .number)])]
  root := .ofProperties [("n", .ofType .number),
    ("o", .ofProperties
      [("n", .ofType .number), ("s", .ofType .string), ("xs", .arrayOf (.ofType .number))])]
  helpers := .builtins

/-- A rate of three. -/
def formSide : SideTable Value := [(1, .object [("rate", .number (.uint 3))])]

/-- A form, filled in with a number and a list. -/
def formData (n : Number) (xs : List Number) : Value :=
  .object [("n", .number n),
    ("o", .object [("n", .number n), ("s", .string "s"), ("xs", .array (xs.map .number))])]

theorem simple_form : formAnalyzer.Simple where
  root := by
    refine Schema.simple_ofProperties (List.forall_mem_cons.mpr ⟨Schema.simple_ofType _, ?_⟩)
    refine List.forall_mem_singleton.mpr (Schema.simple_ofProperties ?_)
    rw [List.forall_mem_cons, List.forall_mem_cons, List.forall_mem_singleton]
    exact ⟨Schema.simple_ofType _, Schema.simple_ofType _,
      Schema.simple_arrayOf (Schema.simple_ofType _)⟩
  side id s h := by
    obtain ⟨rfl, rfl⟩ := eq_of_get?_singleton h
    exact Schema.simple_ofProperties (List.forall_mem_singleton.mpr (Schema.simple_ofType _))

theorem fits_form (n : Number) (xs : List Number) :
    formAnalyzer.Fits ⟨formSide, formData n xs⟩ where
  root := by
    refine Schema.fits_ofProperties (List.forall_mem_cons.mpr ⟨⟨_, rfl, Schema.fits_number n⟩, ?_⟩)
    refine List.forall_mem_singleton.mpr ⟨_, rfl, Schema.fits_ofProperties ?_⟩
    rw [List.forall_mem_cons, List.forall_mem_cons, List.forall_mem_singleton]
    refine ⟨⟨_, rfl, Schema.fits_number n⟩, ⟨_, rfl, Schema.fits_ofType (.inl rfl)⟩, ⟨_, rfl, ?_⟩⟩
    refine Schema.fits_arrayOf fun w hw => ?_
    obtain ⟨x, -, rfl⟩ := List.mem_map.mp hw
    exact Schema.fits_number x
  side id s h := by
    obtain ⟨rfl, rfl⟩ := eq_of_get?_singleton h
    refine ⟨_, rfl, Schema.fits_ofProperties (List.forall_mem_singleton.mpr ⟨_, rfl, ?_⟩)⟩
    exact Schema.fits_number _

/-- An element, a sum, a rate or a zero, in the context of an object. -/
def formSource : Source :=
  ⟨"form", " \x7b\x7b#with o\x7d\x7d\x7b\x7b#if (gt n 1)\x7d\x7d {{xs.0}}{{else if s}}" ++
    "{{add n ../n}}{{else if ../n}}{{rate:1}}{{else}}0" ++
    "\x7b\x7b/if\x7d\x7d\x7b\x7b/with\x7d\x7d"⟩

/-- The first element of a form with a large number. -/
theorem form_isOf :
    ∃ t v, Template.read formSource = .ok t ∧
      Artifact.execute ⟨t, formAnalyzer.helpers⟩ formSide (formData (.uint 2) [.uint 5]) = .ok v ∧
        v.IsOf .number := by
  have hread : ∃ t, Template.read formSource = .ok t ∧
      decide (∃ x ∈ t.program.inside?,
        (analyze formAnalyzer t.program).schema.category? = some .number ∧
        (Environment.resolve ⟨formSide, formData (.uint 2) [.uint 5]⟩
          [⟨formData (.uint 2) [.uint 5], none⟩] x.1).isTruthy = true ∧
        ∀ q ∈ x.2 :: x.2.branches,
          Settled formAnalyzer ⟨⟨formSide, formData (.uint 2) [.uint 5]⟩, formAnalyzer.helpers⟩
            (formAnalyzer.scopesInside x.1)
            (Environment.framesInside ⟨formSide, formData (.uint 2) [.uint 5]⟩ x.1) q) = true :=
    exists_eq_ok (by decide +kernel)
  obtain ⟨t, ht, hchecked⟩ := hread
  obtain ⟨⟨target, body⟩, hinside, hkind, htrue, hsettled⟩ := of_decide_eq_true hchecked
  obtain ⟨v, hv, hof⟩ := inside_isOf ht hinside simple_form (fits_form _ _) hkind htrue hsettled
  exact ⟨t, v, ht, hv, hof⟩

/-! ## What the conditions are for -/

/-- Text, a path or literal, or a conditional block. -/
def Program.isScalarBody (p : Program) : Bool :=
  p.pureText?.isSome || p.singleExpression?.any Statement.isPlain ||
    p.singleBlock?.any Statement.isConditional

/-- Nothing that the analysis knows of keeps a lone block over a path from producing its kind. -/
structure Promising (a : Analyzer) (t : Template) (env : Environment) (c : Literal.Category) :
    Prop where
  inside : ∃ x ∈ t.program.inside?, x.2.isScalarBody = true ∧
    ∀ q ∈ x.2 :: x.2.branches, q.ReadsNumber
  simple : a.Simple
  fits : a.Fits env
  valid : (analyze a t.program).isValid = true
  kind : (analyze a t.program).schema.category? = some c

/-- A form is promised a number by a template, and does not get it. -/
def Disappoints (text : String) (n : Number) (xs : List Number) : Prop :=
  ∃ t, Template.read ⟨"form", text⟩ = .ok t ∧
    Promising formAnalyzer t ⟨formSide, formData n xs⟩ .number ∧
      ¬∃ v, Artifact.execute ⟨t, formAnalyzer.helpers⟩ formSide (formData n xs) = .ok v ∧
        v.IsOf .number

theorem disappoints_of_check {text : String} {n : Number} {xs : List Number}
    (h : ∃ t, Template.read ⟨"form", text⟩ = .ok t ∧
      decide ((∃ x ∈ t.program.inside?, x.2.isScalarBody = true ∧
          ∀ q ∈ x.2 :: x.2.branches, q.ReadsNumber) ∧
        (analyze formAnalyzer t.program).isValid = true ∧
        (analyze formAnalyzer t.program).schema.category? = some .number ∧
        ∀ v ∈ (Artifact.execute ⟨t, formAnalyzer.helpers⟩ formSide (formData n xs)).toOption,
          v.number?.isNone = true) = true) : Disappoints text n xs := by
  obtain ⟨t, ht, hchecked⟩ := h
  obtain ⟨hinside, hvalid, hkind, hnone⟩ := of_decide_eq_true hchecked
  refine ⟨t, ht, ⟨hinside, simple_form, fits_form n xs, hvalid, hkind⟩, ?_⟩
  rintro ⟨v, hv, m, rfl⟩
  have hnumber := hnone (.number m) (toOption_eq_some.mpr hv)
  cases hnumber

/-- **None of the conditions follows from the analysis.** The element of an empty list is not there,
a path leaves all contexts before it selects a side source, a quotient by zero is undefined, a
condition fails on a text, a body is not rendered over a zero, and infinity is no number literal. -/
theorem inside_not_isOf :
    Disappoints "\x7b\x7b#with o\x7d\x7d{{xs.0}}\x7b\x7b/with\x7d\x7d" (.uint 0) [] ∧
      Disappoints "\x7b\x7b#with o\x7d\x7d\x7b\x7b../../rate:1\x7d\x7d\x7b\x7b/with\x7d\x7d"
        (.uint 0) [] ∧
      Disappoints ("\x7b\x7b#with o\x7d\x7d\x7b\x7b#if n\x7d\x7d1{{else}}{{divide 1 n}}" ++
        "\x7b\x7b/if\x7d\x7d\x7b\x7b/with\x7d\x7d") (.uint 0) [] ∧
      Disappoints ("\x7b\x7b#with o\x7d\x7d\x7b\x7b#if (divide s 1)\x7d\x7d1{{else}}2" ++
        "\x7b\x7b/if\x7d\x7d\x7b\x7b/with\x7d\x7d") (.uint 0) [] ∧
      Disappoints "\x7b\x7b#with n\x7d\x7d1\x7b\x7b/with\x7d\x7d" (.uint 0) [] ∧
      Disappoints "\x7b\x7b#with o\x7d\x7d{{n}}\x7b\x7b/with\x7d\x7d"
        (.float (.infinity false)) [] := by
  refine ⟨disappoints_of_check (exists_eq_ok ?_), disappoints_of_check (exists_eq_ok ?_),
    disappoints_of_check (exists_eq_ok ?_), disappoints_of_check (exists_eq_ok ?_),
    disappoints_of_check (exists_eq_ok ?_), disappoints_of_check (exists_eq_ok ?_)⟩
  · decide +kernel
  · decide +kernel
  · decide +kernel
  · decide +kernel
  · decide +kernel
  · decide +kernel

end TypedTemplate
