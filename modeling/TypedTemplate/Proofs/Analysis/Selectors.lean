import TypedTemplate.Proofs.Analysis.Scopes
import TypedTemplate.Proofs.Execution.Scalars
import TypedTemplate.Proofs.Path.Identifier

/-!
# Paths into side sources

The last segment of a path may select a side source: a name, a colon and a number. What such a path
means has nothing to do with the contexts at hand, so the analysis does not look at them. The
rendering does: it leaves as many contexts as the path says before it turns to the side source, and
finds nothing where the path leaves them all. This file says that this is the only difference, and
how many contexts there are.

* `Path.Selects`: the paths that end in a selector; `Path.selector?_eq_some`: they are the ones that
  are taken to.
* `SideTable.select`: what the segments refer to in a side source.
* `Declarations.resolve_of_selects`, `Environment.resolve_of_selects`, `resolveRoot_of_selects`:
  such a path in the analysis, in the rendering, and where the data is the only context.
* `length_enter`, `length_of_mem_bodies`: a block lays one context or none, in both alike.
* **`length_of_mem_visits`**: wherever a path is evaluated there are as many contexts as scopes.
* **`selects_resolved`**: where a path refers to what it selects, and where it does not.
* `not_selects_resolved`: a path that is valid and refers to nothing.
-/

namespace TypedTemplate

/-! ## Paths that select -/

/-- **The path selects a side source**: it is no variable, and its last segment has the form of a
selector. -/
structure Path.Selects (p : Path) (front : List String) (name : String) (id : UInt64) : Prop where
  data : p.data = false
  last : ∃ segment, p.parts = front ++ [segment] ∧ IsSelector segment name id

/-- The segments of such a path, without the number. -/
theorem Path.Selects.extract {p : Path} {front : List String} {name : String} {id : UInt64}
    (h : p.Selects front name id) : extractIdentifier p.parts = (front ++ [name], some id) := by
  obtain ⟨segment, hparts, hselector⟩ := h.last
  rw [hparts, extractIdentifier_append, splitIdentifier?_eq_some.mpr hselector]

/-- **The paths that select a side source** are the ones that are taken to. -/
theorem Path.selector?_eq_some {p : Path} {id : UInt64} :
    p.selector? = some id ↔ ∃ front name, p.Selects front name id := by
  unfold selector?
  constructor
  · intro h
    split at h
    · cases h
    · next hdata =>
      rcases List.eq_nil_or_concat p.parts with hparts | ⟨front, last, hparts⟩
      · rw [hparts] at h
        cases h
      · rw [hparts, List.concat_eq_append, extractIdentifier_append] at h
        cases hsplit : splitIdentifier? last with
        | none =>
          rw [hsplit] at h
          cases h
        | some selector =>
          obtain ⟨name, id'⟩ := selector
          rw [hsplit] at h
          cases h
          refine ⟨front, name, Bool.eq_false_iff.mpr hdata, last, ?_, ?_⟩
          · rw [hparts, List.concat_eq_append]
          · exact splitIdentifier?_eq_some.mp hsplit
  · rintro ⟨front, name, h⟩
    rw [h.data, h.extract]
    rfl

/-! ## What they refer to -/

/-- What segments refer to in a side source; nothing if there is no such source. -/
def SideTable.select (side : SideTable Value) (id : UInt64) (segments : List String) : Value :=
  match side.get? id with
  | some source => source.follow segments
  | none => .undefined

section Resolution

variable {p : Path} {front : List String} {name : String} {id : UInt64}
  (h : p.Selects front name id)

include h

/-- **In the analysis** the path leads through the schema of the side source, whatever the scopes
are and however many of them it leaves. -/
theorem Declarations.resolve_of_selects (d : Declarations) (scopes : List Scope) :
    d.resolve scopes p =
      match d.side.get? id with
      | some source => source.follow (front ++ [name]) p
      | none => (none, [⟨.unknownIdentifier id p.written (front ++ [name]), p.span⟩]) := by
  unfold Declarations.resolve
  rw [h.data, h.extract]
  rfl

theorem resolveIn_of_selects (side : SideTable Value) (context : Value) :
    resolveIn side context p.parts = side.select id (front ++ [name]) := by
  unfold resolveIn SideTable.select
  cases hsource : side.get? id <;> simp only [h.extract, hsource]

/-- **In the rendering** the path leads into the side source, unless it leaves all contexts. -/
theorem Environment.resolve_of_selects (env : Environment) (frames : List Frame) :
    env.resolve frames p =
      if p.depth < frames.length then env.side.select id (front ++ [name]) else .undefined := by
  unfold Environment.resolve
  rw [h.data]
  simp only [Bool.false_eq_true, if_false]
  by_cases hdepth : p.depth < frames.length
  · rw [List.getElem?_eq_getElem hdepth, if_pos hdepth]
    exact resolveIn_of_selects h env.side _
  · rw [List.getElem?_eq_none (by omega), if_neg hdepth]

/-- **Where the data is the only context** the path leads into the side source, unless it leaves
it. -/
theorem resolveRoot_of_selects (side : SideTable Value) (data : Value) :
    resolveRoot side data p =
      if p.depth = 0 then side.select id (front ++ [name]) else .undefined := by
  unfold resolveRoot
  rw [h.data]
  by_cases hdepth : p.depth = 0
  · rw [if_neg (by omega), if_pos hdepth]
    exact resolveIn_of_selects h side data
  · rw [if_pos (by omega), if_neg hdepth]

end Resolution

/-! ## How many contexts there are -/

/-- The number of contexts that a block lays. -/
def BlockKind.layers : BlockKind → Nat
  | .inside => 1
  | .forEach => 1
  | .whenTrue => 0
  | .whenFalse => 0
  | .custom _ => 0

/-- Entering the body of a block goes under as many scopes as the block lays contexts. -/
theorem Analyzer.length_enter (a : Analyzer) (scopes : List Scope) (span : Span) (kind : BlockKind)
    (params : List Expr) (hash : HashArgs) :
    (a.enter scopes span kind params hash).1.length = scopes.length + kind.layers := by
  unfold enter
  split
  · rfl
  · rfl
  · rfl
  · split <;> rfl
  · rfl
  · rfl
  · rfl
  · rfl
  · rfl

/-- A body is rendered under as many contexts more as its block lays. -/
theorem BlockKind.length_of_mem_bodies {kind : BlockKind} {frames inner : List Frame} {v : Value}
    (h : inner ∈ kind.bodies frames v) : inner.length = frames.length + kind.layers := by
  have hsame {c : Bool} {xs : List (List Frame)}
      (hinner : inner ∈ if c then xs else []) : inner ∈ xs := by
    split at hinner
    · exact hinner
    · cases hinner
  unfold bodies at h
  split at h
  · rw [List.mem_singleton.mp (hsame h)]
    rfl
  · split at h
    · cases h
    · rw [List.mem_singleton.mp h]
      rfl
  · rw [List.mem_singleton.mp (hsame h)]
    rfl
  · rw [List.mem_singleton.mp (hsame h)]
    rfl
  · obtain ⟨frame, -, rfl⟩ := List.mem_map.mp h
    rfl

namespace Renderer

variable {a : Analyzer} {r : Renderer} {scopes : List Scope} {frames : List Frame}

/-- **One statement**: where it is rendered under as many contexts as it is analysed under scopes,
so is every path in it. -/
theorem length_of_mem_visitsStatement {s : Statement} (hlevel : frames.length = scopes.length) :
    ∀ x ∈ r.visitsStatement a scopes frames s, x.frames.length = x.scopes.length := by
  -- A body adds as many to either side, and an alternative none.
  induction s using Statement.induction generalizing scopes frames with
  | content => exact fun x hx => absurd hx List.not_mem_nil
  | expression span head params hash =>
    intro x hx
    have htag : x ∈ r.visitsTag scopes frames (.expression span head params hash) := hx
    obtain ⟨hscopes, hframes, -⟩ := stands_of_mem_visitsTag htag
    rw [hscopes, hframes, hlevel]
  | block span kind params hash program inverse ihProgram ihInverse =>
    intro x hx
    rcases mem_visitsStatement_block hx with hx | ⟨body, hbody, hx⟩ | ⟨v, -, inner, hinner, hx⟩
    · obtain ⟨hscopes, hframes, -⟩ := stands_of_mem_visitsTag hx
      rw [hscopes, hframes, hlevel]
    · obtain ⟨s, hs, hx⟩ := (r.visitsProgram_visitsBy a _ _).exists_of_mem hx
      exact ihInverse body hbody s hs hlevel x hx
    · obtain ⟨s, hs, hx⟩ := (r.visitsProgram_visitsBy a _ _).exists_of_mem hx
      refine ihProgram s hs ?_ x hx
      rw [BlockKind.length_of_mem_bodies hinner, a.length_enter, hlevel]

/-- **Wherever a path is evaluated there are as many contexts as scopes.** -/
theorem length_of_mem_visits {program : Program} {x : Visit} (h : x ∈ visits a r program) :
    x.frames.length = x.scopes.length := by
  obtain ⟨s, -, hx⟩ := (r.visitsProgram_visitsBy a _ _).exists_of_mem h
  exact length_of_mem_visitsStatement (by rfl) x hx

end Renderer

/-! ## Where a selection is reached -/

/-- **What a path that selects a side source refers to.** For the analysis it is what its segments
lead to in the schema of the source, under any scopes; for the rendering, what they lead to in the
source, unless the path leaves all contexts. So wherever a rendering evaluates the path, it refers
to what it selects just when it leaves fewer contexts than there are scopes around it, or selects
nothing. -/
theorem selects_resolved {p : Path} {front : List String} {name : String} {id : UInt64}
    (h : p.Selects front name id) :
    (∀ (d : Declarations) (scopes : List Scope), d.resolve scopes p =
        match d.side.get? id with
        | some source => source.follow (front ++ [name]) p
        | none => (none, [⟨.unknownIdentifier id p.written (front ++ [name]), p.span⟩])) ∧
      (∀ (env : Environment) (frames : List Frame), env.resolve frames p =
        if p.depth < frames.length then env.side.select id (front ++ [name]) else .undefined) ∧
      (∀ (side : SideTable Value) (data : Value), resolveRoot side data p =
        if p.depth = 0 then side.select id (front ++ [name]) else .undefined) ∧
      ∀ (a : Analyzer) (r : Renderer) (program : Program), ∀ x ∈ Renderer.visits a r program,
        x.path = p →
          (r.resolve x.frames p = r.side.select id (front ++ [name]) ↔
            p.depth < x.scopes.length ∨ r.side.select id (front ++ [name]) = .undefined) := by
  refine ⟨Declarations.resolve_of_selects h, Environment.resolve_of_selects h,
    resolveRoot_of_selects h, ?_⟩
  intro a r program x hx _
  rw [Environment.resolve_of_selects h, Renderer.length_of_mem_visits hx]
  by_cases hdepth : p.depth < x.scopes.length
  · simp [hdepth]
  · simp [hdepth, eq_comm]

/-! ## A rate beside the data -/

/-- A path that leaves a context and selects the rate of a side source. -/
def ratePath : Path := ⟨⟨1, 3, 2, 11⟩, "../rate:1", ["rate:1"], 1, false, false⟩

/-- The analysis over a side source with a rate. -/
def rateAnalyzer : Analyzer where
  side := [(1, .ofProperties [("rate", .ofType .number)])]
  root := .ofType .object
  helpers := []

/-- A rate of three. -/
def rateSide : SideTable Value := [(1, .object [("rate", .number (.uint 3))])]

theorem ratePath_selects : ratePath.Selects [] "rate" 1 :=
  ⟨rfl, "rate:1", rfl, ['1'], by decide, by decide, by decide, by decide⟩

/-- Inside a block the path refers to the rate, and outside to nothing; to the analysis it is a
number anywhere. -/
theorem rate_resolved :
    Environment.resolve ⟨rateSide, .object []⟩ [⟨.null, none⟩, ⟨.object [], none⟩] ratePath =
        .number (.uint 3) ∧
      Environment.resolve ⟨rateSide, .object []⟩ [⟨.object [], none⟩] ratePath = .undefined ∧
      ∀ scopes, (rateAnalyzer.resolve scopes ratePath).1.any
        (fun s => s.category? = some .number) = true := by
  obtain ⟨hanalysis, hrendering, -⟩ := selects_resolved ratePath_selects
  refine ⟨?_, ?_, ?_⟩
  · rw [hrendering]
    rfl
  · rw [hrendering]
    rfl
  · intro scopes
    rw [hanalysis]
    decide

/-- **What a path selects may be cut off by its depth**, though the analysis finds nothing wrong
with the template. -/
theorem not_selects_resolved :
    (∃ t, Template.read ⟨"rate", "{{../rate:1}}"⟩ = .ok t ∧ t.program.paths = [ratePath] ∧
        (analyze rateAnalyzer t.program).isValid = true ∧
        (analyze rateAnalyzer t.program).schema.category? = some .number ∧
        Artifact.execute ⟨t, []⟩ rateSide (.object []) = .ok .undefined) ∧
      rateSide.select 1 ["rate"] = .number (.uint 3) ∧
      ¬∀ (p : Path) (front : List String) (name : String) (id : UInt64), p.Selects front name id →
        ∀ (env : Environment) (frames : List Frame), frames ≠ [] →
          env.resolve frames p = env.side.select id (front ++ [name]) := by
  have hselected : rateSide.select 1 ["rate"] = .number (.uint 3) := rfl
  refine ⟨?_, hselected, ?_⟩
  · have hread : ∃ t, Template.read ⟨"rate", "{{../rate:1}}"⟩ = .ok t ∧
        decide (t.program.paths = [ratePath] ∧
          (analyze rateAnalyzer t.program).isValid = true ∧
          (analyze rateAnalyzer t.program).schema.category? = some .number ∧
          (Artifact.execute ⟨t, []⟩ rateSide (.object [])).toOption.map Value.isUndefined =
            some true) = true := exists_eq_ok (by decide +kernel)
    obtain ⟨t, ht, hchecked⟩ := hread
    obtain ⟨hpaths, hvalid, hkind, hexecute⟩ := of_decide_eq_true hchecked
    refine ⟨t, ht, hpaths, hvalid, hkind, ?_⟩
    obtain ⟨v, hv, hundefined⟩ := Option.map_eq_some_iff.mp hexecute
    rw [toOption_eq_some.mp hv]
    cases v with
    | undefined => rfl
    | _ => cases hundefined
  · intro hall
    have hrate := hall ratePath [] "rate" 1 ratePath_selects ⟨rateSide, .object []⟩
      [⟨.object [], none⟩] (List.cons_ne_nil _ _)
    cases hselected.symm.trans hrate.symm

end TypedTemplate
