import TypedTemplate.Proofs.Cache
import TypedTemplate.Proofs.Engine.Reference
import TypedTemplate.Proofs.Outcome

/-!
# Engines that keep what they should

An engine is *coherent* when everything it keeps is what it stands for: a template is the reading of
its text, and an artifact binds that reading to the helpers of now. From a coherent engine every
operation gives the answer that it would give with empty caches, and leaves a coherent engine
behind, also where it fails half way through a tree.

* `Engine.Coherent`: the invariant.
* `Faithful`: an operation answers what is expected, and keeps the invariant and the helpers.
* `Faithful.andThen`, `faithful_tree`: operations one after the other, and through a tree.
* **`faithful_analyze`**, **`faithful_execute`**, `faithful_compile`, `faithful_validate`,
  `faithful_analyzeAndExecute`: the operations.
* `Coherent.withHelpers`, `Coherent.clearCaches`: what drops entries keeps the invariant.
-/

namespace TypedTemplate

/-- **Everything that an engine keeps is what it stands for.** -/
structure Engine.Coherent (e : Engine) : Prop where
  /-- A template is the reading of its key. -/
  parsed : e.parsed.Holds fun text p => Reference.parse text = .ok p.template
  /-- An artifact is the reading of its key, bound to the helpers of now. -/
  compiled : e.compiled.Holds fun text a => Reference.compile e.helpers text = .ok a

/-! ## Answers -/

/-- An answer followed by an operation on it; an error ends the whole. -/
def Answered.andThen {α β : Type} (out : Answered α) (next : α → Engine → Answered β) :
    Answered β :=
  match out with
  | (.error x, e) => (.error x, e)
  | (.ok a, e) => next a e

/-- **An operation is faithful**: it answers what is expected and leaves a coherent engine behind,
with the helpers of before. -/
structure Faithful {α : Type} (e : Engine) (out : Answered α) (expected : Except TemplateError α) :
    Prop where
  answer : out.1 = expected
  coherent : out.2.Coherent
  helpers : out.2.helpers = e.helpers

section Faithful

variable {α β : Type} {e : Engine}

theorem Faithful.ok (he : e.Coherent) (a : α) : Faithful e (.ok a, e) (.ok a) := ⟨rfl, he, rfl⟩

/-- One operation after the other is faithful. -/
theorem Faithful.andThen {out : Answered α} {expected : Except TemplateError α}
    (h : Faithful e out expected) {next : α → Engine → Answered β}
    {after : α → Except TemplateError β}
    (hnext : ∀ a e', expected = .ok a → e'.Coherent → e'.helpers = e.helpers →
      Faithful e' (next a e') (after a)) :
    Faithful e (out.andThen next) (expected.bind after) := by
  obtain ⟨answer, e'⟩ := out
  obtain ⟨rfl, hcoherent, hhelpers⟩ := h
  cases answer with
  | error x => exact ⟨rfl, hcoherent, hhelpers⟩
  | ok a =>
    have hlast := hnext a e' rfl hcoherent hhelpers
    exact ⟨hlast.answer, hlast.coherent, hlast.helpers.trans hhelpers⟩

theorem Faithful.map {out : Answered α} {expected : Except TemplateError α}
    (h : Faithful e out expected) (f : α → β) :
    Faithful e (out.andThen fun a e => (.ok (f a), e)) (expected.map f) := by
  have hbind : expected.map f = expected.bind fun a => .ok (f a) := by cases expected <;> rfl
  rw [hbind]
  exact h.andThen fun a e' _ he' _ => .ok he' (f a)

/-- **What is faithful for a text is faithful for a tree**, when the tree is gone through in order
and the first error ends the whole. -/
theorem faithful_tree {leaf : String → Except TemplateError α} {node : List (String × α) → α}
    (run : TemplateTree → Engine → Answered α)
    (runAll : List (String × TemplateTree) → Engine → Answered (List (String × α)))
    (helpers : HelperSet)
    (hleaf : ∀ text e, e.Coherent → e.helpers = helpers →
      Faithful e (run (.leaf text) e) (leaf text))
    (hnode : ∀ children e, run (.node children) e =
      (runAll children e).andThen fun rs e => (.ok (node rs), e))
    (hnil : ∀ e, runAll [] e = (.ok [], e))
    (hcons : ∀ c rest e, runAll (c :: rest) e = (run c.2 e).andThen fun r e =>
      (runAll rest e).andThen fun rs e => (.ok ((c.1, r) :: rs), e))
    (t : TemplateTree) {e : Engine} (he : e.Coherent) (hhelpers : e.helpers = helpers) :
    Faithful e (run t e) (t.collect leaf node) := by
  induction t using TemplateTree.induction generalizing e with
  | leaf text => exact hleaf text e he hhelpers
  | node children ih =>
    rw [hnode, TemplateTree.collect]
    refine Faithful.map ?_ node
    induction children generalizing e with
    | nil =>
      rw [hnil]
      exact .ok he []
    | cons c rest ihRest =>
      rw [hcons, TemplateTree.collectChildren]
      refine (ih c List.mem_cons_self he hhelpers).andThen fun r e' _ he' hhelpers' => ?_
      exact (ihRest (fun c hc => ih c (List.mem_cons_of_mem _ hc)) he'
        (hhelpers'.trans hhelpers)).map _

end Faithful

namespace Engine

variable {e : Engine}

/-! ## Texts -/

/-- The template of a text, without the number of its reading. -/
def template (text : String) (e : Engine) : Answered Template :=
  ((e.parse text).1.map Parsed.template, (e.parse text).2)

/-- **A text that is not read again is read as before.** -/
theorem faithful_template (he : e.Coherent) (text : String) :
    Faithful e (e.template text) (Reference.parse text) := by
  rw [template, parse]
  split
  · next p parsed hget =>
    obtain ⟨hp, hparsed⟩ := he.parsed.get hget
    exact ⟨hp.symm, ⟨hparsed, he.compiled⟩, rfl⟩
  · cases hread : Template.read ⟨file, text⟩ with
    | error x => exact ⟨hread.symm, he, rfl⟩
    | ok t => exact ⟨hread.symm, ⟨he.parsed.put hread, he.compiled⟩, rfl⟩

theorem compile_eq_andThen (text : String) :
    e.compile text = (e.template text).andThen fun t e => (.ok ⟨t, e.helpers⟩, e) := by
  rw [compile, template]
  rcases e.parse text with ⟨_ | _, _⟩ <;> rfl

theorem faithful_compile (he : e.Coherent) (text : String) :
    Faithful e (e.compile text) (Reference.compile e.helpers text) := by
  have hbind : Reference.compile e.helpers text =
      (Reference.parse text).bind fun t => .ok ⟨t, e.helpers⟩ := by
    rw [Reference.compile]
    cases Reference.parse text <;> rfl
  rw [compile_eq_andThen, hbind]
  exact (faithful_template he text).andThen fun t e' _ he' hhelpers => hhelpers ▸ .ok he' _

theorem analyzeText_eq_andThen (schema : Schema) (side : SideTable Schema) (text : String) :
    e.analyzeText schema side text = (e.template text).andThen fun t e =>
      (.ok (TypedTemplate.analyze ⟨⟨side, schema⟩, e.helpers⟩ t.program), e) := by
  rw [analyzeText, template]
  rcases e.parse text with ⟨_ | _, _⟩ <;> rfl

theorem executeText_eq_andThen (side : SideTable Value) (data : Value) (text : String) :
    e.executeText side data text = (e.template text).andThen fun t e =>
      ((t.executeCached text e.helpers side data e.compiled).1,
        { e with compiled := (t.executeCached text e.helpers side data e.compiled).2 }) := by
  rw [executeText, template]
  rcases e.parse text with ⟨_ | _, _⟩ <;> rfl

/-- The artifact that a cache gives is the one that was asked for. -/
theorem artifact_eq {helpers : HelperSet} {c : Cache Artifact} {text : String} {a : Artifact}
    (hc : c.Holds fun text a => Reference.compile helpers text = .ok a)
    (ha : Reference.compile helpers text = .ok a) :
    (c.artifact text a).1 = a ∧
      (c.artifact text a).2.Holds fun text a => Reference.compile helpers text = .ok a := by
  rw [Cache.artifact]
  split
  · next kept c' hget =>
    obtain ⟨hkept, hc'⟩ := hc.get hget
    exact ⟨Except.ok.inj (hkept.symm.trans ha), hc'⟩
  · exact ⟨rfl, hc.put ha⟩

/-- **A kept artifact gives the value that a new one gives**, whether rendering it fails or not. -/
theorem executeCached_eq {helpers : HelperSet} {c : Cache Artifact} {text : String} {t : Template}
    (hc : c.Holds fun text a => Reference.compile helpers text = .ok a)
    (ht : Reference.parse text = .ok t) (side : SideTable Value) (data : Value) :
    (t.executeCached text helpers side data c).1 = Artifact.execute ⟨t, helpers⟩ side data ∧
      (t.executeCached text helpers side data c).2.Holds fun text a =>
        Reference.compile helpers text = .ok a := by
  have ha : Reference.compile helpers text = .ok ⟨t, helpers⟩ := by
    rw [Reference.compile, ht]
    rfl
  obtain ⟨hartifact, hkept⟩ := artifact_eq hc ha
  rw [Template.executeCached, Artifact.execute, Program.execute]
  cases t.program.direct? side data with
  | some v => exact ⟨rfl, hc⟩
  | none => exact ⟨congrArg (t.program.tier.run · side data) hartifact, hkept⟩

theorem faithful_executeText (he : e.Coherent) (side : SideTable Value) (data : Value)
    (text : String) :
    Faithful e (e.executeText side data text)
      (Reference.executeText e.helpers side data text) := by
  rw [executeText_eq_andThen]
  refine (faithful_template he text).andThen fun t e' ht he' hhelpers => ?_
  obtain ⟨hanswer, hkept⟩ := executeCached_eq he'.compiled ht side data
  exact ⟨hhelpers ▸ hanswer, ⟨he'.parsed, hkept⟩, rfl⟩

/-! ## Trees -/

/-- **Analysing a tree is faithful.** -/
theorem faithful_analyze (he : e.Coherent) (schema : Schema) (side : SideTable Schema)
    (tree : TemplateTree) :
    Faithful e (e.analyze schema side tree)
      (Reference.analyze ⟨⟨side, schema⟩, e.helpers⟩ tree) := by
  refine faithful_tree (Engine.analyze schema side) (analyzeChildren schema side) e.helpers
    (fun text e' he' hhelpers => ?_) (fun children e' => ?_) (fun _ => rfl) (fun c rest e' => ?_)
    tree he rfl
  · have hbind : (Reference.parse text).map
          (fun t => TypedTemplate.analyze ⟨⟨side, schema⟩, e.helpers⟩ t.program) =
        (Reference.parse text).bind
          fun t => .ok (TypedTemplate.analyze ⟨⟨side, schema⟩, e.helpers⟩ t.program) := by
      cases Reference.parse text <;> rfl
    rw [analyze, analyzeText_eq_andThen, hbind]
    refine (faithful_template he' text).andThen fun t e'' _ he'' hhelpers' => ?_
    rw [hhelpers', hhelpers]
    exact .ok he'' _
  · rw [analyze]
    rcases e'.analyzeChildren schema side children with ⟨_ | _, _⟩ <;> rfl
  · rw [analyzeChildren]
    rcases e'.analyze schema side c.2 with ⟨_ | _, e''⟩
    · rfl
    · simp only [Answered.andThen]
      rcases e''.analyzeChildren schema side rest with ⟨_ | _, _⟩ <;> rfl

/-- **Executing a tree is faithful.** -/
theorem faithful_execute (he : e.Coherent) (side : SideTable Value) (data : Value)
    (tree : TemplateTree) :
    Faithful e (e.execute side data tree) (Reference.execute e.helpers side data tree) := by
  refine faithful_tree (Engine.execute side data) (executeChildren side data) e.helpers
    (fun text e' he' hhelpers => ?_) (fun children e' => ?_) (fun _ => rfl) (fun c rest e' => ?_)
    tree he rfl
  · rw [execute]
    exact hhelpers ▸ faithful_executeText he' side data text
  · rw [execute]
    rcases e'.executeChildren side data children with ⟨_ | _, _⟩ <;> rfl
  · rw [executeChildren]
    rcases e'.execute side data c.2 with ⟨_ | _, e''⟩
    · rfl
    · simp only [Answered.andThen]
      rcases e''.executeChildren side data rest with ⟨_ | _, _⟩ <;> rfl

theorem analyzeValid_eq_andThen (schema : Schema) (side : SideTable Schema) (tree : TemplateTree) :
    e.analyzeValid schema side tree = (e.analyze schema side tree).andThen fun r e =>
      (if r.isValid then .ok r else .error (.rejected r.diagnostics), e) := by
  rw [analyzeValid]
  rcases e.analyze schema side tree with ⟨_ | r, _⟩
  · rfl
  · simp only [Answered.andThen]
    split <;> rfl

theorem faithful_analyzeValid (he : e.Coherent) (schema : Schema) (side : SideTable Schema)
    (tree : TemplateTree) :
    Faithful e (e.analyzeValid schema side tree)
      (Reference.analyzeValid ⟨⟨side, schema⟩, e.helpers⟩ tree) := by
  rw [analyzeValid_eq_andThen]
  exact (faithful_analyze he schema side tree).andThen fun r e' _ he' _ => ⟨rfl, he', rfl⟩

theorem validate_eq_andThen (schema : Schema) (side : SideTable Schema) (tree : TemplateTree) :
    e.validate schema side tree =
      (e.analyzeValid schema side tree).andThen fun _ e => (.ok (), e) := by
  rw [validate]
  rcases e.analyzeValid schema side tree with ⟨_ | _, _⟩ <;> rfl

theorem faithful_validate (he : e.Coherent) (schema : Schema) (side : SideTable Schema)
    (tree : TemplateTree) :
    Faithful e (e.validate schema side tree)
      (Reference.validate ⟨⟨side, schema⟩, e.helpers⟩ tree) := by
  rw [validate_eq_andThen]
  exact (faithful_analyzeValid he schema side tree).map _

theorem analyzeAndExecute_eq_andThen (schema : Schema) (schemas : SideTable Schema)
    (side : SideTable Value) (data : Value) (tree : TemplateTree) :
    e.analyzeAndExecute schema schemas side data tree =
      (e.analyzeValid schema schemas tree).andThen fun r e =>
        (e.execute side data tree).andThen fun v e => (.ok (r, v), e) := by
  rw [analyzeAndExecute]
  rcases e.analyzeValid schema schemas tree with ⟨_ | r, e'⟩
  · rfl
  · simp only [Answered.andThen]
    rcases e'.execute side data tree with ⟨_ | _, _⟩ <;> rfl

theorem faithful_analyzeAndExecute (he : e.Coherent) (schema : Schema) (schemas : SideTable Schema)
    (side : SideTable Value) (data : Value) (tree : TemplateTree) :
    Faithful e (e.analyzeAndExecute schema schemas side data tree)
      (Reference.analyzeAndExecute ⟨⟨schemas, schema⟩, e.helpers⟩ side data tree) := by
  rw [analyzeAndExecute_eq_andThen]
  refine (faithful_analyzeValid he schema schemas tree).andThen fun r e' _ he' hhelpers => ?_
  exact hhelpers ▸ (faithful_execute he' side data tree).map _

/-! ## Helpers and caches -/

/-- Without an artifact left, other helpers make nothing stale. -/
theorem Coherent.withHelpers (he : e.Coherent) (helpers : HelperSet) :
    (e.withHelpers helpers).Coherent :=
  ⟨he.parsed, Cache.holds_clear e.compiled⟩

theorem Coherent.clearCaches (_ : e.Coherent) : e.clearCaches.Coherent :=
  ⟨Cache.holds_clear e.parsed, Cache.holds_clear e.compiled⟩

/-- Removing a helper says whether there was one, and is the only way to change the helpers. -/
theorem unregister_spec (he : e.Coherent) (name : String) :
    (e.unregister name).1 = Dict.contains name e.helpers ∧ (e.unregister name).2.Coherent ∧
      (e.unregister name).2.helpers =
        if Dict.contains name e.helpers then Dict.erase name e.helpers else e.helpers := by
  rw [unregister]
  by_cases hname : Dict.contains name e.helpers = true
  · rw [if_pos hname, if_pos hname]
    exact ⟨hname.symm, he.withHelpers _, rfl⟩
  · rw [if_neg hname, if_neg hname]
    exact ⟨(Bool.eq_false_iff.mpr hname).symm, he, rfl⟩

/-- An engine starts with nothing kept, if its caches have room for anything. -/
theorem create_spec {settings : Settings} (hparsed : 0 < settings.parsedCapacity)
    (hcompiled : 0 < settings.compiledCapacity) :
    ∃ e, create settings = .ok e ∧ e.Coherent ∧
      e.helpers = if settings.builtinHelpers then HelperSet.builtins else [] := by
  rw [create, Cache.create, Cache.create, dif_pos hparsed, dif_pos hcompiled]
  exact ⟨_, rfl, ⟨Cache.holds_empty _ hparsed, Cache.holds_empty _ hcompiled⟩, rfl⟩

end Engine

end TypedTemplate
