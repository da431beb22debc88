import Mathlib.Data.List.Forall2
import TypedTemplate.Proofs.Engine.Coherence

/-!
# Histories of an engine

A client calls the operations of an engine one after the other, in any order, and holds on to the
artifacts that were compiled for it. Beside the engine stands a *ledger*, which keeps the helpers of
now, and of each artifact no more than its text and the helpers of then. It reads every text again
each time. Nobody can tell the two apart by their replies.

* `Operation`, `Reply`: what a client calls, and what it gets.
* `Session.step`, `Ledger.step`: one operation, by the engine and without it.
* `Agrees`: the session and the ledger stand for the same.
* `step_agrees`, `run_agrees`: one operation, and a history of any length.
* **`history_transparent`**: from the creation of an engine on, every reply is that of the ledger,
  and in every state reached the engine is coherent.
-/

namespace TypedTemplate

/-! ## Operations -/

/-- What a client calls. -/
inductive Operation where
  | parse (text : String)
  | compile (text : String)
  /-- Execute the artifact that was compiled at a position, counted from zero. -/
  | run (handle : Nat) (side : SideTable Value) (data : Value)
  | analyze (schema : Schema) (side : SideTable Schema) (tree : TemplateTree)
  | validate (schema : Schema) (side : SideTable Schema) (tree : TemplateTree)
  | execute (side : SideTable Value) (data : Value) (tree : TemplateTree)
  | analyzeAndExecute (schema : Schema) (schemas : SideTable Schema) (side : SideTable Value)
    (data : Value) (tree : TemplateTree)
  | register (h : Helper)
  | unregister (name : String)
  | clearCaches

/-- What a client gets. -/
inductive Reply where
  | template (answer : Except TemplateError Template)
  | artifact (answer : Except TemplateError Artifact)
  | analysis (answer : Except TemplateError Analysis)
  | verdict (answer : Except TemplateError Unit)
  | value (answer : Except TemplateError Value)
  | analysisAndValue (answer : Except TemplateError (Analysis × Value))
  /-- There was a helper to remove. -/
  | removed (found : Bool)
  /-- No artifact has that position. -/
  | noArtifact
  | done

/-! ## Sessions -/

/-- An engine, and the artifacts that were compiled for its client. -/
structure Session where
  engine : Engine
  artifacts : List Artifact

namespace Session

/-- The artifacts after an attempt to compile one more. -/
def keep {α : Type} (kept : List α) : Except TemplateError α → List α
  | .ok a => kept ++ [a]
  | .error _ => kept

/-- One operation. -/
def step (s : Session) : Operation → Reply × Session
  | .parse text =>
    let out := s.engine.template text
    (.template out.1, { s with engine := out.2 })
  | .compile text =>
    let out := s.engine.compile text
    (.artifact out.1, ⟨out.2, keep s.artifacts out.1⟩)
  | .run handle side data =>
    match s.artifacts[handle]? with
    | some a => (.value (a.execute side data), s)
    | none => (.noArtifact, s)
  | .analyze schema side tree =>
    let out := s.engine.analyze schema side tree
    (.analysis out.1, { s with engine := out.2 })
  | .validate schema side tree =>
    let out := s.engine.validate schema side tree
    (.verdict out.1, { s with engine := out.2 })
  | .execute side data tree =>
    let out := s.engine.execute side data tree
    (.value out.1, { s with engine := out.2 })
  | .analyzeAndExecute schema schemas side data tree =>
    let out := s.engine.analyzeAndExecute schema schemas side data tree
    (.analysisAndValue out.1, { s with engine := out.2 })
  | .register h => (.done, { s with engine := s.engine.register h })
  | .unregister name =>
    let out := s.engine.unregister name
    (.removed out.1, { s with engine := out.2 })
  | .clearCaches => (.done, { s with engine := s.engine.clearCaches })

/-- Operations in order: the replies, and the session at the end. -/
def run (s : Session) : List Operation → List Reply × Session
  | [] => ([], s)
  | op :: ops =>
    let out := (s.step op).2.run ops
    ((s.step op).1 :: out.1, out.2)

end Session

/-! ## Ledgers -/

/-- The helpers of now, and of each artifact its text and the helpers of then. -/
structure Ledger where
  helpers : HelperSet
  artifacts : List (String × HelperSet)

namespace Ledger

/-- One operation, answered by reading every text again. -/
def step (l : Ledger) : Operation → Reply × Ledger
  | .parse text => (.template (Reference.parse text), l)
  | .compile text =>
    let answer := Reference.compile l.helpers text
    (.artifact answer,
      { l with artifacts := Session.keep l.artifacts (answer.map fun _ => (text, l.helpers)) })
  | .run handle side data =>
    match l.artifacts[handle]? with
    | some (text, helpers) => (.value (Reference.executeText helpers side data text), l)
    | none => (.noArtifact, l)
  | .analyze schema side tree =>
    (.analysis (Reference.analyze ⟨⟨side, schema⟩, l.helpers⟩ tree), l)
  | .validate schema side tree =>
    (.verdict (Reference.validate ⟨⟨side, schema⟩, l.helpers⟩ tree), l)
  | .execute side data tree => (.value (Reference.execute l.helpers side data tree), l)
  | .analyzeAndExecute schema schemas side data tree =>
    (.analysisAndValue
      (Reference.analyzeAndExecute ⟨⟨schemas, schema⟩, l.helpers⟩ side data tree), l)
  | .register h => (.done, { l with helpers := l.helpers.add h })
  | .unregister name =>
    (.removed (Dict.contains name l.helpers),
      { l with
        helpers := if Dict.contains name l.helpers then Dict.erase name l.helpers else l.helpers })
  | .clearCaches => (.done, l)

/-- Operations in order: the replies, and the ledger at the end. -/
def run (l : Ledger) : List Operation → List Reply × Ledger
  | [] => ([], l)
  | op :: ops =>
    let out := (l.step op).2.run ops
    ((l.step op).1 :: out.1, out.2)

end Ledger

/-! ## Agreement -/

/-- **A session and a ledger stand for the same.** -/
structure Agrees (s : Session) (l : Ledger) : Prop where
  coherent : s.engine.Coherent
  helpers : s.engine.helpers = l.helpers
  /-- An artifact is its text, bound to the helpers of then. -/
  artifacts : List.Forall₂ (fun a h => Reference.compile h.2 h.1 = .ok a) s.artifacts l.artifacts

section Step

variable {s : Session} {l : Ledger}

/-- A faithful operation leaves a session that agrees with the same ledger. -/
theorem Agrees.of_faithful {α : Type} (h : Agrees s l) {out : Answered α}
    {expected : Except TemplateError α} (hout : Faithful s.engine out expected) :
    out.1 = expected ∧ Agrees { s with engine := out.2 } l :=
  ⟨hout.answer, hout.coherent, hout.helpers.trans h.helpers, h.artifacts⟩

/-- An artifact executes as its text does with the helpers of then. -/
theorem execute_of_compile {helpers : HelperSet} {text : String} {a : Artifact}
    (h : Reference.compile helpers text = .ok a) (side : SideTable Value) (data : Value) :
    a.execute side data = Reference.executeText helpers side data text := by
  obtain ⟨t, ht, rfl⟩ := map_eq_ok.mp h
  rw [Reference.executeText, ht]
  rfl

/-- What is kept after an attempt to compile stays in step. -/
theorem forall₂_keep {α β : Type} {R : α → β → Prop} {as : List α} {bs : List β}
    (h : List.Forall₂ R as bs) {x : Except TemplateError α} {y : Except TemplateError β}
    (hxy : (∃ a b, x = .ok a ∧ y = .ok b ∧ R a b) ∨ ∃ e, x = .error e ∧ y = .error e) :
    List.Forall₂ R (Session.keep as x) (Session.keep bs y) := by
  rcases hxy with ⟨a, b, rfl, rfl, hab⟩ | ⟨e, rfl, rfl⟩
  · exact List.rel_append h (.cons hab .nil)
  · exact h

theorem step_compile_agrees (h : Agrees s l) (text : String) :
    (s.step (.compile text)).1 = (l.step (.compile text)).1 ∧
      Agrees (s.step (.compile text)).2 (l.step (.compile text)).2 := by
  have hout := Engine.faithful_compile h.coherent text
  rw [h.helpers] at hout
  refine ⟨congrArg Reply.artifact hout.answer, hout.coherent, hout.helpers.trans h.helpers, ?_⟩
  refine forall₂_keep h.artifacts ?_
  rw [hout.answer]
  cases hcompile : Reference.compile l.helpers text with
  | error e => exact .inr ⟨e, rfl, rfl⟩
  | ok a => exact .inl ⟨a, (text, l.helpers), rfl, rfl, hcompile⟩

theorem step_run_agrees (h : Agrees s l) (handle : Nat) (side : SideTable Value) (data : Value) :
    (s.step (.run handle side data)).1 = (l.step (.run handle side data)).1 ∧
      Agrees (s.step (.run handle side data)).2 (l.step (.run handle side data)).2 := by
  have hlength := h.artifacts.length_eq
  rw [Session.step, Ledger.step]
  by_cases hlt : handle < s.artifacts.length
  · have hlt' : handle < l.artifacts.length := hlength ▸ hlt
    have hcompile := h.artifacts.get hlt hlt'
    rw [List.getElem?_eq_getElem hlt, List.getElem?_eq_getElem hlt']
    exact ⟨congrArg Reply.value (execute_of_compile hcompile side data), h⟩
  · rw [List.getElem?_eq_none (by omega), List.getElem?_eq_none (by omega)]
    exact ⟨rfl, h⟩

/-- **One operation** gives the reply of the ledger, and session and ledger agree again. -/
theorem step_agrees (h : Agrees s l) (op : Operation) :
    (s.step op).1 = (l.step op).1 ∧ Agrees (s.step op).2 (l.step op).2 := by
  cases op with
  | parse text =>
    obtain ⟨hanswer, hnext⟩ := h.of_faithful (Engine.faithful_template h.coherent text)
    exact ⟨congrArg Reply.template hanswer, hnext⟩
  | compile text => exact step_compile_agrees h text
  | run handle side data => exact step_run_agrees h handle side data
  | analyze schema side tree =>
    obtain ⟨hanswer, hnext⟩ := h.of_faithful (Engine.faithful_analyze h.coherent schema side tree)
    exact ⟨congrArg Reply.analysis (h.helpers ▸ hanswer), hnext⟩
  | validate schema side tree =>
    obtain ⟨hanswer, hnext⟩ := h.of_faithful (Engine.faithful_validate h.coherent schema side tree)
    exact ⟨congrArg Reply.verdict (h.helpers ▸ hanswer), hnext⟩
  | execute side data tree =>
    obtain ⟨hanswer, hnext⟩ := h.of_faithful (Engine.faithful_execute h.coherent side data tree)
    exact ⟨congrArg Reply.value (h.helpers ▸ hanswer), hnext⟩
  | analyzeAndExecute schema schemas side data tree =>
    obtain ⟨hanswer, hnext⟩ := h.of_faithful
      (Engine.faithful_analyzeAndExecute h.coherent schema schemas side data tree)
    exact ⟨congrArg Reply.analysisAndValue (h.helpers ▸ hanswer), hnext⟩
  | register helper =>
    exact ⟨rfl, h.coherent.withHelpers _, congrArg (HelperSet.add · helper) h.helpers, h.artifacts⟩
  | unregister name =>
    obtain ⟨hanswer, hcoherent, hhelpers⟩ := Engine.unregister_spec h.coherent name
    rw [h.helpers] at hanswer hhelpers
    exact ⟨congrArg Reply.removed hanswer, hcoherent, hhelpers, h.artifacts⟩
  | clearCaches => exact ⟨rfl, h.coherent.clearCaches, h.helpers, h.artifacts⟩

/-- **A history of any length** gives the replies of the ledger. -/
theorem run_agrees (h : Agrees s l) (ops : List Operation) :
    (s.run ops).1 = (l.run ops).1 ∧ Agrees (s.run ops).2 (l.run ops).2 := by
  induction ops generalizing s l with
  | nil => exact ⟨rfl, h⟩
  | cons op ops ih =>
    obtain ⟨hreply, hnext⟩ := step_agrees h op
    obtain ⟨hreplies, hlast⟩ := ih hnext
    exact ⟨List.cons_eq_cons.mpr ⟨hreply, hreplies⟩, hlast⟩

end Step

/-- **Caches do not show.** With room for at least one template and one artifact an engine is
created, and from there on every history of operations gives the replies of a ledger that reads each
text again; whatever the history, the engine keeps only what is the reading of its text, and
artifacts only of the helpers of now. -/
theorem history_transparent {settings : Settings} (hparsed : 0 < settings.parsedCapacity)
    (hcompiled : 0 < settings.compiledCapacity) :
    ∃ e, Engine.create settings = .ok e ∧ ∀ ops,
      let helpers := if settings.builtinHelpers then HelperSet.builtins else []
      (Session.run ⟨e, []⟩ ops).1 = (Ledger.run ⟨helpers, []⟩ ops).1 ∧
        (Session.run ⟨e, []⟩ ops).2.engine.helpers = (Ledger.run ⟨helpers, []⟩ ops).2.helpers ∧
        (Session.run ⟨e, []⟩ ops).2.engine.Coherent := by
  obtain ⟨e, hcreate, hcoherent, hhelpers⟩ := Engine.create_spec hparsed hcompiled
  refine ⟨e, hcreate, fun ops => ?_⟩
  have hstart : Agrees ⟨e, []⟩ ⟨if settings.builtinHelpers then HelperSet.builtins else [], []⟩ :=
    ⟨hcoherent, hhelpers, .nil⟩
  obtain ⟨hreplies, hlast⟩ := run_agrees hstart ops
  exact ⟨hreplies, hlast.helpers, hlast.coherent⟩

/-- A helper with one answer. -/
def Helper.constant (name : String) (v : Value) : Helper :=
  ⟨name, [], true, .any, none, fun _ _ => .ok v⟩

/-- With room for one artifact: a helper is replaced between two executions, and the artifact of
before is executed once more. -/
theorem history_of_replaced_helper :
    ∃ e, Engine.create ⟨1, 1, true⟩ = .ok e ∧
      let ops : List Operation :=
        [.register (.constant "f" (.bool true)), .compile "{{f x}}",
          .execute [] .null (.leaf "{{f x}}"), .register (.constant "f" (.bool false)),
          .execute [] .null (.leaf "{{f x}}"), .run 0 [] .null]
      (Session.run ⟨e, []⟩ ops).1 = (Ledger.run ⟨.builtins, []⟩ ops).1 ∧
        (Session.run ⟨e, []⟩ ops).2.engine.helpers = (Ledger.run ⟨.builtins, []⟩ ops).2.helpers ∧
        (Session.run ⟨e, []⟩ ops).2.engine.Coherent := by
  obtain ⟨e, hcreate, hops⟩ := @history_transparent ⟨1, 1, true⟩ (by decide) (by decide)
  exact ⟨e, hcreate, hops _⟩

end TypedTemplate
