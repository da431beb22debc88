import Mathlib.Data.List.Basic
import Mathlib.Tactic.Choose
import TypedTemplate.Proofs.Analysis.Diagnostics
import TypedTemplate.Proofs.Engine.History

/-!
# Trees of templates

A tree of templates is answered by answering its texts, depth first and in the order of the names.
Every text is answered as if it stood alone, whatever the texts before it have left in the caches.
Where all of them succeed, the answer has the shape of the tree, with the answers to the texts at
their places; otherwise it is the error of the first text that fails.

* `TemplateTree.fold`, `TemplateTree.texts`: what a tree comes to, and its texts in order.
* `TemplateTree.Composes`: an answer to a tree is composed of the answers to its texts;
  `collect_composes` shows it of going through the tree.
* `Analysis.diagnostics_fold`, `Analysis.schema_fold`, `Analysis.isValid_fold`: the analysis of a
  tree from those of its texts.
* `Engine.Reached`: the engine after some history of operations.
* **`distributes_over_trees`**: a reached engine analyses and executes trees text by text.
-/

namespace TypedTemplate

namespace TemplateTree

variable {α β : Type}

/-! ## Folding a tree -/

mutual

/-- What a tree comes to, when each text comes to something and each object to what its members make
together. -/
def fold (leaf : String → α) (node : List (String × α) → α) : TemplateTree → α
  | .leaf text => leaf text
  | .node children => node (foldChildren leaf node children)
termination_by structural t => t

/-- What trees under names come to. -/
def foldChildren (leaf : String → α) (node : List (String × α) → α) :
    List (String × TemplateTree) → List (String × α)
  | [] => []
  | (name, child) :: rest => (name, fold leaf node child) :: foldChildren leaf node rest
termination_by structural ts => ts

end

variable {leaf : String → α} {node : List (String × α) → α}

@[simp] theorem foldChildren_eq_map (children : List (String × TemplateTree)) :
    foldChildren leaf node children = children.map fun c => (c.1, c.2.fold leaf node) := by
  induction children with
  | nil => rfl
  | cons c rest ih => rw [foldChildren, ih, List.map_cons]

@[simp] theorem fold_leaf (text : String) : (TemplateTree.leaf text).fold leaf node = leaf text := rfl

@[simp] theorem fold_node (children : List (String × TemplateTree)) :
    (TemplateTree.node children).fold leaf node =
      node (children.map fun c => (c.1, c.2.fold leaf node)) := by
  rw [fold, foldChildren_eq_map]

/-- **A function of what a tree comes to** goes inside, where it turns what members make together
into what their images make. -/
theorem map_fold {node' : List (String × β) → β} (f : α → β)
    (hnode : ∀ members, f (node members) = node' (members.map fun m => (m.1, f m.2)))
    (t : TemplateTree) : f (t.fold leaf node) = t.fold (fun text => f (leaf text)) node' := by
  induction t using TemplateTree.induction with
  | leaf text => rfl
  | node children ih =>
    rw [fold_node, fold_node, hnode, List.map_map]
    have hmembers : ∀ c ∈ children, (c.1, f (c.2.fold leaf node)) =
        (c.1, c.2.fold (fun text => f (leaf text)) node') := by
      intro c hc
      rw [ih c hc]
    exact congrArg node' (List.map_congr_left hmembers)

/-- The texts of a tree, depth first and in the order of the names. -/
def texts : TemplateTree → List String :=
  fold (fun text => [text]) fun members => members.flatMap Prod.snd

@[simp] theorem texts_leaf (text : String) : (TemplateTree.leaf text).texts = [text] := rfl

@[simp] theorem texts_node (children : List (String × TemplateTree)) :
    (TemplateTree.node children).texts = children.flatMap fun c => c.2.texts := by
  rw [texts, fold_node, List.flatMap_map]

/-- Listing something for each text is a fold. -/
theorem flatMap_texts (f : String → List β) (t : TemplateTree) :
    t.texts.flatMap f = t.fold f fun members => members.flatMap Prod.snd := by
  induction t using TemplateTree.induction with
  | leaf text => simp
  | node children ih =>
    rw [texts_node, fold_node, List.flatMap_assoc, List.flatMap_map]
    exact List.flatMap_congr ih

/-! ## Going through a tree -/

variable {answer : String → Except TemplateError α}

/-- **Where every text succeeds**, so does the tree, and the answer has its shape. -/
theorem collect_eq_ok {value : String → α} (t : TemplateTree)
    (h : ∀ text ∈ t.texts, answer text = .ok (value text)) :
    t.collect answer node = .ok (t.fold value node) := by
  induction t using TemplateTree.induction with
  | leaf text => exact h text List.mem_cons_self
  | node children ih =>
    have hchildren : collectChildren answer node children =
        .ok (children.map fun c => (c.1, c.2.fold value node)) := by
      rw [texts_node] at h
      induction children with
      | nil => rfl
      | cons c rest ihRest =>
        rw [List.flatMap_cons, List.forall_mem_append] at h
        rw [List.forall_mem_cons] at ih
        rw [collectChildren, ih.1 h.1, ihRest ih.2 h.2]
        rfl
    rw [collect, hchildren, fold_node]
    rfl

/-- Values for the texts of a tree, where all of them succeed. -/
theorem exists_value (t : TemplateTree) (node : List (String × α) → α)
    (h : ∀ text ∈ t.texts, ∃ a, answer text = .ok a) :
    ∃ value : String → α, ∀ text ∈ t.texts, answer text = .ok (value text) := by
  -- Even a tree without texts comes to something.
  have : Nonempty α := ⟨node []⟩
  choose! value hvalue using h
  exact ⟨value, hvalue⟩

/-- **Where a text fails**, the tree fails with the error of the first one. -/
theorem collect_eq_error {x : TemplateError} (t : TemplateTree)
    (h : t.texts.findSome? (fun text => failure? (answer text)) = some x) :
    t.collect answer node = .error x := by
  induction t using TemplateTree.induction with
  | leaf text =>
    have hanswer : failure? (answer text) = some x := by simpa using h
    exact failure?_eq_some.mp hanswer
  | node children ih =>
    have hchildren : collectChildren answer node children = .error x := by
      rw [texts_node] at h
      induction children with
      | nil => cases h
      | cons c rest ihRest =>
        rw [List.flatMap_cons, List.findSome?_append] at h
        rw [List.forall_mem_cons] at ih
        rw [collectChildren]
        cases hfirst : c.2.texts.findSome? fun text => failure? (answer text) with
        | some y =>
          obtain rfl : y = x := by simpa [hfirst] using h
          rw [ih.1 hfirst]
          rfl
        | none =>
          -- The texts of the first child succeed, so the failure is further on.
          obtain ⟨value, hvalue⟩ := exists_value c.2 node (findSome?_failure?_eq_none.mp hfirst)
          rw [collect_eq_ok c.2 hvalue, ihRest ih.2 (by simpa [hfirst] using h)]
          rfl
    rw [collect, hchildren]
    rfl

/-- **The answer to a tree is composed of the answers to its texts.** -/
structure Composes (answer : String → Except TemplateError α) (node : List (String × α) → α)
    (t : TemplateTree) (whole : Except TemplateError α) : Prop where
  /-- It succeeds where all of them do. -/
  succeeds : (∃ a, whole = .ok a) ↔ ∀ text ∈ t.texts, ∃ a, answer text = .ok a
  /-- It has the shape of the tree, with what each text gives at its place. -/
  value : ∀ value : String → α, (∀ text ∈ t.texts, answer text = .ok (value text)) →
    whole = .ok (t.fold value node)
  /-- It fails with the error of the first text that fails. -/
  error : ∀ x, whole = .error x ↔ t.texts.findSome? (fun text => failure? (answer text)) = some x

/-- **Going through a tree** composes the answers to its texts. -/
theorem collect_composes (t : TemplateTree) : t.Composes answer node (t.collect answer node) := by
  cases hfirst : t.texts.findSome? fun text => failure? (answer text) with
  | none =>
    have hgood := findSome?_failure?_eq_none.mp hfirst
    obtain ⟨value, hvalue⟩ := exists_value t node hgood
    have hok : t.collect answer node = .ok (t.fold value node) := collect_eq_ok t hvalue
    refine ⟨⟨fun _ => hgood, fun _ => ⟨_, hok⟩⟩, fun value => collect_eq_ok t, fun x => ?_⟩
    simp [hok, hfirst]
  | some x =>
    have herror : t.collect answer node = .error x := collect_eq_error t hfirst
    have hbad : ¬∀ text ∈ t.texts, ∃ a, answer text = .ok a := by
      intro hgood
      rw [findSome?_failure?_eq_none.mpr hgood] at hfirst
      cases hfirst
    refine ⟨⟨?_, fun hgood => absurd hgood hbad⟩, fun value => collect_eq_ok t, fun y => ?_⟩
    · rintro ⟨a, ha⟩
      rw [ha] at herror
      cases herror
    · simp [herror, hfirst]

/-- An operation that goes through trees composes what it answers to texts that stand alone. -/
theorem composes_of_collect {run : TemplateTree → Except TemplateError α}
    (hrun : ∀ t, run t = t.collect answer node) (t : TemplateTree) :
    t.Composes (fun text => run (.leaf text)) node (run t) := by
  have hleaf : (fun text => run (.leaf text)) = answer := by
    funext text
    rw [hrun]
    rfl
  rw [hleaf, hrun]
  exact collect_composes t

end TemplateTree

/-! ## The analysis of a tree -/

namespace Analysis

variable (own : String → Analysis) (t : TemplateTree)

/-- **The diagnostics of a tree** are those of its texts, one after the other. -/
theorem diagnostics_fold :
    (t.fold own .ofChildren).diagnostics = t.texts.flatMap fun text => (own text).diagnostics := by
  rw [TemplateTree.flatMap_texts]
  exact TemplateTree.map_fold Analysis.diagnostics
    (fun members => by simp [ofChildren, List.flatMap_map]) t

/-- **The schema of a tree** has the shape of the tree, with those of its texts at their places and
every name required. -/
theorem schema_fold :
    (t.fold own .ofChildren).schema = t.fold (fun text => (own text).schema) .ofProperties :=
  TemplateTree.map_fold Analysis.schema (fun _ => rfl) t

/-- **A tree is valid** where all its texts are. -/
theorem isValid_fold :
    (t.fold own .ofChildren).isValid = true ↔ ∀ text ∈ t.texts, (own text).isValid = true := by
  rw [isValid_iff, diagnostics_fold, harmless_flatMap]
  simp only [isValid_iff]

end Analysis

/-! ## Reached engines -/

/-- The engine behind a history of operations, of any length, from its creation on. -/
def Engine.Reached (e : Engine) : Prop :=
  ∃ settings start ops, Engine.create settings = .ok start ∧
    e = (Session.run ⟨start, []⟩ ops).2.engine

namespace Engine

variable {e : Engine}

/-- An engine is created only where both caches have room for anything. -/
theorem room_of_create {settings : Settings} (h : create settings = .ok e) :
    0 < settings.parsedCapacity ∧ 0 < settings.compiledCapacity := by
  unfold create Cache.create at h
  constructor
  · by_contra hnone
    rw [dif_neg hnone] at h
    cases h
  · by_contra hnone
    rw [dif_neg hnone] at h
    split at h <;> cases h

/-- **Reached engines are coherent.** -/
theorem Reached.coherent (h : e.Reached) : e.Coherent := by
  obtain ⟨settings, start, ops, hcreate, rfl⟩ := h
  obtain ⟨hparsed, hcompiled⟩ := room_of_create hcreate
  obtain ⟨start', hcreate', hcoherent, hhelpers⟩ := create_spec hparsed hcompiled
  obtain rfl : start = start' := Except.ok.inj (hcreate.symm.trans hcreate')
  have hagrees : Agrees ⟨start, []⟩ ⟨start.helpers, []⟩ := ⟨hcoherent, rfl, .nil⟩
  exact (run_agrees hagrees ops).2.coherent

/-- Analysing a text that can be read succeeds. -/
theorem analyze_leaf_eq_ok (he : e.Coherent) {text : String} {t : Template}
    (ht : Template.read ⟨file, text⟩ = .ok t) (schema : Schema) (schemas : SideTable Schema) :
    (e.analyze schema schemas (.leaf text)).1 =
      .ok (TypedTemplate.analyze ⟨⟨schemas, schema⟩, e.helpers⟩ t.program) := by
  have hparse : Reference.parse text = .ok t := ht
  rw [(faithful_analyze he schema schemas _).answer, Reference.analyze, TemplateTree.collect, hparse]
  rfl

end Engine

/-- **Engines distribute over trees.** After any history, a tree all of whose texts can be read is
analysed to the diagnostics of its texts, one after the other; it is valid where they are, and its
schema has its shape, with those of the texts at their places and every name required. It is
executed to the object of its shape that holds at each place what the text there gives alone. Where
a text fails, both give the error of the first one that does and nothing else. -/
theorem distributes_over_trees {e : Engine} (he : e.Reached) (tree : TemplateTree) (schema : Schema)
    (schemas : SideTable Schema) (side : SideTable Value) (data : Value) :
    ((∀ text ∈ tree.texts, ∃ t, Template.read ⟨Engine.file, text⟩ = .ok t) →
      ∃ (own : String → Analysis) (r : Analysis),
        (∀ text ∈ tree.texts, (e.analyze schema schemas (.leaf text)).1 = .ok (own text)) ∧
        (e.analyze schema schemas tree).1 = .ok r ∧
        r.diagnostics = tree.texts.flatMap (fun text => (own text).diagnostics) ∧
        (r.isValid = true ↔ ∀ text ∈ tree.texts, (own text).isValid = true) ∧
        r.schema = tree.fold (fun text => (own text).schema) .ofProperties) ∧
    tree.Composes (fun text => (e.analyze schema schemas (.leaf text)).1) .ofChildren
      (e.analyze schema schemas tree).1 ∧
    tree.Composes (fun text => (e.execute side data (.leaf text)).1) .object
      (e.execute side data tree).1 := by
  have hcoherent := he.coherent
  have hanalysis := TemplateTree.composes_of_collect
    (fun t => (Engine.faithful_analyze hcoherent schema schemas t).answer) tree
  have hexecution := TemplateTree.composes_of_collect
    (fun t => (Engine.faithful_execute hcoherent side data t).answer) tree
  refine ⟨fun hread => ?_, hanalysis, hexecution⟩
  have hgood : ∀ text ∈ tree.texts, ∃ r, (e.analyze schema schemas (.leaf text)).1 = .ok r := by
    intro text htext
    obtain ⟨t, ht⟩ := hread text htext
    exact ⟨_, Engine.analyze_leaf_eq_ok hcoherent ht schema schemas⟩
  obtain ⟨own, hown⟩ := TemplateTree.exists_value tree Analysis.ofChildren hgood
  exact ⟨own, tree.fold own .ofChildren, hown, hanalysis.value own hown,
    Analysis.diagnostics_fold own tree, Analysis.isValid_fold own tree,
    Analysis.schema_fold own tree⟩

/-- An object in an object, with a title to choose. -/
def pageTree (title : String) : TemplateTree :=
  .node [("answer", .leaf "{{f x}}"),
    ("page", .node [("title", .leaf title), ("total", .leaf "{{add x 1}}")])]

/-- With room for one template, after an execution: a page is analysed, and one is executed whose
title is malformed and whose total fails as well. -/
theorem pageTree_distributes :
    ∃ start, Engine.create ⟨1, 1, true⟩ = .ok start ∧
      let e := (Session.run ⟨start, []⟩ [.register (.constant "f" (.bool true)),
        .execute [] .null (.leaf "{{f y}}")]).2.engine
      (∃ (own : String → Analysis) (r : Analysis),
        (∀ text ∈ (pageTree "Hi").texts, (e.analyze .any [] (.leaf text)).1 = .ok (own text)) ∧
        (e.analyze .any [] (pageTree "Hi")).1 = .ok r ∧
        r.schema = .ofProperties [("answer", (own "{{f x}}").schema),
          ("page", .ofProperties [("title", (own "Hi").schema),
            ("total", (own "{{add x 1}}").schema)])]) ∧
      ∃ x, (e.execute [] .null (.leaf "{{else}}")).1 = .error x ∧
        (e.execute [] .null (pageTree "{{else}}")).1 = .error x := by
  refine ⟨_, rfl, ?_⟩
  intro e
  have he : e.Reached := ⟨⟨1, 1, true⟩, _, _, rfl, rfl⟩
  have hread : ∀ text ∈ (pageTree "Hi").texts,
      ∃ t, Template.read ⟨Engine.file, text⟩ = .ok t := by
    have htexts : (pageTree "Hi").texts = ["{{f x}}", "Hi", "{{add x 1}}"] := rfl
    have hall : ∀ text ∈ ["{{f x}}", "Hi", "{{add x 1}}"],
        (Template.read ⟨Engine.file, text⟩).isOk = true := by decide +kernel
    intro text htext
    exact exists_of_isOk (hall text (htexts ▸ htext))
  obtain ⟨hanalysis, -, -⟩ := distributes_over_trees he (pageTree "Hi") .any [] [] .null
  obtain ⟨-, -, hexecution⟩ := distributes_over_trees he (pageTree "{{else}}") .any [] [] .null
  constructor
  · obtain ⟨own, r, hown, hr, -, -, hschema⟩ := hanalysis hread
    exact ⟨own, r, hown, hr, hschema⟩
  · have hfirst : ∃ v, (e.execute [] .null (.leaf "{{f x}}")).1 = .ok v :=
      exists_of_isOk (by decide +kernel)
    obtain ⟨v, hv⟩ := hfirst
    have hsecond : ∃ x, (e.execute [] .null (.leaf "{{else}}")).1 = .error x ∧ true = true :=
      exists_eq_error (by decide +kernel)
    obtain ⟨x, hx, -⟩ := hsecond
    have hsome : (pageTree "{{else}}").texts.findSome?
        (fun text => failure? (e.execute [] .null (.leaf text)).1) = some x := by
      have htexts : (pageTree "{{else}}").texts = ["{{f x}}", "{{else}}", "{{add x 1}}"] := rfl
      simp [htexts, hv, hx, failure?]
    exact ⟨x, hx, (hexecution.error x).mpr hsome⟩

end TypedTemplate
