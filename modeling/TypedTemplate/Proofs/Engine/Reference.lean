import TypedTemplate.Engine.Basic

/-!
# What an engine is to answer

An engine keeps what it has read and bound. What it is to answer is said here without anything being
kept: a text is read again each time, and analysed or executed with the helpers of the moment.

* `TemplateTree.collect`: the answers to the texts of a tree, in the order of their names.
* `Reference.parse`, `Reference.compile`, `Reference.analyze`, `Reference.validate`,
  `Reference.execute`, `Reference.analyzeAndExecute`: the answers.
* `TemplateTree.induction`: the induction over a tree of templates.
-/

namespace TypedTemplate

namespace TemplateTree

variable {α : Type}

mutual

/-- The answer to a tree from those to its texts; the first error ends the whole. -/
def collect (leaf : String → Except TemplateError α) (node : List (String × α) → α) :
    TemplateTree → Except TemplateError α
  | .leaf text => leaf text
  | .node children => (collectChildren leaf node children).map node
termination_by structural t => t

/-- The answers to trees under names. -/
def collectChildren (leaf : String → Except TemplateError α) (node : List (String × α) → α) :
    List (String × TemplateTree) → Except TemplateError (List (String × α))
  | [] => .ok []
  | (name, child) :: rest =>
    (collect leaf node child).bind fun a =>
      (collectChildren leaf node rest).map ((name, a) :: ·)
termination_by structural ts => ts

end

/-- **Induction over a tree of templates**, the children being members of a list. -/
@[elab_as_elim]
theorem induction {motive : TemplateTree → Prop} (leaf : ∀ text, motive (.leaf text))
    (node : ∀ children, (∀ c ∈ children, motive c.2) → motive (.node children))
    (t : TemplateTree) : motive t :=
  TemplateTree.rec (motive_1 := motive) (motive_2 := fun ts => ∀ c ∈ ts, motive c.2)
    (motive_3 := fun c => motive c.2) leaf node
    (fun _ h => absurd h List.not_mem_nil)
    (fun _ _ head tail _ h => (List.mem_cons.mp h).elim (fun heq => heq ▸ head) (tail _))
    (fun _ _ h => h) t

end TemplateTree

namespace Reference

/-! ## Templates -/

/-- The template of a text. -/
def parse (text : String) : Except TemplateError Template := Template.read ⟨Engine.file, text⟩

/-- The artifact of a text with helpers. -/
def compile (helpers : HelperSet) (text : String) : Except TemplateError Artifact :=
  (parse text).map fun t => ⟨t, helpers⟩

/-! ## Trees -/

/-- The analysis of a tree. -/
def analyze (a : Analyzer) (tree : TemplateTree) : Except TemplateError Analysis :=
  tree.collect (fun text => (parse text).map fun t => TypedTemplate.analyze a t.program) .ofChildren

/-- The analysis of a tree that has to be valid. -/
def analyzeValid (a : Analyzer) (tree : TemplateTree) : Except TemplateError Analysis :=
  (analyze a tree).bind fun r => if r.isValid then .ok r else .error (.rejected r.diagnostics)

/-- A tree that is not valid is an error. -/
def validate (a : Analyzer) (tree : TemplateTree) : Except TemplateError Unit :=
  (analyzeValid a tree).map fun _ => ()

/-- The value of a text. -/
def executeText (helpers : HelperSet) (side : SideTable Value) (data : Value) (text : String) :
    Except TemplateError Value :=
  (parse text).bind fun t => Artifact.execute ⟨t, helpers⟩ side data

/-- The value of a tree. -/
def execute (helpers : HelperSet) (side : SideTable Value) (data : Value) (tree : TemplateTree) :
    Except TemplateError Value :=
  tree.collect (executeText helpers side data) .object

/-- The value of a tree that has to be valid, together with its analysis. -/
def analyzeAndExecute (a : Analyzer) (side : SideTable Value) (data : Value) (tree : TemplateTree) :
    Except TemplateError (Analysis × Value) :=
  (analyzeValid a tree).bind fun r => (execute a.helpers side data tree).map fun v => (r, v)

end Reference

end TypedTemplate
