import TypedTemplate.Cache
import TypedTemplate.Engine.Settings
import TypedTemplate.Engine.Tree
import TypedTemplate.Execution
import TypedTemplate.Helper.Catalogue
import TypedTemplate.Text.Quoted

/-!
# Engines

An engine keeps the templates it has read and the artifacts it has bound, so that a text is read
once for many uses. Changing the helpers drops every artifact, since those are bound to the helpers
of before. Every operation gives its answer and the engine behind it.

* `Engine`: settings, helpers and caches.
* `Engine.parse`, `Engine.compile`: templates and artifacts of a text.
* `Engine.analyze`, `Engine.validate`, `Engine.execute`, `Engine.analyzeAndExecute`: over trees of
  templates, in the order of their names; the first error ends the whole.
* `Engine.register`, `Engine.unregister`: changing the helpers.
-/

namespace TypedTemplate

/-- A template that an engine has read. -/
structure Parsed where
  template : Template
  /-- How many templates the engine had read before. It tells apart two readings of one text. -/
  number : Nat

/-- What keeps templates and artifacts. -/
structure Engine where
  settings : Settings
  helpers : HelperSet
  /-- The templates read last, by text. -/
  parsed : Cache Parsed
  /-- The artifacts bound last, by text. -/
  compiled : Cache Artifact
  /-- How many templates have been read. -/
  readings : Nat

/-- An answer, and the engine behind it. -/
abbrev Answered (α : Type) := Except TemplateError α × Engine

namespace Engine

/-- The engine of settings. -/
def create (s : Settings) : Except TemplateError Engine :=
  match Cache.create s.parsedCapacity with
  | .error e => .error e
  | .ok parsed =>
    match Cache.create s.compiledCapacity with
    | .error e => .error e
    | .ok compiled =>
      .ok ⟨s, if s.builtinHelpers then .builtins else [], parsed, compiled, 0⟩

/-- The engine of the standard settings. -/
def standard : Engine :=
  ⟨.standard, .builtins, .empty Settings.standard.parsedCapacity (by decide),
    .empty Settings.standard.compiledCapacity (by decide), 0⟩

/-! ## Templates -/

/-- The name under which an engine reads templates. -/
def file : String := "<template>"

/-- The template of a text, from the cache where it is there. -/
def parse (text : String) (e : Engine) : Answered Parsed :=
  match e.parsed.get text with
  | (some p, parsed) => (.ok p, { e with parsed })
  | (none, _) =>
    match Template.read ⟨file, text⟩ with
    | .error x => (.error x, e)
    | .ok template =>
      let p : Parsed := ⟨template, e.readings⟩
      (.ok p, { e with parsed := e.parsed.put text p, readings := e.readings + 1 })

/-- The artifact of a text with the helpers of now. It is not kept. -/
def compile (text : String) (e : Engine) : Answered Artifact :=
  match e.parse text with
  | (.error x, e) => (.error x, e)
  | (.ok p, e) => (.ok ⟨p.template, e.helpers⟩, e)

end Engine

/-- The artifact of a key from a cache; one that is not there is put there. -/
def Cache.artifact (key : String) (fresh : Artifact) (c : Cache Artifact) :
    Artifact × Cache Artifact :=
  match c.get key with
  | (some a, c) => (a, c)
  | (none, _) => (fresh, c.put key fresh)

/-- The value of a template under a key of a cache of artifacts. Only a template that has to be
rendered asks the cache. -/
def Template.executeCached (t : Template) (key : String) (helpers : HelperSet)
    (side : SideTable Value) (data : Value) (c : Cache Artifact) :
    Except TemplateError Value × Cache Artifact :=
  match t.program.direct? side data with
  | some v => (.ok v, c)
  | none =>
    let (a, c) := c.artifact key ⟨t, helpers⟩
    (t.program.tier.run a side data, c)

namespace Engine

/-! ## Analysis -/

/-- The analysis of a text. -/
def analyzeText (schema : Schema) (side : SideTable Schema) (text : String) (e : Engine) :
    Answered Analysis :=
  match e.parse text with
  | (.error x, e) => (.error x, e)
  | (.ok p, e) => (.ok (TypedTemplate.analyze ⟨⟨side, schema⟩, e.helpers⟩ p.template.program), e)

end Engine

/-- The analysis of an object from those under its names. -/
def Analysis.ofChildren (children : List (String × Analysis)) : Analysis :=
  ⟨.ofProperties (children.map fun c => (c.1, c.2.schema)),
    children.flatMap fun c => c.2.diagnostics⟩

namespace Engine

mutual

/-- The analysis of a tree. -/
def analyze (schema : Schema) (side : SideTable Schema) :
    TemplateTree → Engine → Answered Analysis
  | .leaf text, e => e.analyzeText schema side text
  | .node children, e =>
    match analyzeChildren schema side children e with
    | (.error x, e) => (.error x, e)
    | (.ok rs, e) => (.ok (.ofChildren rs), e)
termination_by structural t => t

/-- The analyses of trees under names. -/
def analyzeChildren (schema : Schema) (side : SideTable Schema) :
    List (String × TemplateTree) → Engine → Answered (List (String × Analysis))
  | [], e => (.ok [], e)
  | (name, child) :: rest, e =>
    match analyze schema side child e with
    | (.error x, e) => (.error x, e)
    | (.ok r, e) =>
      match analyzeChildren schema side rest e with
      | (.error x, e) => (.error x, e)
      | (.ok rs, e) => (.ok ((name, r) :: rs), e)
termination_by structural ts => ts

end

/-- The analysis of a tree that has to be valid. -/
def analyzeValid (schema : Schema) (side : SideTable Schema) (tree : TemplateTree) (e : Engine) :
    Answered Analysis :=
  match e.analyze schema side tree with
  | (.error x, e) => (.error x, e)
  | (.ok r, e) => if r.isValid then (.ok r, e) else (.error (.rejected r.diagnostics), e)

/-- A tree that is not valid is an error. -/
def validate (schema : Schema) (side : SideTable Schema) (tree : TemplateTree) (e : Engine) :
    Answered Unit :=
  match e.analyzeValid schema side tree with
  | (.error x, e) => (.error x, e)
  | (.ok _, e) => (.ok (), e)

/-! ## Execution -/

/-- The value of a text. -/
def executeText (side : SideTable Value) (data : Value) (text : String) (e : Engine) :
    Answered Value :=
  match e.parse text with
  | (.error x, e) => (.error x, e)
  | (.ok p, e) =>
    let (answer, compiled) := p.template.executeCached text e.helpers side data e.compiled
    (answer, { e with compiled })

mutual

/-- The value of a tree: an object of the same shape. -/
def execute (side : SideTable Value) (data : Value) : TemplateTree → Engine → Answered Value
  | .leaf text, e => e.executeText side data text
  | .node children, e =>
    match executeChildren side data children e with
    | (.error x, e) => (.error x, e)
    | (.ok vs, e) => (.ok (.object vs), e)
termination_by structural t => t

/-- The values of trees under names. -/
def executeChildren (side : SideTable Value) (data : Value) :
    List (String × TemplateTree) → Engine → Answered (List (String × Value))
  | [], e => (.ok [], e)
  | (name, child) :: rest, e =>
    match execute side data child e with
    | (.error x, e) => (.error x, e)
    | (.ok v, e) =>
      match executeChildren side data rest e with
      | (.error x, e) => (.error x, e)
      | (.ok vs, e) => (.ok ((name, v) :: vs), e)
termination_by structural ts => ts

end

/-- The value of a tree that has to be valid, together with its analysis. -/
def analyzeAndExecute (schema : Schema) (schemas : SideTable Schema) (side : SideTable Value)
    (data : Value) (tree : TemplateTree) (e : Engine) : Answered (Analysis × Value) :=
  match e.analyzeValid schema schemas tree with
  | (.error x, e) => (.error x, e)
  | (.ok r, e) =>
    match e.execute side data tree with
    | (.error x, e) => (.error x, e)
    | (.ok v, e) => (.ok (r, v), e)

/-! ## Helpers -/

/-- The engine with other helpers. No artifact stays, since each is bound to the helpers of
before. -/
def withHelpers (helpers : HelperSet) (e : Engine) : Engine :=
  { e with helpers, compiled := e.compiled.clear }

/-- Add a helper, or replace the one of its name. -/
def register (h : Helper) (e : Engine) : Engine := e.withHelpers (e.helpers.add h)

/-- Remove the helper of a name; the answer says whether there was one. -/
def unregister (name : String) (e : Engine) : Bool × Engine :=
  if Dict.contains name e.helpers then (true, e.withHelpers (Dict.erase name e.helpers))
  else (false, e)

/-- There is a helper of a name. -/
def hasHelper (name : String) (e : Engine) : Bool := Dict.contains name e.helpers

/-- The names of the helpers, in order. -/
def helperNames (e : Engine) : List String := Dict.keys e.helpers

/-! ## Caches -/

/-- The engine with nothing kept. -/
def clearCaches (e : Engine) : Engine :=
  { e with parsed := e.parsed.clear, compiled := e.compiled.clear }

/-- The engine on one line. -/
def shown (e : Engine) : String :=
  "Engine \x7b config: " ++ e.settings.shown ++ ", ast_cache: " ++ e.parsed.shown ++
    ", helpers: [" ++ ", ".intercalate (e.helperNames.map Text.quoted) ++ "] \x7d"

end Engine

end TypedTemplate
