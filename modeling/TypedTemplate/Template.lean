import TypedTemplate.Error
import TypedTemplate.Program.Assembly
import TypedTemplate.Render.Basic

/-!
# Templates

* `Template`: a source and its program.
* `Template.read`: the template of a source.
* `Artifact`: a template bound to the helpers it may call. It never looks at any others, so it stays
  what it is when helpers change elsewhere.
* `Artifact.render`: the text of an artifact over data.
-/

namespace TypedTemplate

/-- A source and its program. -/
structure Template where
  source : Source
  program : Program

/-- The template of a source. -/
def Template.read (source : Source) : Except TemplateError Template :=
  match readProgram source.text with
  | .ok program => .ok ⟨source, program⟩
  | .error fault => .error (.malformed source fault)

/-- A template bound to the helpers it may call. -/
structure Artifact where
  template : Template
  helpers : HelperSet

/-- The text of an artifact over the data and its side sources. -/
def Artifact.render (a : Artifact) (side : SideTable Value) (data : Value) : Rendered String :=
  Renderer.render ⟨⟨side, data⟩, a.helpers⟩ a.template.program

end TypedTemplate
