import TypedTemplate.Dict
import TypedTemplate.Json.Basic

/-!
# Trees of templates

* `TemplateTree`: the text of a template, or trees under names.
* `TemplateTree.ofJson?`: the tree of a JSON text or object.
-/

namespace TypedTemplate

/-- The text of a template, or trees under names. -/
inductive TemplateTree where
  | leaf (text : String)
  | node (children : List (String × TemplateTree))

namespace TemplateTree

mutual

/-- The tree of a JSON text, or of an object of such trees; of repeated members the last one
counts. -/
def ofJson? : Json → Option TemplateTree
  | .string s => some (.leaf s)
  | .object members => (ofJsonMembers? members).map fun ts => .node (Dict.ofList ts)
  | _ => none
termination_by structural j => j

/-- The trees of members, in the order of the text. -/
def ofJsonMembers? : List (String × Json) → Option (List (String × TemplateTree))
  | [] => some []
  | (k, j) :: rest =>
    match ofJson? j, ofJsonMembers? rest with
    | some t, some ts => some ((k, t) :: ts)
    | _, _ => none
termination_by structural members => members

end

end TemplateTree

end TypedTemplate
