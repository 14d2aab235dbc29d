import TreeRules.Json.Basic
import TreeRules.Node.Basic

/-!
Nodes as Json objects. A node without text has no `text` field and a node without children no
`children` field.
-/

namespace TreeRules.Node

/-- The fields of a node, given the values of its children. -/
def jsonFields (label : Label) (children : List Json) : Json.Fields :=
  (if children.isEmpty then [] else [("children", .arr children)]) ++
    ("kind", .str label.kind.name) ::
      match label.text with
      | none => []
      | some text => [("text", .str text)]

mutual

def jsonOfOutline : Outline Label → Json
  | .node label children => .obj (jsonFields label (jsonOfOutlines children))

def jsonOfOutlines : List (Outline Label) → List Json
  | [] => []
  | child :: rest => jsonOfOutline child :: jsonOfOutlines rest

end

def toJson (node : Node) : Json := jsonOfOutline node.outline

end TreeRules.Node
