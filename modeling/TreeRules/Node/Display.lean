import TreeRules.Node.Basic
import TreeRules.Text.Display

/-!
Nodes as displayed values.
-/

namespace TreeRules.Node

open Text (Display)

mutual

def displayOutline : Outline Label → Display
  | .node label children =>
    .record "TreeNode"
      [("kind", .word label.kind.name), ("text", .optional (label.text.map .quote)),
        ("children", .list (displayOutlines children))]

def displayOutlines : List (Outline Label) → List Display
  | [] => []
  | child :: rest => displayOutline child :: displayOutlines rest

end

def display (node : Node) : Display := displayOutline node.outline

end TreeRules.Node
