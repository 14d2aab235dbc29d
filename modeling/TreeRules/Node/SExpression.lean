import TreeRules.Log.Message
import TreeRules.Node.Basic
import TreeRules.Text.Quoted

/-!
The S-expression of a node: its kind, its quoted text if it has one, and its children, in
parentheses. Compact expressions stand on one line; indented ones give every child a line of its
own, two spaces further in than its parent.
-/

namespace TreeRules

inductive Layout where
  | compact | indented
deriving DecidableEq, Repr

namespace SExpression

/-- What stands before a child that lies `depth` levels below the root. -/
def separator (depth : Nat) : Layout → List Char
  | .compact => [' ']
  | .indented => '\n' :: List.replicate (2 * depth) ' '

def heading (label : Label) : List Char :=
  label.kind.name.toList ++
    match label.text with
    | none => []
    | some text => ' ' :: Text.Quoted.encode text.toList

mutual

/-- Writes the expression of a tree that lies `depth` levels below the root, before `rest`. -/
def write (layout : Layout) (depth : Nat) : Outline Label → List Char → List Char
  | .node label children, rest =>
    '(' :: (heading label ++ writeAll layout (depth + 1) children (')' :: rest))

def writeAll (layout : Layout) (depth : Nat) : List (Outline Label) → List Char → List Char
  | [], rest => rest
  | child :: others, rest =>
    separator depth layout ++ write layout depth child (writeAll layout depth others rest)

end

/-- The expression of a tree that lies `depth` levels below the root. -/
def chars (layout : Layout) (depth : Nat) (tree : Outline Label) : List Char :=
  write layout depth tree []

mutual

theorem write_eq_append (layout : Layout) (depth : Nat) (tree : Outline Label)
    (rest : List Char) : write layout depth tree rest = chars layout depth tree ++ rest := by
  match tree with
  | .node label children =>
    simp [chars, write, writeAll_eq_append layout (depth + 1) children (')' :: rest),
      writeAll_eq_append layout (depth + 1) children [')']]

theorem writeAll_eq_append (layout : Layout) (depth : Nat) (children : List (Outline Label))
    (rest : List Char) :
    writeAll layout depth children rest =
      (children.flatMap fun child => separator depth layout ++ chars layout depth child) ++
        rest := by
  match children with
  | [] => rfl
  | child :: others =>
    simp [writeAll, write_eq_append layout depth child,
      writeAll_eq_append layout depth others rest]

end

/-- An expression is its heading and the expressions of its children, in parentheses. -/
theorem chars_node (layout : Layout) (depth : Nat) (label : Label)
    (children : List (Outline Label)) :
    chars layout depth (.node label children) =
      '(' :: (heading label ++
        (children.flatMap fun child =>
          separator (depth + 1) layout ++ chars layout (depth + 1) child) ++ [')']) := by
  simp [chars, write, writeAll_eq_append]

end SExpression

namespace Node

def format (layout : Layout) (node : Node) : String :=
  String.ofList (SExpression.chars layout 0 node.outline)

def formatMessage (layout : Layout) (node : Node) : Log.Message :=
  .formatted (layout == .indented) (node.format layout)

end Node

end TreeRules
