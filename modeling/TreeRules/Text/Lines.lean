/-!
Splitting a text into lines. A line ends at a line feed, with or without a carriage return before
it; behind the last line break there is no further line unless something is written there.
-/

namespace TreeRules.Text

/-- A line from its characters, latest first, without a carriage return at its end. -/
def finishLine : List Char → List Char
  | '\r' :: rest => rest.reverse
  | line => line.reverse

/-- The lines of a text, `line` being the characters since the last break, latest first. -/
def linesFrom (line : List Char) : List Char → List (List Char)
  | [] => if line.isEmpty then [] else [line.reverse]
  | '\n' :: rest => finishLine line :: linesFrom [] rest
  | c :: rest => linesFrom (c :: line) rest

def lines (text : String) : List String :=
  (linesFrom [] text.toList).map String.ofList

end TreeRules.Text
