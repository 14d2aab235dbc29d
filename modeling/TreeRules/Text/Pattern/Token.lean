import TreeRules.Text.Alphabetic
import TreeRules.Text.Pattern.CharSet

/-!
Tokens of a pattern: its atoms and sets, each with the mode it stands in, and the signs between them.
-/

namespace TreeRules.Text.Pattern

inductive Token where
  | atom (mode : Mode) (atom : Atom)
  | set (mode : Mode) (set : CharSet)
  /-- A change of modes for the rest of a group. -/
  | change
  | opening
  | closing
  | bar
  /-- The part before it stands any number of times, at least once, or once at most. -/
  | times

namespace Token

/-- Whether a text can be the name of a group: a letter or a low line, then also digits, points and
brackets. -/
def isGroupName : List Char → Bool
  | [] => false
  | first :: rest =>
    (first == '_' || isAlphabetic first) &&
      rest.all fun c => c == '_' || c == '.' || c == '[' || c == ']' || isAlphanumeric c

/-- What holds at a place in a pattern: the mode there, the modes around the groups that stand open,
the innermost first, and the names of groups so far. -/
structure Scope where
  mode : Mode := {}
  outer : List Mode := []
  names : List (List Char) := []

def Scope.enter (scope : Scope) (mode : Mode) : Scope :=
  { scope with mode, outer := scope.mode :: scope.outer }

/-- Reads the name of a group up to the closing angle bracket. No two groups have the same name. -/
def readName (scope : Scope) (input : Input) : Option (Token × Scope × Input) :=
  let name := input.takeWhile (· != '>')
  match input.dropWhile (· != '>') with
  | [] => none
  | _ :: rest =>
    if isGroupName name && !scope.names.contains name then
      some (.opening, { scope.enter scope.mode with names := name :: scope.names }, rest)
    else none

/-- Reads changes of modes: up to a colon for a group of their own, else up to the closing
parenthesis. -/
def readChange (scope : Scope) (input : Input) : Option (Token × Scope × Input) :=
  let change := input.takeWhile fun c => c != ':' && c != ')'
  let mode := scope.mode.changed change
  if !Mode.isChange change then none
  else
    match input.drop change.length with
    | [] => none
    | ':' :: rest => some (.opening, scope.enter mode, rest)
    | _ :: rest => if change.isEmpty then none else some (.change, { scope with mode }, rest)

/-- Reads what stands behind an opening parenthesis: a change of modes, or the start of a group,
perhaps with a name or modes of its own. -/
def readOpening (scope : Scope) (input : Input) : Option (Token × Scope × Input) :=
  match scope.mode.skip input with
  | '?' :: 'P' :: '<' :: rest | '?' :: '<' :: rest => readName scope rest
  | '?' :: rest => readChange scope rest
  | rest => some (.opening, scope.enter scope.mode, rest)

/-- Leaves a group, if one stands open. -/
def readClosing (scope : Scope) (input : Input) : Option (Token × Scope × Input) :=
  match scope.outer with
  | [] => none
  | mode :: outer => some (.closing, { scope with mode, outer }, input)

/-- Reads a token. The bound is on the characters. Patterns stand between braces and hold no closing
one, so that a count of repetitions is never closed. -/
def readOne (scope : Scope) (bound : Nat) : Input → Option (Token × Scope × Input)
  | '(' :: rest => readOpening scope rest
  | ')' :: rest => readClosing scope rest
  | '|' :: rest => some (.bar, scope, rest)
  | '[' :: rest =>
    (CharSet.read scope.mode bound rest).map fun (part, rest) => (.set scope.mode part, scope, rest)
  | '*' :: rest | '+' :: rest | '?' :: rest =>
    some (.times, scope, if rest.head? == some '?' then rest.drop 1 else rest)
  | '\x7b' :: _ => none
  | '.' :: rest => some (.atom scope.mode .any, scope, rest)
  | '^' :: rest | '$' :: rest => some (.atom scope.mode .edge, scope, rest)
  | input =>
    (CharSet.readAtom scope.mode input).map fun (part, rest) =>
      (.atom scope.mode part, scope, rest)

/-- Reads the tokens of a text behind those that are done. The bound is on the characters. -/
def readAll (done : List Token) (scope : Scope) : Nat → Input → Option (List Token)
  | 0, _ => none
  | bound + 1, input =>
    match scope.mode.skip input with
    | [] => some done.reverse
    | input =>
      match readOne scope bound input with
      | none => none
      | some (token, scope, rest) => readAll (token :: done) scope bound rest

def read (input : Input) : Option (List Token) := readAll [] {} (input.length + 1) input

end Token

end TreeRules.Text.Pattern
