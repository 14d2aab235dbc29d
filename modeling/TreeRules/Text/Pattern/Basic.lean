import TreeRules.Text.Pattern.Token

/-!
Patterns: descriptions of texts by atoms and sets of characters, which are grouped, repeated, put in
sequence and offered as choices.
-/

namespace TreeRules.Text

inductive Pattern where
  | empty
  /-- A change of modes, which stands for the empty text. -/
  | change
  | atom (mode : Pattern.Mode) (atom : Pattern.Atom)
  | set (mode : Pattern.Mode) (set : Pattern.CharSet)
  | group (inner : Pattern)
  | repetition (inner : Pattern)
  | sequence (parts : List Pattern)
  | choice (parts : List Pattern)

namespace Pattern

mutual

/-- How deep the parts stand within each other. -/
def height : Pattern → Nat
  | .empty | .change | .atom .. => 0
  | .set _ members => members.height
  | .group inner => inner.height + 1
  | .repetition inner => inner.height + 1
  | .sequence parts => heights parts + 1
  | .choice parts => heights parts + 1

def heights : List Pattern → Nat
  | [] => 0
  | part :: rest => Nat.max part.height (heights rest)

end

/-- The sequence of some parts, the last one first. -/
def ofParts : List Pattern → Pattern
  | [] => .empty
  | [part] => part
  | parts => .sequence parts.reverse

/-- A group that is not closed yet, or the whole pattern: the choices so far and the parts of the
current one, the last ones first. -/
structure Level where
  choices : List Pattern := []
  parts : List Pattern := []

namespace Level

def push (level : Level) (part : Pattern) : Level :=
  { level with parts := part :: level.parts }

def nextChoice (level : Level) : Level :=
  { choices := ofParts level.parts :: level.choices }

def close (level : Level) : Pattern :=
  match level.choices with
  | [] => ofParts level.parts
  | choices => .choice (ofParts level.parts :: choices).reverse

end Level

/-- Puts tokens together within a level that stands in `outer` ones. A repetition needs a part to
repeat, which a change of modes is not. -/
def assemble (outer : List Level) (level : Level) : List Token → Option Pattern
  | [] => if outer.isEmpty then some level.close else none
  | .atom mode part :: rest => assemble outer (level.push (.atom mode part)) rest
  | .set mode part :: rest => assemble outer (level.push (.set mode part)) rest
  | .change :: rest => assemble outer (level.push .change) rest
  | .opening :: rest => assemble (level :: outer) {} rest
  | .closing :: rest =>
    match outer with
    | [] => none
    | parent :: outer => assemble outer (parent.push (.group level.close)) rest
  | .bar :: rest => assemble outer level.nextChoice rest
  | .times :: rest =>
    match level.parts with
    | [] | .change :: _ => none
    | part :: parts => assemble outer { level with parts := .repetition part :: parts } rest

def ofText? (text : List Char) : Option Pattern := (Token.read text).bind (assemble [] {})

end Pattern

end TreeRules.Text
