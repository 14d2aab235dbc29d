import TreeRules.Text.Pattern.Atom

/-!
Sets of characters between brackets: characters, ranges, families and sets within the set, put
together or combined by operators.
-/

namespace TreeRules.Text.Pattern

inductive CharSet where
  | empty
  | char (c : Char)
  | range (first last : Char)
  /-- One of the families of `\d`, `\s` and `\w`, or its complement. -/
  | family (negated : Bool)
  /-- A seven-bit family that is given by its name, or its complement. -/
  | named (negated : Bool)
  | brackets (negated : Bool) (members : CharSet)
  | union (parts : List CharSet)
  /-- What an operator makes of two sets: their intersection or one of their differences. -/
  | combined (left right : CharSet)

namespace CharSet

mutual

/-- How deep brackets, unions and operators stand within each other. -/
def height : CharSet → Nat
  | .empty | .char _ | .range .. | .family _ | .named _ => 0
  | .brackets _ members => members.height + 1
  | .union parts => heights parts + 1
  | .combined left right => Nat.max left.height right.height + 1

def heights : List CharSet → Nat
  | [] => 0
  | part :: rest => Nat.max part.height (heights rest)

end

/-- The set with the given parts, the last one first. -/
def ofParts : List CharSet → CharSet
  | [] => .empty
  | [part] => part
  | parts => .union parts.reverse

def familyNames : List String :=
  ["alnum", "alpha", "ascii", "blank", "cntrl", "digit", "graph", "lower", "print", "punct", "space",
    "upper", "word", "xdigit"]

/-- Reads a named family behind its opening bracket: the name between colons, a circumflex before it
for the complement, and the closing bracket. -/
def readNamed? : Input → Option (CharSet × Input)
  | ':' :: rest =>
    let negated := rest.head? == some '^'
    let rest := if negated then rest.drop 1 else rest
    match rest.dropWhile (· != ':') with
    | ':' :: ']' :: behind =>
      if familyNames.contains (String.ofList (rest.takeWhile (· != ':'))) then
        some (.named negated, behind)
      else none
    | _ => none
  | _ => none

/-- Reads a character, or what a backslash makes of one. -/
def readAtom (mode : Mode) : Input → Option (Atom × Input)
  | [] => none
  | '\\' :: rest => Atom.escaped mode rest
  | c :: rest => some (.char c false, rest)

/-- The set with one atom. Places are in no set. -/
def ofAtom? : Atom → Option CharSet
  | .char c _ => some (.char c)
  | .family negated => some (.family negated)
  | .any | .edge | .wordEdge => none

/-- The character that decides whether a minus sign before it makes a range. Of the space between
them, it goes past blanks and the sign of one comment. -/
def beyondMinus? (mode : Mode) (input : Input) : Option Char :=
  if mode.isSpaced then
    match input.dropWhile isBlank with
    | '#' :: rest => (rest.dropWhile isBlank).head?
    | rest => rest.head?
  else input.head?

/-- Reads a range, a character or a family. A minus sign before a closing bracket or before another
minus sign makes no range. -/
def readPart (mode : Mode) (input : Input) : Option (CharSet × Input) := do
  let (first, rest) ← readAtom mode input
  match mode.skip rest with
  | '-' :: rest =>
    match beyondMinus? mode rest with
    | some ']' | some '-' => return (← ofAtom? first, '-' :: rest)
    | _ =>
      let (last, rest) ← readAtom mode (mode.skip rest)
      match first, last with
      | .char first _, .char last _ =>
        if first ≤ last then return (.range first last, rest) else none
      | _, _ => none
  | rest => return (← ofAtom? first, rest)

/-- An opened bracket: whether the set is the complement of its members, what the operators so far
have made, and the parts since the last operator, the last one first. -/
structure Bracket where
  negated : Bool
  left : Option CharSet := none
  parts : List CharSet

namespace Bracket

def members (bracket : Bracket) : CharSet :=
  match bracket.left with
  | none => ofParts bracket.parts
  | some left => .combined left (ofParts bracket.parts)

def push (bracket : Bracket) (part : CharSet) : Bracket :=
  { bracket with parts := part :: bracket.parts }

/-- What stands so far becomes the left side of an operator. -/
def operator (bracket : Bracket) : Bracket :=
  { bracket with left := some bracket.members, parts := [] }

def close (bracket : Bracket) : CharSet := .brackets bracket.negated bracket.members

end Bracket

/-- Reads minus signs that stand for themselves, as parts. The bound is on the characters. -/
def readMinuses (mode : Mode) (parts : List CharSet) : Nat → Input → List CharSet × Input
  | 0, input => (parts, input)
  | bound + 1, input =>
    match mode.skip input with
    | '-' :: rest => readMinuses mode (.char '-' :: parts) bound rest
    | input => (parts, input)

/-- Reads what stands behind an opening bracket: a circumflex, minus signs, and without these a
closing bracket, which is the first character of the set then. -/
def readOpening (mode : Mode) (bound : Nat) (input : Input) : Bracket × Input :=
  let input := mode.skip input
  let negated := input.head? == some '^'
  let input := if negated then input.drop 1 else input
  match readMinuses mode [] bound input with
  | ([], ']' :: rest) => ({ negated, parts := [.char ']'] }, rest)
  | (parts, rest) => ({ negated, parts }, rest)

/-- Reads on within a bracket that stands in `outer` ones. The bound is on the characters. -/
def readFrom (mode : Mode) (outer : List Bracket) (bracket : Bracket) :
    Nat → Input → Option (CharSet × Input)
  | 0, _ => none
  | bound + 1, input =>
    match mode.skip input with
    | [] => none
    | '[' :: rest =>
      match readNamed? rest with
      | some (part, rest) => readFrom mode outer (bracket.push part) bound rest
      | none =>
        let (inner, rest) := readOpening mode bound rest
        readFrom mode (bracket :: outer) inner bound rest
    | ']' :: rest =>
      match outer with
      | [] => some (bracket.close, rest)
      | parent :: outer => readFrom mode outer (parent.push bracket.close) bound rest
    | '&' :: '&' :: rest | '-' :: '-' :: rest | '~' :: '~' :: rest =>
      readFrom mode outer bracket.operator bound rest
    | input => do
      let (part, rest) ← readPart mode input
      readFrom mode outer (bracket.push part) bound rest

/-- Reads a set behind its opening bracket. The bound is on the characters. -/
def read (mode : Mode) (bound : Nat) (input : Input) : Option (CharSet × Input) :=
  let (bracket, rest) := readOpening mode bound input
  readFrom mode [] bracket bound rest

end CharSet

end TreeRules.Text.Pattern
