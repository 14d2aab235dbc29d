import TreeRules.Text.Pattern.Basic

/-!
Which patterns can be decided. A pattern is decided on the bytes of a text, without tables of the
characters of all scripts. So the cases of a character, and the families of digits, blanks and word
characters, are known of seven-bit characters only; and no part may stand for single bytes of a longer
character.
-/

namespace TreeRules.Text.Pattern

def isSevenBit (c : Char) : Bool := c.toNat < 0x80

/-- Whether it is known what an atom stands for. A seven-bit pattern can hold any character, but not
as a byte; a dot and the complement of a family would stand for bytes in it. -/
def Atom.isSupported (mode : Mode) : Atom → Bool
  | .char c asByte => if mode.isWide then !mode.ignoresCase else !asByte || isSevenBit c
  | .any => mode.isWide
  | .family negated => !mode.isWide && !negated
  | .edge | .wordEdge => true

namespace CharSet

mutual

/-- Whether it is known what a set stands for. The set of a seven-bit pattern has seven-bit members
only. -/
def isSupported (mode : Mode) : CharSet → Bool
  | .empty => true
  | .char c => if mode.isWide then !mode.ignoresCase else isSevenBit c
  | .range first last =>
    if mode.isWide then !mode.ignoresCase else isSevenBit first && isSevenBit last
  | .family negated => !mode.isWide && !negated
  | .named negated => if mode.isWide then !mode.ignoresCase else !negated
  | .brackets negated members => (mode.isWide || !negated) && members.isSupported mode
  | .union parts => areSupported mode parts
  | .combined left right => left.isSupported mode && right.isSupported mode

def areSupported (mode : Mode) : List CharSet → Bool
  | [] => true
  | part :: rest => part.isSupported mode && areSupported mode rest

end

end CharSet

mutual

/-- Whether it is known what all parts of a pattern stand for. -/
def isSupported : Pattern → Bool
  | .empty | .change => true
  | .atom mode part => part.isSupported mode
  | .set mode part => part.isSupported mode
  | .group inner => inner.isSupported
  | .repetition inner => inner.isSupported
  | .sequence parts => areSupported parts
  | .choice parts => areSupported parts

def areSupported : List Pattern → Bool
  | [] => true
  | part :: rest => part.isSupported && areSupported rest

end

mutual

/-- Whether a pattern looks for the edges of words in any script, which cannot be seen from single
bytes. -/
def looksForWords : Pattern → Bool
  | .empty | .change | .set .. => false
  | .atom mode part => mode.isWide && part == .wordEdge
  | .group inner => inner.looksForWords
  | .repetition inner => inner.looksForWords
  | .sequence parts => anyLooksForWords parts
  | .choice parts => anyLooksForWords parts

def anyLooksForWords : List Pattern → Bool
  | [] => false
  | part :: rest => part.looksForWords || anyLooksForWords rest

end

/-- Why a text is no pattern that can be decided. -/
inductive Fault where
  | invalid
  | wideWordEdge
deriving DecidableEq, Repr

def Fault.message : Fault → String
  | invalid => "error building NFA"
  | wideWordEdge =>
    "unsupported regex feature for DFAs: cannot build DFAs for regexes with Unicode word " ++
      "boundaries; switch to ASCII word boundaries, or heuristically enable Unicode word " ++
      "boundaries or use a different regex engine"

/-- The parts of a pattern stand this deep within each other at most. -/
def heightLimit : Nat := 250

/-- Reads a pattern that can be decided. -/
def check (text : List Char) : Except Fault Pattern :=
  match ofText? text with
  | none => .error .invalid
  | some pattern =>
    if heightLimit < pattern.height || !pattern.isSupported then .error .invalid
    else if pattern.looksForWords then .error .wideWordEdge
    else .ok pattern

end TreeRules.Text.Pattern
