import TreeRules.Text.Hexadecimal
import TreeRules.Text.Pattern.Mode

/-!
Atoms: the parts of a pattern that are written in one piece.
-/

namespace TreeRules.Text.Pattern

inductive Atom where
  /-- A character. It can be written as a byte, with two hexadecimal digits. -/
  | char (c : Char) (asByte : Bool)
  /-- Any character but a line end. -/
  | any
  /-- The digits, the blanks or the characters of words, or all others. -/
  | family (negated : Bool)
  /-- A place at the start or the end of the text or of a line. -/
  | edge
  /-- A place at the start or the end of a word, or at none. -/
  | wordEdge
deriving DecidableEq

namespace Atom

/-- Reads the number that goes on with `count` hexadecimal digits. -/
def hexNumber (mode : Mode) : Nat → Nat → Input → Option (Nat × Input)
  | 0, value, input => some (value, input)
  | count + 1, value, input =>
    match mode.skip input with
    | [] => none
    | c :: rest => (hexValue? c).bind fun digit => hexNumber mode count (value * 16 + digit) rest

/-- Reads a character given by its number in `count` hexadecimal digits. -/
def hexChar (mode : Mode) (count : Nat) (asByte : Bool) (input : Input) :
    Option (Atom × Input) := do
  let (value, rest) ← hexNumber mode count 0 input
  if value.isValidChar then return (.char (Char.ofNat value) asByte, rest) else none

/-- Reads what stands behind a backslash. Signs stand for themselves; most letters have a meaning of
their own or none. -/
def escaped (mode : Mode) : Input → Option (Atom × Input)
  | [] => none
  | c :: rest =>
    match c with
    | 'x' => hexChar mode 2 true rest
    | 'u' => hexChar mode 4 false rest
    | 'U' => hexChar mode 8 false rest
    | 'd' | 's' | 'w' => some (.family false, rest)
    | 'D' | 'S' | 'W' => some (.family true, rest)
    | 'A' | 'z' => some (.edge, rest)
    | 'b' | 'B' | '<' | '>' => some (.wordEdge, rest)
    | 'a' => some (.char '\x07' false, rest)
    | 'f' => some (.char '\x0c' false, rest)
    | 't' => some (.char '\t' false, rest)
    | 'n' => some (.char '\n' false, rest)
    | 'r' => some (.char '\r' false, rest)
    | 'v' => some (.char '\x0b' false, rest)
    | c => if c.toNat < 0x80 && !c.isAlphanum then some (.char c false, rest) else none

end Atom

end TreeRules.Text.Pattern
