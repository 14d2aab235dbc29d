import TreeRules.Text.Blank

/-!
Modes of a pattern: how the text behind them is read, and what it stands for. A pattern can change
its modes between parentheses, for the rest of a group or for a group of its own.
-/

namespace TreeRules.Text.Pattern

/-- What is left of the text of a pattern. -/
abbrev Input := List Char

/-- The modes that decide which patterns there are. -/
structure Mode where
  /-- Letters stand for those of the other case, too. -/
  ignoresCase : Bool := false
  /-- Characters are those of all scripts; else they are the seven-bit ones. -/
  isWide : Bool := true
  /-- Blanks and comments between the parts do not count. -/
  isSpaced : Bool := false
deriving DecidableEq

namespace Mode

/-- The letters of the modes. Those for lines, for line ends, for what a dot stands for and for short
repetitions do not change which patterns there are. -/
def letters : List Char := ['i', 'm', 's', 'U', 'u', 'R', 'x']

/-- Whether a text changes modes: letters of modes and one minus sign at most, none of them twice,
and not the sign as the last one. -/
def isChange (change : List Char) : Bool :=
  change.all (fun c => c == '-' || letters.contains c) &&
    change.all (fun c => change.count c == 1) &&
    change.getLast? != some '-'

/-- The modes after a change: letters before the minus sign switch on, letters behind it off. -/
def changed (mode : Mode) (change : List Char) : Mode :=
  let isOn (letter : Char) (before : Bool) : Bool :=
    if (change.takeWhile (· != '-')).contains letter then true
    else !change.contains letter && before
  { ignoresCase := isOn 'i' mode.ignoresCase
    isWide := isOn 'u' mode.isWide
    isSpaced := isOn 'x' mode.isSpaced }

@[simp]
theorem changed_nil (mode : Mode) : mode.changed [] = mode := by
  simp [changed]

end Mode

/-- Drops blanks and comments. A comment goes from a number sign to the end of the line. -/
def dropSpace (inComment : Bool) : Input → Input
  | [] => []
  | c :: rest =>
    if inComment then dropSpace (c != '\n') rest
    else if c == '#' then dropSpace true rest
    else if isBlank c then dropSpace false rest
    else c :: rest

/-- Drops what does not count before the next part. -/
def Mode.skip (mode : Mode) (input : Input) : Input :=
  if mode.isSpaced then dropSpace false input else input

end TreeRules.Text.Pattern
