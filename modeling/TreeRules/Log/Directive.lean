import TreeRules.Log.FieldPattern
import TreeRules.Log.Threshold

/-!
Directives: which messages of some targets are written. A directive can be restricted to messages with
a certain field, or to what happens within a span, a stretch of work with a name and values; the
messages of this library happen outside all spans.
-/

namespace TreeRules.Log

/-- A threshold for the targets that start with a text; without one, for all targets. It may ask for
a field, and it may be restricted to what happens within spans of a name. -/
structure Directive where
  target : Option String := none
  span : Option String := none
  field : Option FieldPattern := none
  threshold : Threshold
deriving DecidableEq

inductive DirectiveError where
  | malformed
  | badLevel
  | badField (fault : Text.Pattern.Fault)
deriving DecidableEq, Repr

namespace DirectiveError

def message : DirectiveError → String
  | malformed => "invalid filter directive"
  | badLevel =>
    "error parsing level filter: expected one of \"off\", \"error\", \"warn\", \"info\", " ++
      "\"debug\", \"trace\", or a number 0-5"
  | badField fault => "invalid field filter: " ++ fault.message

end DirectiveError

namespace Directive

/-!
The marks in the text of a directive are looked for in the text without the blanks around it, at
offsets in bytes. The parts between them are cut out of the whole text at the same offsets: blanks
at the start shift every part, and blanks at the end belong to the last one.
-/

/-- The characters that start at an offset from `first` on and before `last`, `offset` being that of
the first character. -/
def cutFrom (first last offset : Nat) : List Char → List Char
  | [] => []
  | c :: rest =>
    let others := cutFrom first last (offset + c.utf8Size) rest
    if first ≤ offset ∧ offset < last then c :: others else others

def cut (text : String) (first last : Nat) : List Char := cutFrom first last 0 text.toList

/-- The first of some marks: its offset, the mark, and the characters behind it. -/
def seek (marks : List Char) (offset : Nat) : List Char → Option (Nat × Char × List Char)
  | [] => none
  | c :: rest =>
    if marks.contains c then some (offset, c, rest) else seek marks (offset + c.utf8Size) rest

/-- Whether a target can start with a character: a letter, a digit or one of a few signs. -/
def canStart (c : Char) : Bool :=
  Text.isAlphanumeric c || c == '-' || c == ':' || c == '_'

/-- Reads the threshold from an offset on. Nothing there stands for everything. -/
def thresholdFrom (text : String) (first : Nat) : Except DirectiveError Threshold :=
  match String.ofList (cut text first text.utf8ByteSize) with
  | "" => .ok (some .trace)
  | level =>
    match Threshold.ofText? level with
    | some threshold => .ok threshold
    | none => .error .badLevel

/-- Reads what stands behind a span: nothing, or a threshold after an equals sign. -/
def afterSpan (text : String) (offset : Nat) : List Char → Except DirectiveError Threshold
  | [] => .ok (some .trace)
  | '=' :: _ => thresholdFrom text (offset + 1)
  | _ => .error .malformed

/-- Reads a field up to the closing brace: the pattern, the offset behind the brace, and the
characters there. -/
def fieldFrom (text : String) (first : Nat) (rest : List Char) :
    Except DirectiveError (FieldPattern × Nat × List Char) :=
  match seek ['\x7d'] first rest with
  | none => .error .malformed
  | some (last, _, rest) =>
    match cut text first last with
    | [] => .error .malformed
    | field =>
      match FieldPattern.ofText field with
      | .ok field => .ok (field, last + 1, rest)
      | .error fault => .error (.badField fault)

/-- Reads a directive from behind the opening bracket of a span. -/
def spanFrom (text : String) (target : Option String) (first : Nat) (rest : List Char) :
    Except DirectiveError Directive :=
  match seek [']', '\x7b'] first rest with
  | none => .error .malformed
  | some (last, mark, rest) => do
    let name := String.ofList (cut text first last)
    if mark = ']' then
      return { target, span := some name, threshold := ← afterSpan text (last + 1) rest }
    else
      let (field, offset, rest) ← fieldFrom text (last + 1) rest
      match rest with
      | ']' :: rest =>
        return {
          target
          span := if name = "" then none else some name
          field := some field
          threshold := ← afterSpan text (offset + 1) rest }
      | _ => throw .malformed

/-- Reads a word that stands alone: a level for all targets, or a target of which everything is
taken. -/
def ofWord (word : String) : Directive :=
  match Threshold.ofText? word with
  | some threshold => { threshold }
  | none => { target := some word, threshold := some .trace }

/-- Reads a directive: a level, a target, or a target and a level with an equals sign between them.
A target may be followed, or replaced, by a span in brackets. -/
def parse (text : String) : Except DirectiveError Directive :=
  match Text.trimBlanks text.toList with
  | [] => .error .malformed
  | '[' :: rest => spanFrom text none 1 rest
  | c :: rest =>
    if !canStart c then .error .malformed
    else
      match seek ['=', '['] c.utf8Size rest with
      | none => .ok (ofWord text)
      | some (last, mark, rest) => do
        let target := some (String.ofList (cut text 0 last))
        if mark = '[' then spanFrom text target (last + 1) rest
        else return { target, threshold := ← thresholdFrom text (last + 1) }

/-- Whether a directive is about messages wherever they happen. One that names a span, or a value of
a field, is only about what happens within spans. -/
def isUnconditional (directive : Directive) : Bool :=
  directive.span.isNone && directive.field.all (·.value.isNone)

/-- Whether a directive is about the messages of a target that have fields of the given names and
happen outside all spans. -/
def covers (directive : Directive) (target : String) (names : List String) : Bool :=
  directive.isUnconditional && directive.target.all (target.startsWith ·) &&
    directive.field.all fun field => names.contains field.name

/-- The length of the target, none at all being shorter than an empty one. -/
def reach (directive : Directive) : Nat :=
  match directive.target with
  | none => 0
  | some start => start.utf8ByteSize + 1

/-- Whether one directive is at least as specific as another: its target is longer, or it is as long
and the other one does not ask for more. -/
def isAsSpecific (directive other : Directive) : Bool :=
  other.reach < directive.reach ||
    (directive.reach == other.reach && (directive.field.isSome || other.field.isNone))

end Directive

end TreeRules.Log
