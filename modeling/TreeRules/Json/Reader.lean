import TreeRules.Decimal.Scaled
import TreeRules.Json.Basic
import TreeRules.Text.Hexadecimal

/-!
Reading Json text. Every reader takes the characters that are left and gives a value and the rest,
or nothing if the characters do not start with such a value.
-/

namespace TreeRules.Json

namespace Reader

abbrev Input := List Char

def isBlank (c : Char) : Bool := c == ' ' || c == '\t' || c == '\n' || c == '\r'

def skipBlanks (input : Input) : Input := input.dropWhile isBlank

def word (expected : List Char) (input : Input) : Option Input :=
  if expected.isPrefixOf input then some (input.drop expected.length) else none

/-- Reads one code unit of four hexadecimal digits. -/
def codeUnit : Input → Option (Nat × Input)
  | a :: b :: c :: d :: rest => do
    let digits ← [a, b, c, d].mapM Text.hexValue?
    return (digits.foldl (fun value digit => value * 16 + digit) 0, rest)
  | _ => none

/-- Reads a character given by one code unit or by a pair of surrogates. -/
def codePoint (input : Input) : Option (Char × Input) := do
  let (unit, rest) ← codeUnit input
  if 0xd800 ≤ unit && unit < 0xdc00 then
    let (low, rest) ← codeUnit (← word ['\\', 'u'] rest)
    if 0xdc00 ≤ low && low < 0xe000 then
      return (Char.ofNat (0x10000 + (unit - 0xd800) * 0x400 + (low - 0xdc00)), rest)
    else none
  else if 0xdc00 ≤ unit && unit < 0xe000 then none
  else return (Char.ofNat unit, rest)

/-- Reads the character after a backslash. -/
def escaped : Input → Option (Char × Input)
  | '"' :: rest => some ('"', rest)
  | '\\' :: rest => some ('\\', rest)
  | '/' :: rest => some ('/', rest)
  | 'b' :: rest => some ('\x08', rest)
  | 'f' :: rest => some ('\x0c', rest)
  | 'n' :: rest => some ('\n', rest)
  | 'r' :: rest => some ('\r', rest)
  | 't' :: rest => some ('\t', rest)
  | 'u' :: rest => codePoint rest
  | _ => none

/-- Reads the rest of a string behind its opening quote. The bound is on the characters. -/
def stringTail (read : List Char) : Nat → Input → Option (String × Input)
  | 0, _ => none
  | _ + 1, [] => none
  | _ + 1, '"' :: rest => some (String.ofList read.reverse, rest)
  | bound + 1, '\\' :: rest => do
    let (c, rest) ← escaped rest
    stringTail (c :: read) bound rest
  | bound + 1, c :: rest => if c.toNat < 0x20 then none else stringTail (c :: read) bound rest

def string : Input → Option (String × Input)
  | '"' :: rest => stringTail [] (rest.length + 1) rest
  | _ => none

def digits (input : Input) : List Char × Input :=
  (input.takeWhile Char.isDigit, input.dropWhile Char.isDigit)

def digitValue (d : Char) : Nat := d.toNat - 48

def digitsValue (ds : List Char) : Nat :=
  ds.foldl (fun value d => value * 10 + digitValue d) 0

def fraction : Input → Option (Option (List Char) × Input)
  | '.' :: rest =>
    match digits rest with
    | ([], _) => none
    | (ds, rest) => some (some ds, rest)
  | input => some (none, input)

def signed : Input → Bool × Input
  | '-' :: rest => (true, rest)
  | '+' :: rest => (false, rest)
  | input => (false, input)

def exponent : Input → Option (Option Int × Input)
  | c :: rest =>
    if c = 'e' || c = 'E' then
      let (negative, rest) := signed rest
      match digits rest with
      | ([], _) => none
      | (ds, rest) =>
        some (some (if negative then -(digitsValue ds : Int) else digitsValue ds), rest)
    else some (none, c :: rest)
  | [] => some (none, [])

/-- The number with the given parts. A whole number that fits 64 bits is an integer; `-0` is none. -/
def numberOf (negative : Bool) (whole : List Char) (part : Option (List Char))
    (power : Option Int) : Option Json :=
  let magnitude := digitsValue whole
  let value : Int := if negative then -(magnitude : Int) else magnitude
  if part.isNone && power.isNone && fitsInteger value && !(negative && magnitude == 0) then
    some (int value)
  else do
    let decimal := Decimal.Scaled.ofDigits (whole.map digitValue) ((part.getD []).map digitValue)
      (power.getD 0)
    return float ((← decimal.toBinary?).withSign negative)

def number (input : Input) : Option (Json × Input) := do
  let (negative, input) := match input with
    | '-' :: rest => (true, rest)
    | _ => (false, input)
  let (whole, input) := digits input
  if whole.isEmpty || (whole.length != 1 && whole.head? == some '0') then none
  else
    let (part, input) ← fraction input
    let (power, input) ← exponent input
    return (← numberOf negative whole part power, input)

mutual

/-- Reads a value. The bound is on the nesting of the calls. -/
def value : Nat → Input → Option (Json × Input)
  | 0, _ => none
  | bound + 1, input =>
    match skipBlanks input with
    | 'n' :: rest => do return (null, ← word ['u', 'l', 'l'] rest)
    | 't' :: rest => do return (bool true, ← word ['r', 'u', 'e'] rest)
    | 'f' :: rest => do return (bool false, ← word ['a', 'l', 's', 'e'] rest)
    | '"' :: rest => do
      let (text, rest) ← string ('"' :: rest)
      return (str text, rest)
    | '[' :: rest =>
      match skipBlanks rest with
      | ']' :: rest => some (arr [], rest)
      | rest => do
        let (found, rest) ← items bound rest
        return (arr found, rest)
    | '\x7b' :: rest =>
      match skipBlanks rest with
      | '\x7d' :: rest => some (obj [], rest)
      | rest => do
        let (found, rest) ← members bound rest
        return (object found, rest)
    | input => number input

/-- Reads the items of an array up to its closing bracket. -/
def items : Nat → Input → Option (List Json × Input)
  | 0, _ => none
  | bound + 1, input => do
    let (item, rest) ← value bound input
    match skipBlanks rest with
    | ',' :: rest =>
      let (others, rest) ← items bound rest
      return (item :: others, rest)
    | ']' :: rest => return ([item], rest)
    | _ => none

/-- Reads the fields of an object up to its closing brace. -/
def members : Nat → Input → Option (Fields × Input)
  | 0, _ => none
  | bound + 1, input => do
    let (name, rest) ← string (skipBlanks input)
    let (held, rest) ← value bound (← word [':'] (skipBlanks rest))
    match skipBlanks rest with
    | ',' :: rest =>
      let (others, rest) ← members bound rest
      return ((name, held) :: others, rest)
    | '\x7d' :: rest => return ([(name, held)], rest)
    | _ => none

end

end Reader

/-- The value of a text that holds one Json value and blanks around it. -/
def ofText? (text : String) : Option Json := do
  let input := text.toList
  let (found, rest) ← Reader.value (2 * input.length + 2) input
  if (Reader.skipBlanks rest).isEmpty then some found else none

end TreeRules.Json
