import TreeRules.Text.Combining
import TreeRules.Text.Invisible

/-!
Quoted text: double quotes around the text, with a backslash before quotes and backslashes, short
escapes for the usual controls, and the code point in hexadecimal for every other character that
cannot be seen standing alone.
-/

namespace TreeRules.Text.Quoted

def openBrace : Char := '\x7b'

def closeBrace : Char := '\x7d'

/-- Whether a character stands for itself. -/
def isPlain (c : Char) : Bool :=
  c != '"' && c != '\\' && !isInvisible c && !isCombining c

/-- The letter that stands for a character after a backslash. -/
def shortEscape (c : Char) : Option Char :=
  if c = '\x00' then some '0'
  else if c = '\t' then some 't'
  else if c = '\n' then some 'n'
  else if c = '\r' then some 'r'
  else if c = '"' then some '"'
  else if c = '\\' then some '\\'
  else none

/-- The code point of a character in lower-case hexadecimal, without leading zeros. -/
def hexDigits (c : Char) : List Char := Nat.toDigits 16 c.toNat

def encodeChar (c : Char) : List Char :=
  match shortEscape c with
  | some letter => ['\\', letter]
  | none =>
    if isPlain c then [c]
    else '\\' :: 'u' :: openBrace :: (hexDigits c ++ [closeBrace])

def encode (text : List Char) : List Char :=
  '"' :: (text.flatMap encodeChar ++ ['"'])

end Quoted

def quoted (text : String) : String := String.ofList (Quoted.encode text.toList)

end TreeRules.Text
