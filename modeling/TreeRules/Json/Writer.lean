import TreeRules.Decimal.Shortest
import TreeRules.Json.Basic

/-!
The one-line text of a Json value, in seven-bit characters.
-/

namespace TreeRules.Json

namespace Writer

/-- Four lower-case hexadecimal digits. -/
def hexUnit (unit : Nat) : List Char :=
  let digits := Nat.toDigits 16 unit
  List.replicate (4 - digits.length) '0' ++ digits

/-- A character by its code units: one, or two beyond the first sixteen bits. -/
def escapeUnits (c : Char) : List Char :=
  if c.toNat < 0x10000 then '\\' :: 'u' :: hexUnit c.toNat
  else
    let offset := c.toNat - 0x10000
    '\\' :: 'u' :: hexUnit (0xd800 + offset / 0x400) ++
      '\\' :: 'u' :: hexUnit (0xdc00 + offset % 0x400)

def escapeChar (c : Char) : List Char :=
  if c = '"' || c = '\\' then ['\\', c]
  else if 0x20 ≤ c.toNat && c.toNat < 0x7f then [c]
  else escapeUnits c

def string (text : String) : String :=
  String.ofList ('"' :: (text.toList.flatMap escapeChar ++ ['"']))

end Writer

open Writer

mutual

def render : Json → String
  | null => "null"
  | bool value => if value then "true" else "false"
  | int value => toString value
  | float value => Decimal.NumberLayout.standard.render value
  | str value => string value
  | arr items => "[" ++ ",".intercalate (renderEach items) ++ "]"
  | obj fields => "\x7b" ++ ",".intercalate (renderFields fields) ++ "\x7d"

def renderEach : List Json → List String
  | [] => []
  | item :: rest => render item :: renderEach rest

def renderFields : List (String × Json) → List String
  | [] => []
  | (name, value) :: rest => (string name ++ ":" ++ render value) :: renderFields rest

end

end TreeRules.Json
