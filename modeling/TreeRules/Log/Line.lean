import TreeRules.Log.Clock
import TreeRules.Log.Message

/-!
Log lines: the stamp, the level, the target and the message, with or without colours. Characters
that could steer a terminal are written as escapes.
-/

namespace TreeRules.Log

structure Record where
  level : Level
  target : String
  text : String

/-- The names of the fields of a record. Its text is the only one. -/
def Record.fieldNames (_ : Record) : List String := ["message"]

/-- The program that logs: its name gives the targets of its parts and its log directory. -/
structure Application where
  name : String

namespace Application

def identifier (application : Application) : String :=
  application.name.map fun c => if c = '-' then '_' else c

def target (application : Application) (source : Source) : String :=
  application.identifier ++ "::ir::" ++
    match source with
    | .dispatcher => "dispatcher"
    | .pipeline => "pipeline"
    | .printer => "pretty_printer"

def record (application : Application) (message : Message) : Record where
  level := message.level
  target := application.target message.source
  text := message.text

end Application

namespace Line

/-- A control character as an escape; line breaks and tabs stay. -/
def escapeChar (c : Char) : List Char :=
  let hex := Nat.toDigits 16 c.toNat
  if c = '\x1b' || c = '\x07' || c = '\x08' || c = '\x0c' || c = '\x7f' then
    '\\' :: 'x' :: (List.replicate (2 - hex.length) '0' ++ hex)
  else if 0x80 ≤ c.toNat && c.toNat ≤ 0x9f then
    '\\' :: 'u' :: '\x7b' :: (hex ++ ['\x7d'])
  else [c]

def escaped (text : String) : String := String.ofList (text.toList.flatMap escapeChar)

/-- The level, filled up with blanks on the left to five characters. -/
def levelColumn (level : Level) : String :=
  String.ofList (List.replicate (5 - level.name.length) ' ' ++ level.name.toList)

def plain (stamp : String) (record : Record) : String :=
  "[" ++ stamp ++ "] " ++ levelColumn record.level ++ " " ++ record.target ++ ": " ++
    escaped record.text

def colourCode : Level → String
  | .error => "31"
  | .warn => "33"
  | .info => "32"
  | .debug => "34"
  | .trace => "35"

def styled (code text : String) : String := "\x1b[" ++ code ++ "m" ++ text ++ "\x1b[0m"

def coloured (stamp : String) (record : Record) : String :=
  styled "2" ("[" ++ stamp ++ "]") ++ " " ++
    styled (colourCode record.level) (levelColumn record.level) ++ " " ++
    styled "2" record.target ++ styled "2" ":" ++ " " ++ escaped record.text

end Line

end TreeRules.Log
