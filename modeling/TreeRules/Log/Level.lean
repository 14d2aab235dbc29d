/-!
The five levels of log messages, from the most to the least urgent.
-/

namespace TreeRules.Log

inductive Level where
  | error | warn | info | debug | trace
deriving DecidableEq, Repr

namespace Level

/-- A more urgent level has a smaller rank; the ranks start at one. -/
def rank : Level → Nat
  | error => 1 | warn => 2 | info => 3 | debug => 4 | trace => 5

def name : Level → String
  | error => "ERROR" | warn => "WARN" | info => "INFO" | debug => "DEBUG" | trace => "TRACE"

def all : List Level := [error, warn, info, debug, trace]

end Level

end TreeRules.Log
