import TreeRules.Log.Level

/-!
What the library says about its own work: one message for every replacement, one for a finished
unit, one for an instantiated pipeline and one for a formatted tree.
-/

namespace TreeRules.Log

inductive Source where
  | dispatcher | pipeline | printer
deriving DecidableEq, Repr

inductive Message where
  | instantiated (context : String) (rules : Nat)
  | replaced (rule : String) (nodes : Nat)
  | finished (dispatched visits deleted inserted roots : Nat)
  | formatted (indented : Bool) (text : String)
deriving DecidableEq, Repr

namespace Message

def level : Message → Level
  | instantiated .. => .debug
  | replaced .. => .trace
  | finished .. => .debug
  | formatted .. => .trace

def source : Message → Source
  | instantiated .. => .pipeline
  | replaced .. => .dispatcher
  | finished .. => .pipeline
  | formatted .. => .printer

def text : Message → String
  | instantiated context rules =>
    "Instantiated pipeline context " ++ context ++ " with " ++ toString rules ++ " visitor(s)"
  | replaced rule nodes =>
    "Visitor " ++ rule ++ " replaced a node with " ++ toString nodes ++ " node(s)"
  | finished dispatched visits deleted inserted roots =>
    "Rewrote unit: " ++ toString dispatched ++ " node(s) dispatched, " ++ toString visits ++
      " visit(s), " ++ toString deleted ++ " deleted, " ++ toString inserted ++ " inserted, " ++
      toString roots ++ " root node(s)"
  | formatted indented text =>
    "Formatted tree (pretty_print=" ++ toString indented ++ "): " ++ text

end Message

/-- The messages written so far, oldest first. -/
abbrev Journal := Array Message

end TreeRules.Log
