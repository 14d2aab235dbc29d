import TreeRules.Log.Directive

/-!
Filters: which messages are written. A filter is a list of directives, of which the most specific one
about a message decides; a message that no directive is about is not written.
-/

namespace TreeRules.Log

structure Filter where
  directives : List Directive

namespace Filter

/-- Of two directives about a message, the more specific one, else the later one. -/
def choose (current : Option Directive) (next : Directive) : Option Directive :=
  match current with
  | none => some next
  | some held => if next.isAsSpecific held then some next else some held

/-- The directive that decides for messages of a target with fields of the given names. -/
def deciding? (filter : Filter) (target : String) (names : List String) : Option Directive :=
  (filter.directives.filter (·.covers target names)).foldl choose none

def admits (filter : Filter) (level : Level) (target : String) (names : List String) : Bool :=
  (filter.deciding? target names).any (·.threshold.admits level)

def everywhere (threshold : Threshold) : Filter := ⟨[{ threshold }]⟩

/-- The parts of a filter text; empty ones do not count. -/
def parts (text : String) : List String :=
  ((text.splitToList (· == ',')).filter (· != ""))

/-- Reads a filter of which every part must be a directive. The empty filter writes nothing. -/
def readStrict (text : String) : Except DirectiveError Filter :=
  ((parts text).mapM Directive.parse).map Filter.mk

/-- Reads a filter, leaving out the parts that are no directives; gives those with their errors. If
no directive is left, errors are written. -/
def readLossy (text : String) : Filter × List (String × DirectiveError) :=
  let read := (parts text).map fun part => (part, Directive.parse part)
  let good := read.filterMap fun (_, result) => result.toOption
  let bad := read.filterMap fun (part, result) =>
    match result with
    | .ok _ => none
    | .error error => some (part, error)
  (if good.isEmpty then everywhere (some .error) else ⟨good⟩, bad)

end Filter

end TreeRules.Log
