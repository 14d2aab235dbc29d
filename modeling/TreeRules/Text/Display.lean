import TreeRules.Text.Quoted

/-!
Displayed values: the one-line form of structured values, with the names of their constructors and
fields.
-/

namespace TreeRules.Text

inductive Display where
  | word (text : String)
  | quote (text : String)
  | list (items : List Display)
  | apply (name : String) (arguments : List Display)
  | record (name : String) (fields : List (String × Display))
  /-- A record that shows only some of its fields. -/
  | openRecord (name : String) (fields : List (String × Display))

namespace Display

mutual

def render : Display → String
  | word text => text
  | quote text => quoted text
  | list items => "[" ++ ", ".intercalate (renderEach items) ++ "]"
  | apply name arguments => name ++ "(" ++ ", ".intercalate (renderEach arguments) ++ ")"
  | record name fields => name ++ " \x7b " ++ ", ".intercalate (renderFields fields) ++ " \x7d"
  | openRecord name fields =>
    name ++ " \x7b " ++ ", ".intercalate (renderFields fields ++ [".."]) ++ " \x7d"

def renderEach : List Display → List String
  | [] => []
  | item :: rest => render item :: renderEach rest

def renderFields : List (String × Display) → List String
  | [] => []
  | (name, value) :: rest => (name ++ ": " ++ render value) :: renderFields rest

end

def optional : Option Display → Display
  | none => word "None"
  | some value => apply "Some" [value]

end Display

end TreeRules.Text
