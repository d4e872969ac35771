import Tabular.Text.Quoted

namespace Tabular

def inspectList (items : List String) : String :=
  "[" ++ ", ".intercalate items ++ "]"

def inspectApply (name part : String) : String :=
  name ++ "(" ++ part ++ ")"

def inspectFields (name : String) (fields : List (String × String)) : String :=
  name ++ " \x7b " ++ ", ".intercalate (fields.map fun p => p.1 ++ ": " ++ p.2) ++ " \x7d"

def inspectMap (entries : List (String × String)) : String :=
  "\x7b" ++ ", ".intercalate (entries.map fun p => p.1 ++ ": " ++ p.2) ++ "\x7d"

def inspectOption : Option String → String
  | none => "None"
  | some part => inspectApply "Some" part

end Tabular
