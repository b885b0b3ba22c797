/-!
Diagnostic text of records: the name of the type, then the fields in order. A record that keeps some
of its state to itself ends in two dots.
-/

namespace NearCache

/-- A field's name and its text. -/
abbrev ShownField := String × String

/-- The fields, separated by commas. -/
def fieldsText (fields : List ShownField) : String :=
  ", ".intercalate (fields.map fun f => f.1 ++ ": " ++ f.2)

/-- A record all of whose fields are shown. -/
def recordText (name : String) (fields : List ShownField) : String :=
  name ++ " \x7b " ++ fieldsText fields ++ " \x7d"

/-- A record that holds more than the fields shown. -/
def openRecordText (name : String) (fields : List ShownField) : String :=
  if fields.isEmpty then name ++ " \x7b .. \x7d"
  else name ++ " \x7b " ++ fieldsText fields ++ ", .. \x7d"

/-- An optional value, given the text of what it holds. -/
def optionText : Option String → String
  | none => "None"
  | some text => "Some(" ++ text ++ ")"

/-- A truth value. -/
def boolText (b : Bool) : String :=
  if b then "true" else "false"

/-- A list, given the texts of its elements. -/
def listText (items : List String) : String :=
  "[" ++ ", ".intercalate items ++ "]"

end NearCache
