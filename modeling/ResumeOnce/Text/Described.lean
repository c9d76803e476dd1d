import ResumeOnce.Text.Quoted

/-!
# Descriptions of values

How a value is described in a diagnostic: a record by its name and its fields
between braces, a wrapped value by the name of the wrapper and the value between
parentheses, a list between brackets.

* `record`, `openRecord`: a record, with all or with some of its fields;
* `wrapped`, `optional`, `listed`: a value in a wrapper, perhaps a value, a list.
-/

namespace ResumeOnce.Text

/-- The fields of a record, each with its name. -/
def fieldList (fields : List (String × String)) : String :=
  ", ".intercalate (fields.map fun (name, value) => name ++ ": " ++ value)

/-- A record by its name and all its fields. -/
def record (name : String) (fields : List (String × String)) : String :=
  name ++ " \x7b " ++ fieldList fields ++ " \x7d"

/-- A record by its name and some of its fields. -/
def openRecord (name : String) (fields : List (String × String)) : String :=
  name ++ " \x7b " ++ fieldList fields ++ ", .. \x7d"

/-- A value in a named wrapper. -/
def wrapped (name value : String) : String := name ++ "(" ++ value ++ ")"

/-- Perhaps a value. -/
def optional (describe : α → String) : Option α → String
  | none => "None"
  | some a => wrapped "Some" (describe a)

/-- The values of a list in order. -/
def listed (values : List String) : String := "[" ++ ", ".intercalate values ++ "]"

end ResumeOnce.Text
