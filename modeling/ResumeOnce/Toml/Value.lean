/-!
# Values of a settings document

What the keys of a document stand for. Real numbers and moments keep their text,
since nothing computes with them.
-/

namespace ResumeOnce.Toml

/-- A value in a document. -/
inductive Value where
  | text (s : String)
  | integer (n : Int)
  | real (written : String)
  | bool (b : Bool)
  | moment (written : String)
  | list (items : List Value)
  | table (entries : List (String × Value))
  deriving Inhabited

/-- A key, which may reach through tables. -/
abbrev Path := List String

/-- What reading the characters of a document comes to: a part of it and what is left. -/
abbrev Reading (α : Type) := Option (α × List Char)

/-- A bound on how deep tables, lists and keys may nest. -/
def depthBound : Nat := 80

end ResumeOnce.Toml
