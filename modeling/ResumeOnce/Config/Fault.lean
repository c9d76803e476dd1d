import ResumeOnce.Fault

/-!
# Faults in settings

Why settings from outside cannot be used: a variable holds no proper value, a
document cannot be read as one, or its file cannot be opened.

* `ConfigFault.display`: the text of such a fault;
* `ConfigFault.toFault`: the general fault with that text.
-/

namespace ResumeOnce

open Text

/-- Why settings from outside cannot be used. -/
inductive ConfigFault where
  | illFormed (name expected value : String)
  | document (reason : String)
  | unreadable (path reason : String)
  deriving DecidableEq, Repr, Inhabited

namespace ConfigFault

/-- The text of a fault in settings. -/
def display : ConfigFault → String
  | illFormed name expected value =>
    "invalid value for " ++ name ++ ": expected " ++ expected ++ ", got " ++ quoted value
  | document reason => "failed to parse TOML config: " ++ reason
  | unreadable path reason => "failed to read config file " ++ path ++ ": " ++ reason

/-- The general fault that stands for a fault in settings. -/
def toFault (f : ConfigFault) : Fault := (Fault.ofKind .invalidConfig).withMessage f.display

/-- The fault of a path at which there is no file. -/
def missing (path : String) : ConfigFault :=
  unreadable path "No such file or directory (os error 2)"

end ConfigFault

end ResumeOnce
