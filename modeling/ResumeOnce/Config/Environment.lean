import ResumeOnce.Config.Fault
import ResumeOnce.Config.Settings
import ResumeOnce.Text.Numeral

/-!
# Settings from the environment

Five variables override settings. They are looked at in a fixed order, and the
first that holds no proper value ends the reading: those before it count, it and
those behind it do not. A variable that is not a text counts as unset.

* `Variable.override`: what the text of one variable does;
* `Environment.applyTo`: what all variables do.
-/

namespace ResumeOnce

open Text

/-- The variables that override settings. -/
inductive Variable where
  | workers
  | stackSize
  | threadLabel
  | parkTimeout
  | leakPolicy
  deriving DecidableEq, Repr

namespace Variable

/-- The variables in the order in which they are looked at. -/
def all : List Variable := [workers, stackSize, threadLabel, parkTimeout, leakPolicy]

/-- The name of a variable in the environment. -/
def key : Variable → String
  | workers => "FOLDSYNC_WORKER_THREADS"
  | stackSize => "FOLDSYNC_THREAD_STACK_SIZE"
  | threadLabel => "FOLDSYNC_THREAD_NAME_PREFIX"
  | parkTimeout => "FOLDSYNC_PARK_TIMEOUT_MS"
  | leakPolicy => "FOLDSYNC_LEAK_POLICY"

/-- What a proper value of a variable is. -/
def expected : Variable → String
  | workers | stackSize => "unsigned integer"
  | threadLabel => "text"
  | parkTimeout => "u64"
  | leakPolicy => "panic, abort or cancel"

/-- The settings with the value that a text holds, unless it holds no proper one. -/
def override? (v : Variable) (text : String) (s : Settings) : Option Settings :=
  match v with
  | workers => (word? (trimmed text)).map fun n => { s with workers := n }
  | stackSize => (word? (trimmed text)).map fun n => { s with stackSize := n }
  | threadLabel => some { s with threadLabel := text }
  | parkTimeout =>
    (word? (trimmed text)).map fun n => { s with parkTimeout := Settings.milliseconds n }
  | leakPolicy => (LeakPolicy.parse? text).map fun p => { s with leakPolicy := some p }

/-- The fault of a variable whose text holds no proper value. -/
def fault (v : Variable) (text : String) : ConfigFault := .illFormed v.key v.expected text

end Variable

/-- The text of each variable that is set. -/
abbrev Environment := Variable → Option String

namespace Environment

/-- The environment of bytes under their names. -/
def ofBytes (values : List (String × ByteArray)) : Environment := fun v =>
  (values.lookup v.key).bind String.fromUTF8?

/-- The settings behind the given variables, and the fault that ended the reading. -/
def applyVariables (env : Environment) : List Variable → Settings → Settings × Option ConfigFault
  | [], s => (s, none)
  | v :: vs, s =>
    match env v with
    | none => applyVariables env vs s
    | some text =>
      match v.override? text s with
      | some s' => applyVariables env vs s'
      | none => (s, some (v.fault text))

/-- The settings behind all variables, and the fault that ended the reading. -/
def applyTo (env : Environment) (s : Settings) : Settings × Option ConfigFault :=
  env.applyVariables Variable.all s

/-- The settings behind all variables, or the fault that ended the reading. -/
def override (env : Environment) (s : Settings) : Outcome Settings :=
  match env.applyTo s with
  | (s', none) => .ok s'
  | (_, some f) => .error f.toFault

end Environment

end ResumeOnce
