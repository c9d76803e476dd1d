import ResumeOnce.Fault
import ResumeOnce.Text.Described

/-!
# Lifecycles

A spawned operation is running until it is finished, cancelled or released, and
then stays what it is. Whoever moves it from running wins; everybody else is told
what it is already. Hooks wait for the cancellation: the one who cancels runs
them, a hook that comes after the cancellation runs at once, and the end of an
operation that was not cancelled lets them go.

* `Status`, `Lifecycle.move`: the one change of status;
* `Lifecycle.register`, `Lifecycle.takeHook`, `Lifecycle.finish`: the hooks.
-/

namespace ResumeOnce

open Text

/-- What a spawned operation is. -/
inductive Status where
  | running
  | finished
  | cancelled
  | released
  deriving DecidableEq, Repr, Inhabited

/-- The name of a status. -/
def Status.name : Status → String
  | running => "Running"
  | finished => "Finished"
  | cancelled => "Cancelled"
  | released => "Released"

/-- The status of a name. -/
def Status.ofName? (s : String) : Option Status :=
  [running, finished, cancelled, released].find? (·.name == s)

/-- A change of status that was refused. -/
structure StatusFault where
  source : Status
  target : Status
  deriving DecidableEq, Repr, Inhabited

namespace StatusFault

/-- The text of a refused change of status. -/
def display (f : StatusFault) : String :=
  "illegal status transition " ++ f.source.name ++ " -> " ++ f.target.name

/-- The general fault that stands for a refused change of status. -/
def toFault (f : StatusFault) : Fault :=
  (Fault.ofKind .invalidStateTransition).withMessage f.display

end StatusFault

/-- The status of an operation and the hooks that wait for its cancellation, oldest first. -/
structure Lifecycle (η : Type u) where
  status : Status
  hooks : List η
  deriving Repr

instance : Inhabited (Lifecycle η) := ⟨⟨.running, []⟩⟩

namespace Lifecycle

/-- The lifecycle of a new operation. -/
def new : Lifecycle η := ⟨.running, []⟩

/-- The lifecycle with another status, if it is still running. -/
def move (l : Lifecycle η) (target : Status) : Except StatusFault (Lifecycle η) :=
  if l.status = .running then .ok { l with status := target } else .error ⟨l.status, target⟩

/-- The lifecycle with one more hook. -/
def register (l : Lifecycle η) (hook : η) : Lifecycle η := { l with hooks := l.hooks ++ [hook] }

/-- The oldest hook, if there is one, and the lifecycle without it. -/
def takeHook (l : Lifecycle η) : Option η × Lifecycle η :=
  match l.hooks with
  | [] => (none, l)
  | hook :: hooks => (some hook, { l with hooks })

/-- The lifecycle at the end of the operation, and the hooks to let go: all of them, unless
    they belong to the one who cancelled. -/
def finish (l : Lifecycle η) : Lifecycle η × List η :=
  match l.move .finished with
  | .ok l' => ({ l' with hooks := [] }, l'.hooks)
  | .error f => if f.source = .cancelled then (l, []) else ({ l with hooks := [] }, l.hooks)

end Lifecycle

end ResumeOnce
