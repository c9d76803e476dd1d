import ResumeOnce.Fault

/-!
# Completions

How a stream ends: regularly, or with a failure. A fault of the kind that stands
for the regular end becomes one, whatever its message.

* `Completion.ofFault`: the end that a fault stands for;
* `Completion.fault`: the fault that stands for an end;
* `Completion.ofFault_fault`: a failure that tells of a real fault reads back.
-/

namespace ResumeOnce

open Text

/-- How a stream ends. -/
inductive Completion where
  | finished
  | failure (fault : Fault)
  deriving DecidableEq, Repr, Inhabited

namespace Completion

/-- The end that a fault stands for. -/
def ofFault (f : Fault) : Completion := if f.isFinished then finished else failure f

/-- Whether the stream ended regularly. -/
def isFinished : Completion → Bool
  | finished => true
  | failure _ => false

/-- The fault of a failed stream. -/
def failure? : Completion → Option Fault
  | finished => none
  | failure f => some f

/-- The fault that stands for an end. -/
def fault : Completion → Fault
  | finished => Fault.finished
  | failure f => f

/-- An end as an outcome without a value. -/
def toOutcome : Completion → Outcome Unit
  | finished => .ok ()
  | failure f => .error f

/-- The full text of an end. -/
def describe : Completion → String
  | finished => "Finished"
  | failure f => wrapped "Failure" f.describe

@[simp]
theorem ofFault_fault_finished : ofFault finished.fault = finished := rfl

/-- A failure that tells of a real fault reads back from its fault. -/
theorem ofFault_fault {f : Fault} (h : f.isFinished = false) :
    ofFault (failure f).fault = failure f := by
  simp [ofFault, fault, h]

end Completion

end ResumeOnce
