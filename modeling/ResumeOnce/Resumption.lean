import ResumeOnce.Leak
import ResumeOnce.Slot

/-!
# Resumptions

A resumption is the one right to answer a suspended party. The first who claims it
answers; everybody else is told that it is used up. Dropping it unused is a leak.

* `Resumption.claim`: the right is used;
* `Resumption.LeakEffect`: what dropping an unused resumption does.
-/

namespace ResumeOnce

open Text

/-- The right to answer the party that waits at a slot. -/
structure Resumption where
  /-- The number of the slot. -/
  slot : Nat
  resumed : Bool
  policy : LeakPolicy
  deriving DecidableEq, Repr, Inhabited

/-- The text of a refusal to answer twice. -/
def Resumption.usedUp : String := "resumption already resumed"

/-- The fault of an answer that comes too late. -/
def Resumption.usedUpFault : Fault := Fault.ofKind .alreadyResumed

/-- The resumption once its right is used; none if it was used before. -/
def Resumption.claim? (r : Resumption) : Option Resumption :=
  if r.resumed then none else some { r with resumed := true }

/-- The full text of a resumption. -/
def Resumption.describe (r : Resumption) : String :=
  record "Resumption" [("resumed", toString r.resumed), ("policy", r.policy.name)]

/-- What a leak does besides being counted. -/
inductive LeakEffect where
  | deliver
  | panic
  | abort
  deriving DecidableEq, Repr

/-- What a leak under a policy does, given whether a panic is under way already. -/
def LeakPolicy.effect (policy : LeakPolicy) (unwinding : Bool) : LeakEffect :=
  match policy with
  | cancel => .deliver
  | panic => if unwinding then .deliver else .panic
  | abort => .abort

end ResumeOnce
