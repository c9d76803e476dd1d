import ResumeOnce.Fault

/-!
# Slots

A slot holds the answer that a suspended party waits for. It is filled once and
emptied once, by the first poll that finds the answer; later polls learn that it
was taken. A poll that must wait leaves its waker, in place of the one before; the
filling takes the waker and wakes it, and so does the taking, for the sake of a
poll that came in between.

* `Slot.complete`: the answer arrives;
* `Slot.poll`: a party asks for it.
-/

namespace ResumeOnce

/-- The answer of a suspended party, on its way. -/
structure Slot (ω : Type u) (α : Type v) where
  result : Option (Outcome α)
  taken : Bool
  waker : Option ω
  deriving Inhabited

/-- What a poll comes to. -/
inductive Poll (α : Type u) where
  | pending
  | ready (answer : α)

namespace Slot

/-- The slot of a party that begins to wait. -/
def new : Slot ω α := ⟨none, false, none⟩

/-- The slot with the waker taken away, and the waker. -/
def takeWaker (s : Slot ω α) : Slot ω α × Option ω := ({ s with waker := none }, s.waker)

/-- The slot with its answer, and the waker to wake. An answer that is there already stays. -/
def complete (s : Slot ω α) (answer : Outcome α) : Slot ω α × Option ω :=
  { s with result := s.result.orElse fun _ => some answer }.takeWaker

/-- Whether the answer has come. -/
def isComplete (s : Slot ω α) : Bool := s.result.isSome || s.taken

/-- What a poll learns when the answer was taken before. -/
def takenFault : Fault := Fault.ofKind .resultTaken

/-- A poll with a waker: the slot behind it, the waker to wake, and what it comes to. -/
def poll (s : Slot ω α) (waker : ω) : Slot ω α × Option ω × Poll (Outcome α) :=
  match s.result with
  | some answer => (⟨none, true, none⟩, s.waker, .ready answer)
  | none =>
    if s.taken then (s, none, .ready (.error takenFault))
    else ({ s with waker := some waker }, none, .pending)

end Slot

end ResumeOnce
