import ResumeOnce.Completion

/-!
# Events

What a stream pushes: values, then at most one completion. Whoever receives a
value answers with a demand, for more or for the end.

* `Event`: a value or a completion;
* `Demand`: the answer to an event;
* `Either`: a value of one of two streams.
-/

namespace ResumeOnce

/-- What a stream pushes. -/
inductive Event (α : Type u) where
  | value (a : α)
  | completion (c : Completion)
  deriving Repr

namespace Event

/-- The event with its value changed. -/
def map (f : α → β) : Event α → Event β
  | value a => value (f a)
  | completion c => completion c

@[simp]
theorem map_id (e : Event α) : e.map id = e := by cases e <;> rfl

@[simp]
theorem map_map (f : α → β) (g : β → γ) (e : Event α) : (e.map f).map g = e.map (g ∘ f) := by
  cases e <;> rfl

end Event

/-- The answer to an event: push on, or stop. -/
inductive Demand where
  | more
  | done
  deriving DecidableEq, Repr, Inhabited

/-- The word for a demand. -/
def Demand.word : Demand → String
  | more => "more"
  | done => "done"

/-- A value of one of two streams. -/
inductive Either (α : Type u) (β : Type v) where
  | left (a : α)
  | right (b : β)
  deriving DecidableEq, Repr

namespace Either

/-- Whether the value is of the left stream. -/
def isLeft : Either α β → Bool
  | left _ => true
  | right _ => false

/-- Whether the value is of the right stream. -/
def isRight : Either α β → Bool
  | left _ => false
  | right _ => true

/-- The value, if it is of the left stream. -/
def left? : Either α β → Option α
  | left a => some a
  | right _ => none

/-- The value, if it is of the right stream. -/
def right? : Either α β → Option β
  | left _ => none
  | right b => some b

end Either

end ResumeOnce
