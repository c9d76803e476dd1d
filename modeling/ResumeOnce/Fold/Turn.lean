import ResumeOnce.Completion

/-!
# The turns of a consumer

A fold has one consumer that takes the actions of a channel one by one. It begins
with the initial state; then, unless it was cancelled, it reads an action, reduces
the state by it and emits; when the reduction completes the fold, or reading or
emitting fails, or the fold is cancelled, it closes the channel, finalizes the
state and disposes of every action that is still in the channel.

At each turn the consumer asks one question, and the answer decides the next turn.

* `Turn`: what the consumer asks;
* `Turn.Answer`: what may be answered;
* `Turn.next`: the turn behind an answer.
-/

namespace ResumeOnce.Fold

/-- What a reduction says on the fold: go on, or complete it. -/
inductive Effect where
  | none
  | completion (c : Completion)
  deriving DecidableEq, Repr, Inhabited

/-- What the consumer of a fold asks. -/
inductive Turn (α : Type) where
  /-- The initial state, please. -/
  | start
  /-- Was the fold cancelled? -/
  | checkpoint
  /-- The next action, please. -/
  | read
  /-- Reduce the state by this action. -/
  | reduce (action : α)
  /-- Emit what the state has to emit. -/
  | emit
  /-- Close the channel. -/
  | close (c : Completion)
  /-- Finalize the state. -/
  | finalize (c : Completion)
  /-- Is there an action left in the channel? -/
  | drain (c : Completion)
  /-- Dispose of this action. -/
  | dispose (action : α) (c : Completion)
  /-- The state is final. -/
  | stop (c : Completion)
  deriving Inhabited

namespace Turn

/-- What may be answered at a turn. -/
def Answer : Turn α → Type
  | start => Unit
  | checkpoint => Outcome Unit
  | read => Outcome α
  | reduce _ => Effect
  | emit => Outcome Unit
  | close _ => Unit
  | finalize _ => Unit
  | drain _ => Outcome α
  | dispose _ _ => Unit
  | stop _ => Unit

/-- The turn behind an answer. -/
def next : (t : Turn α) → t.Answer → Turn α
  | start, _ => checkpoint
  | checkpoint, .ok _ => read
  | checkpoint, .error f => close (.failure f)
  | read, .ok a => reduce a
  | read, .error f => close (.ofFault f)
  | reduce _, .none => emit
  | reduce _, .completion c => close c
  | emit, .ok _ => checkpoint
  | emit, .error f => close (.ofFault f)
  | close c, _ => finalize c
  | finalize c, _ => drain c
  | drain c, .ok a => dispose a c
  | drain c, .error _ => stop c
  | dispose _ c, _ => drain c
  | stop c, _ => stop c

/-- The completion that ended the loop, from the turn on at which it is known. -/
def completion? : Turn α → Option Completion
  | close c | finalize c | drain c | dispose _ c | stop c => some c
  | _ => none

end Turn

end ResumeOnce.Fold
