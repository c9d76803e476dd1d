import ResumeOnce.Scheduler.Pool

/-!
# The board of tasks

The board knows of every task whether it was notified since its last poll began,
and in what phase it is. A wake of a notified task does nothing more; any other
wake notifies it and puts it into a queue. A poll begins by taking the notice
away, so that a wake from then on queues the task again.

* `Board.spawn`, `Board.wake`: how tasks come into the queues;
* `Board.take?`, `Board.begin`, `Board.pause`, `Board.retire`: how they run.
-/

namespace ResumeOnce.Scheduler

/-- The phases of a task: between polls, in a poll, or over for good. -/
inductive Phase where
  | resting
  | polled
  | over
  deriving DecidableEq, Repr, Inhabited

/-- What the board knows of a task. -/
structure Entry where
  notified : Bool
  phase : Phase
  deriving DecidableEq, Repr, Inhabited

/-- The queues, and what is known of each task by its number. -/
structure Board where
  pool : Pool Nat
  entries : Array Entry
  deriving Inhabited

namespace Board

/-- The board of some workers, without tasks. -/
def new (workers : Nat) : Board := ⟨.idle workers, #[]⟩

/-- The phase of a task; a task that never was is over. -/
def phase (b : Board) (t : Nat) : Phase := (b.entries[t]?).elim .over Entry.phase

/-- Whether a task was notified since its last poll began. -/
def isNotified (b : Board) (t : Nat) : Bool := (b.entries[t]?).any Entry.notified

/-- The board with another phase of a task. -/
def setPhase (b : Board) (t : Nat) (phase : Phase) : Board :=
  { b with entries := b.entries.modify t fun e => { e with phase } }

/-- The board with a new task, which is notified but in no queue yet, and its number. -/
def enroll (b : Board) : Nat × Board :=
  (b.entries.size, { b with entries := b.entries.push ⟨true, .resting⟩ })

/-- The board with a task in a queue. -/
def queue (b : Board) (origin : Option Nat) (t : Nat) : Board :=
  { b with pool := b.pool.add origin t }

/-- The board with a new task in a queue, and its number. -/
def spawn (b : Board) (origin : Option Nat) : Nat × Board :=
  let (t, b') := b.enroll
  (t, b'.queue origin t)

/-- The board with a notice for a task, and whether the task must be queued for it. -/
def notify (b : Board) (t : Nat) : Bool × Board :=
  if b.isNotified t then (false, b)
  else (true, { b with entries := b.entries.modify t fun e => { e with notified := true } })

/-- The board behind a wake of a task. -/
def wake (b : Board) (origin : Option Nat) (t : Nat) : Board :=
  let (fresh, b') := b.notify t
  if fresh then b'.queue origin t else b'

/-- The next task of a worker and the board without it. -/
def take? (b : Board) (w : Nat) : Option (Nat × Board) :=
  (b.pool.take? w).map fun (t, pool) => (t, { b with pool })

/-- The board at the begin of a poll: the notice is taken away, and the task is in a poll
    unless it is over. -/
def begin (b : Board) (t : Nat) : Board :=
  { b with entries := b.entries.modify t fun e =>
      ⟨false, if e.phase = .over then .over else .polled⟩ }

/-- The board behind a poll that left the task waiting. -/
def pause (b : Board) (t : Nat) : Board := b.setPhase t .resting

/-- The board behind the end of a task. -/
def retire (b : Board) (t : Nat) : Board := b.setPhase t .over

end Board

end ResumeOnce.Scheduler
