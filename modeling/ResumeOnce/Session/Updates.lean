import ResumeOnce.Cell
import ResumeOnce.Text.Described

/-!
# Sessions with a cell

A session updates a cell that holds a word with a sign, whose arithmetic wraps,
and may keep snapshots of it.

* `Updates.perform`: one command;
* `Updates.run`: a session, as the answers to its commands.
-/

namespace ResumeOnce.Session.Updates

open Text

/-- What can be done with the cell. -/
inductive Command where
  | snapshot
  | hold
  | held (index : Nat)
  | describe
  /-- Commit the sum; the outcome is the snapshot it was made on. -/
  | add (a : Int64)
  /-- Leave the cell; the outcome is the snapshot. -/
  | leave
  /-- Commit the sum with `b` if the snapshot is below `a`, else leave the cell. -/
  | addBelow (a b : Int64)
  /-- Commit the double, while others add `b` during each of the first `times` attempts. -/
  | double (times : Nat) (b : Int64)
  /-- Leave the cell, while others add `b`. -/
  | leaveAgainst (b : Int64)

/-- What a command answers. -/
inductive Reply where
  | nothing
  | number (n : Int)
  | text (s : String)

/-- A reply, how often the command decided, and the snapshot behind it. -/
structure Answer where
  reply : Reply
  attempts : Nat
  now : Int

/-- The cell and the snapshots kept. -/
structure State where
  cell : Cell Int64
  held : Array Int64

/-- The state and the answer behind an update. -/
def updated (s : State) (u : Cell.Updated Int64 (Option Int64)) : State × Answer :=
  ({ s with cell := u.cell },
    ⟨u.outcome.elim .nothing fun n => .number n.toInt, u.attempts, u.cell.current.toInt⟩)

/-- The answer of a command that does not update the cell. -/
def unchanged (s : State) (reply : Reply) : Answer := ⟨reply, 0, s.cell.current.toInt⟩

/-- One command: the state behind it and its answer. -/
def perform (s : State) : Command → State × Answer
  | .snapshot => (s, unchanged s (.number s.cell.current.toInt))
  | .hold => ({ s with held := s.held.push s.cell.current }, unchanged s (.number s.held.size))
  | .held i => (s, unchanged s ((s.held[i]?).elim .nothing fun n => .number n.toInt))
  | .describe => (s, unchanged s (.text (wrapped "AtomicState" (toString s.cell.current.toInt))))
  | .add a => updated s (s.cell.update fun x => .commit (x + a) (some x))
  | .leave => updated s (s.cell.update fun x => .abort (some x))
  | .addBelow a b =>
    updated s (s.cell.update fun x => if x < a then .commit (x + b) (some x) else .abort none)
  | .double times b =>
    updated s (Cell.updateAgainst (fun x => .commit (x * 2) (some x))
      (List.replicate times [(· + b)]) s.cell)
  | .leaveAgainst b =>
    updated s (Cell.updateAgainst (fun x => .abort (some x)) [[(· + b)]] s.cell)

/-- The answers to commands, from a state on. -/
def answers (s : State) : List Command → List Answer
  | [] => []
  | c :: cs =>
    let (s', answer) := perform s c
    answer :: answers s' cs

/-- A session from an initial snapshot on, as the answers to its commands. -/
def run (initial : Int64) (cs : List Command) : List Answer := answers ⟨.new initial, #[]⟩ cs

end ResumeOnce.Session.Updates
