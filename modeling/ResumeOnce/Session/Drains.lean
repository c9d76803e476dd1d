import ResumeOnce.Datum
import ResumeOnce.Queue.Linked
import ResumeOnce.Text.Described

/-!
# Sessions with a linked queue

A session changes one linked queue and counts the values that are gone: those
taken out, and those that went with a queue that was given up.

* `Drains.perform`: one command;
* `Drains.run`: a session, as the answers to its commands.
-/

namespace ResumeOnce.Session.Drains

open Text

/-- What can be done with the queue. -/
inductive Command where
  | enqueue (value : Datum)
  | enqueueAll (values : List Datum)
  | dequeue
  | drain
  | drainUpTo (count : Nat)
  | isEmpty
  | describe
  | gone
  | reset

/-- What a command answers. -/
inductive Answer where
  | nothing
  | found (value : Datum)
  | values (values : List Datum)
  | flag (b : Bool)
  | text (s : String)
  | count (n : Nat)

/-- The queue and the number of values that are gone. -/
structure State where
  queue : LinkedQueue Datum
  gone : Nat

/-- The text of a queue in a diagnostic. -/
def describe (q : LinkedQueue Datum) : String :=
  record "LockFreeQueue" [("is_empty", toString q.isEmpty)]

/-- The state with some values taken out, and the answer that holds them. -/
def taken (s : State) (values : List Datum) (q : LinkedQueue Datum) : State × Answer :=
  (⟨q, s.gone + values.length⟩, .values values)

/-- One command: the state behind it and its answer. -/
def perform (s : State) : Command → State × Answer
  | .enqueue a => ({ s with queue := s.queue.enqueue a }, .nothing)
  | .enqueueAll values => ({ s with queue := s.queue.enqueueAll values }, .nothing)
  | .dequeue =>
    match s.queue.dequeue with
    | (none, q) => ({ s with queue := q }, .nothing)
    | (some a, q) => (⟨q, s.gone + 1⟩, .found a)
  | .drain =>
    let (values, q) := s.queue.drain
    taken s values q
  | .drainUpTo n =>
    let (values, q) := s.queue.drainUpTo n
    taken s values q
  | .isEmpty => (s, .flag s.queue.isEmpty)
  | .describe => (s, .text (describe s.queue))
  | .gone => (s, .count s.gone)
  | .reset =>
    let gone := s.gone + s.queue.release.1.length
    (⟨.empty, gone⟩, .count gone)

/-- The answers to commands, from a state on. -/
def answers (s : State) : List Command → List Answer
  | [] => []
  | c :: cs =>
    let (s', answer) := perform s c
    answer :: answers s' cs

/-- A session, as the answers to its commands. -/
def run (cs : List Command) : List Answer := answers ⟨.empty, 0⟩ cs

end ResumeOnce.Session.Drains
