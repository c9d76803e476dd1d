import ResumeOnce.Datum
import ResumeOnce.Queue.Persistent
import ResumeOnce.Text.Described

/-!
# Sessions with versions of a queue

A session keeps every version of a persistent queue that it makes, beginning with
the empty one, and commands name versions by their index.

* `Versions.perform`: one command;
* `Versions.run`: a session, as the answers to its commands.
-/

namespace ResumeOnce.Session

open Text

/-- A datum as a diagnostic shows it, where only whole numbers and texts occur. -/
def describeDatum : Datum → String
  | .number mantissa _ => toString mantissa
  | .text s => quoted s
  | _ => ""

namespace Versions

/-- What can be done with the versions. -/
inductive Command where
  | enqueue (version : Nat) (value : Datum)
  | enqueueAll (version : Nat) (values : List Datum)
  | clone (version : Nat)
  | fresh
  | ofList (values : List Datum)
  | dequeue (version : Nat)
  | dequeueUpTo (version count : Nat)
  | peek (version : Nat)
  | contents (version : Nat)
  | pastEnd (version : Nat)
  | size (version : Nat)
  | isEmpty (version : Nat)
  | describe (version : Nat)
  | forget (version : Nat)

/-- What a command answers. -/
inductive Answer where
  | nothing
  | made (index size : Nat)
  | removed (value : Datum) (index size : Nat)
  | removedAll (values : List Datum) (index size : Nat)
  | found (value : Datum)
  | values (values : List Datum)
  | pastEnd (count : Nat) (ended : Bool)
  | count (n : Nat)
  | flag (b : Bool)
  | text (s : String)

/-- The versions made so far. -/
abbrev Queues := Array (PersistentQueue Datum)

/-- The versions with one more, and its index and size. -/
def append (qs : Queues) (q : PersistentQueue Datum) : Queues × Nat × Nat :=
  (qs.push q, qs.size, q.size)

/-- The versions with one more, and the answer that tells of it. -/
def make (qs : Queues) (q : PersistentQueue Datum) : Queues × Answer :=
  let (qs', index, size) := append qs q
  (qs', .made index size)

/-- One command: the versions behind it and its answer. -/
def perform (qs : Queues) : Command → Queues × Answer
  | .enqueue v a => make qs ((qs.getD v .empty).enqueue a)
  | .enqueueAll v values => make qs ((qs.getD v .empty).enqueueAll values)
  | .clone v => make qs (qs.getD v .empty)
  | .fresh => make qs .empty
  | .ofList values => make qs (.ofList values)
  | .dequeue v =>
    match (qs.getD v .empty).dequeue? with
    | none => (qs, .nothing)
    | some (a, q) =>
      let (qs', index, size) := append qs q
      (qs', .removed a index size)
  | .dequeueUpTo v n =>
    let (values, q) := (qs.getD v .empty).dequeueUpTo n
    let (qs', index, size) := append qs q
    (qs', .removedAll values index size)
  | .peek v => (qs, ((qs.getD v .empty).peek?).elim .nothing .found)
  | .contents v => (qs, .values (qs.getD v .empty).walked.1)
  | .pastEnd v =>
    let (values, last) := (qs.getD v .empty).walked
    (qs, .pastEnd values.length last.next.1.isNone)
  | .size v => (qs, .count (qs.getD v .empty).size)
  | .isEmpty v => (qs, .flag (qs.getD v .empty).isEmpty)
  | .describe v => (qs, .text (listed ((qs.getD v .empty).walked.1.map describeDatum)))
  | .forget v => (qs.setIfInBounds v .empty, .nothing)

/-- The answers to commands, from some versions on. -/
def answers (qs : Queues) : List Command → List Answer
  | [] => []
  | c :: cs =>
    let (qs', answer) := perform qs c
    answer :: answers qs' cs

/-- A session, as the answers to its commands. -/
def run (cs : List Command) : List Answer := answers #[.empty] cs

end Versions

end ResumeOnce.Session
