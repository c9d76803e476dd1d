/-!
# Linked queues

A first-in first-out queue of linked nodes that its users change in place, one
link at a time. The head is a node whose value is gone; its successor holds the
oldest value. The tail is the last node, or lags behind it until somebody helps it
forward. A node that is taken off gets the marker as its successor, so that
whoever still looks at it starts again instead of taking it for the end.

Adding and removing are loops; one pass of a loop looks at the nodes and either
does its work, helps the tail forward, or starts again.

* `LinkedQueue.enqueuePass`, `LinkedQueue.dequeuePass`: one pass;
* `LinkedQueue.enqueue`, `LinkedQueue.dequeue`: passes until the work is done;
* `LinkedQueue.contents`: the values from the oldest to the newest;
* `LinkedQueue.release`: the end of the queue.
-/

namespace ResumeOnce

/-- A node: perhaps a value, and the index of its successor. -/
structure Node (α : Type u) where
  value : Option α
  next : Option Nat
  deriving Inhabited, Repr

/-- A queue of linked nodes. -/
structure LinkedQueue (α : Type u) where
  nodes : Array (Node α)
  head : Nat
  tail : Nat
  marker : Nat
  deriving Inhabited, Repr

namespace LinkedQueue

/-- The queue without values: a head that is also the tail, and the marker. -/
def empty : LinkedQueue α := ⟨#[⟨none, none⟩, ⟨none, none⟩], 0, 0, 1⟩

/-- The successor of a node. -/
def next? (q : LinkedQueue α) (i : Nat) : Option Nat := q.nodes[i]?.bind Node.next

/-- The queue with another successor of a node. -/
def setNext (q : LinkedQueue α) (i : Nat) (next : Option Nat) : LinkedQueue α :=
  { q with nodes := q.nodes.modify i fun n => { n with next } }

/-- The value of a node, and the queue without it. -/
def takeValue (q : LinkedQueue α) (i : Nat) : Option α × LinkedQueue α :=
  (q.nodes[i]?.bind Node.value,
    { q with nodes := q.nodes.modify i fun n => { n with value := none } })

/-- The queue with a node of its own for a value, not linked to the others yet. -/
def allocate (q : LinkedQueue α) (a : α) : LinkedQueue α :=
  { q with nodes := q.nodes.push ⟨some a, none⟩ }

/-- What one pass comes to: start again, or an answer. -/
inductive Pass (α β : Type u) where
  | again (queue : LinkedQueue α)
  | done (queue : LinkedQueue α) (answer : β)

/-- One pass of adding the node `new`: link it behind the tail if nothing is there, and move
    the tail to it; else help the tail forward, unless it was taken off. -/
def enqueuePass (q : LinkedQueue α) (new : Nat) : Pass α PUnit :=
  match q.next? q.tail with
  | some next => if next = q.marker then .again q else .again { q with tail := next }
  | none => .done { q.setNext q.tail (some new) with tail := new } ⟨⟩

/-- One pass of removing the oldest value. -/
def dequeuePass (q : LinkedQueue α) : Pass α (Option α) :=
  match q.next? q.head with
  | none => .done q none
  | some next =>
    if next = q.marker then .again q
    else
      let helped := if q.head = q.tail then { q with tail := next } else q
      let moved := { helped with head := next }
      let (value, taken) := (moved.setNext q.head (some q.marker)).takeValue next
      .done taken value

/-- One pass of asking whether there is no value. -/
def isEmptyPass (q : LinkedQueue α) : Pass α (ULift Bool) :=
  match q.next? q.head with
  | none => .done q ⟨true⟩
  | some next => if next = q.marker then .again q else .done q ⟨false⟩

/-- Passes until one is the last, up to a bound: the queue, and the answer of the last pass. -/
def repeatPass (pass : LinkedQueue α → Pass α β) :
    Nat → LinkedQueue α → LinkedQueue α × Option β
  | 0, q => (q, none)
  | n + 1, q =>
    match pass q with
    | .done q' answer => (q', some answer)
    | .again q' => repeatPass pass n q'

/-- A bound on the passes that an operation needs: the tail moves over every node at most
    once. -/
def passes (q : LinkedQueue α) : Nat := q.nodes.size + 1

/-- The queue with a value added behind the others. -/
def enqueue (q : LinkedQueue α) (a : α) : LinkedQueue α :=
  let new := q.nodes.size
  (repeatPass (enqueuePass · new) q.passes (q.allocate a)).1

/-- The oldest value, if there is one, and the queue without it. -/
def dequeue (q : LinkedQueue α) : Option α × LinkedQueue α :=
  let (q', answer) := repeatPass dequeuePass q.passes q
  (answer.join, q')

/-- Whether there is no value. -/
def isEmpty (q : LinkedQueue α) : Bool :=
  ((repeatPass isEmptyPass q.passes q).2.map ULift.down).getD true

/-- The queue with the values added one after another. -/
def enqueueAll (q : LinkedQueue α) (values : List α) : LinkedQueue α := values.foldl enqueue q

/-- Up to `n` of the oldest values, and the queue without them. -/
def drainUpTo : Nat → LinkedQueue α → List α × LinkedQueue α
  | 0, q => ([], q)
  | n + 1, q =>
    match q.dequeue with
    | (none, q') => ([], q')
    | (some a, q') =>
      let (values, last) := drainUpTo n q'
      (a :: values, last)

/-- All values, oldest first, and the queue without them. -/
def drain (q : LinkedQueue α) : List α × LinkedQueue α := q.drainUpTo q.nodes.size

/-- The values of up to `n` nodes from a link on. -/
def valuesFrom (q : LinkedQueue α) : Nat → Option Nat → List α
  | n + 1, some i =>
    match q.nodes[i]? with
    | none => []
    | some node => node.value.toList ++ valuesFrom q n node.next
  | _, _ => []

/-- The values behind the head, from the oldest to the newest. -/
def contents (q : LinkedQueue α) : List α := q.valuesFrom q.nodes.size (q.next? q.head)

/-- The values of some nodes, and the queue without them. -/
def takeValues (q : LinkedQueue α) : List Nat → List α × LinkedQueue α
  | [] => ([], q)
  | i :: nodes =>
    let (value, taken) := q.takeValue i
    let (values, last) := taken.takeValues nodes
    (value.toList ++ values, last)

/-- A node loses its successor and goes with its value, unless the tail still holds it: the
    value, and the queue without it. -/
def loosen (q : LinkedQueue α) (i : Nat) : List α × LinkedQueue α :=
  if i = q.tail then ([], q.setNext i none)
  else
    let (value, gone) := (q.setNext i none).takeValue i
    (value.toList, gone)

/-- Up to `n` nodes from a link on are loosened one after another. -/
def unlink (q : LinkedQueue α) : Nat → Option Nat → List α × LinkedQueue α
  | n + 1, some i =>
    let next := q.next? i
    let (values, gone) := q.loosen i
    let (rest, last) := gone.unlink n next
    (values ++ rest, last)
  | _, _ => ([], q)

/-- The values that are let go with the queue, in order, and what is left of it: the nodes
    behind the head are unlinked, and then the head, the tail and the marker go. -/
def release (q : LinkedQueue α) : List α × LinkedQueue α :=
  let (values, bare) := (q.setNext q.head none).unlink q.nodes.size (q.next? q.head)
  let (rest, last) := bare.takeValues [q.head, q.tail, q.marker]
  (values ++ rest, last)

end LinkedQueue

end ResumeOnce
