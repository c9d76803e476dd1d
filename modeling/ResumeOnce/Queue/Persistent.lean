/-!
# Persistent queues

A first-in first-out queue whose every version stays usable. It keeps two lists,
each with its size: the front in the order of removal and the rear newest first.
The rear is never longer than the front; an operation that would make it so moves
the rear behind the front, in order. So removal finds the oldest value at the head
of the front, and adding and removing cost constant time on average.

* `PersistentQueue.toList`: the contents, oldest first;
* `PersistentQueue.enqueue`, `PersistentQueue.dequeue?`: the operations;
* `PersistentQueue.Walk`: a walk over the contents, which stays at its end.
-/

namespace ResumeOnce

/-- A list with its size beside it. -/
structure SizedList (α : Type u) where
  items : List α
  size : Nat
  deriving Inhabited, Repr

namespace SizedList

/-- The list without values. -/
def empty : SizedList α := ⟨[], 0⟩

/-- The list with a value put before the others. -/
def push (l : SizedList α) (a : α) : SizedList α := ⟨a :: l.items, l.size + 1⟩

/-- The list without its first value. -/
def rest (l : SizedList α) : SizedList α :=
  match l.items with
  | [] => empty
  | _ :: items => ⟨items, l.size - 1⟩

/-- The list with the values put before the others one by one, so that the last comes first. -/
def pushAll (l : SizedList α) (values : List α) : SizedList α := values.foldl push l

end SizedList

/-- A queue of which every version stays usable. -/
structure PersistentQueue (α : Type u) where
  /-- The oldest values, in the order of removal. -/
  front : SizedList α
  /-- The newest values, newest first. -/
  rear : SizedList α
  deriving Inhabited, Repr

namespace PersistentQueue

/-- The queue without values. -/
def empty : PersistentQueue α := ⟨.empty, .empty⟩

/-- The contents, oldest first. -/
def toList (q : PersistentQueue α) : List α := q.front.items ++ q.rear.items.reverse

/-- The number of values. -/
def size (q : PersistentQueue α) : Nat := q.front.size + q.rear.size

/-- Whether the queue has no values. -/
def isEmpty (q : PersistentQueue α) : Bool := q.size == 0

/-- The oldest value. -/
def peek? (q : PersistentQueue α) : Option α := q.front.items.head?

/-- The queue of a front and a rear, with the rear moved behind the front if it is longer. -/
def balanced (front rear : SizedList α) : PersistentQueue α :=
  if rear.size ≤ front.size then ⟨front, rear⟩
  else ⟨(SizedList.empty.pushAll rear.items).pushAll front.items.reverse, .empty⟩

/-- The queue with a value added behind the others. -/
def enqueue (q : PersistentQueue α) (a : α) : PersistentQueue α := balanced q.front (q.rear.push a)

/-- The oldest value and the queue without it. -/
def dequeue? (q : PersistentQueue α) : Option (α × PersistentQueue α) :=
  q.front.items.head?.map fun a => (a, balanced q.front.rest q.rear)

/-- The queue with the values added one after another. -/
def enqueueAll (q : PersistentQueue α) (values : List α) : PersistentQueue α :=
  values.foldl enqueue q

/-- The queue of some values, the first of them the oldest. -/
def ofList (values : List α) : PersistentQueue α := empty.enqueueAll values

/-- Up to `n` of the oldest values and the queue without them. -/
def dequeueUpTo : Nat → PersistentQueue α → List α × PersistentQueue α
  | 0, q => ([], q)
  | n + 1, q =>
    match q.dequeue? with
    | none => ([], q)
    | some (a, q') =>
      let (values, last) := dequeueUpTo n q'
      (a :: values, last)

/-- The values in the order in which they are let go with the queue: the front from its head,
    then the rear from its head. -/
def releaseOrder (q : PersistentQueue α) : List α := q.front.items ++ q.rear.items

/-- A walk over the contents of a queue: what is left of the front, and what is left of the
    rear, oldest first. -/
structure Walk (α : Type u) where
  front : List α
  rear : List α
  deriving Inhabited, Repr

/-- The walk that begins at the oldest value. -/
def walk (q : PersistentQueue α) : Walk α := ⟨q.front.items, q.rear.items.reverse⟩

namespace Walk

/-- The next value, if there is one, and the walk behind it. -/
def next (w : Walk α) : Option α × Walk α :=
  match w.front, w.rear with
  | a :: front, rear => (some a, ⟨front, rear⟩)
  | [], a :: rear => (some a, ⟨[], rear⟩)
  | [], [] => (none, w)

/-- The values left, and the walk at its end. -/
def finish : Nat → Walk α → List α × Walk α
  | 0, w => ([], w)
  | n + 1, w =>
    match w.next with
    | (none, w') => ([], w')
    | (some a, w') =>
      let (values, last) := finish n w'
      (a :: values, last)

end Walk

/-- The values met on a walk over the queue, and the walk at its end. -/
def walked (q : PersistentQueue α) : List α × Walk α := q.walk.finish (q.size + 1)

end PersistentQueue

end ResumeOnce
