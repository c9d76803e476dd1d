import ResumeOnce.Channel.Basic
import ResumeOnce.Queue.Linked

/-!
# Traffic from many sides

What does not depend on any order when many producers fill a queue or a channel
and many consumers empty it: the number of values, that each arrives once, and
that each consumer sees the values of a producer in their order. The producers
take turns here, and so do the consumers.

* `Traffic.throughQueue`: traffic through a linked queue;
* `Traffic.throughChannel`: traffic through a channel.
-/

namespace ResumeOnce.Session.Traffic

/-- A value by its producer and its place among the values of that producer. -/
abbrev Item := Nat × Nat

/-- The values of producers that take turns, each with `each` values. -/
def items (producers each : Nat) : List Item :=
  (List.range each).flatMap fun i => (List.range producers).map fun p => (p, i)

/-- The values that a consumer gets when consumers take turns. -/
def share (consumers consumer : Nat) (values : List Item) : List Item :=
  (values.zipIdx.filter fun (_, i) => i % consumers == consumer).map (·.1)

/-- Whether numbers rise. -/
def rises : List Nat → Bool
  | a :: b :: rest => a < b && rises (b :: rest)
  | _ => true

/-- Whether the values of each producer come in their order. -/
def isOrdered (producers : Nat) (values : List Item) : Bool :=
  (List.range producers).all fun p => rises ((values.filter (·.1 == p)).map (·.2))

/-- Whether the values of each producer come in their order at each consumer. -/
def isOrderedAt (producers consumers : Nat) (values : List Item) : Bool :=
  (List.range consumers).all fun c => isOrdered producers (share consumers c values)

/-- Whether some values are those that were sent, each once. -/
def isExact (sent received : List Item) : Bool :=
  let sorted (values : List Item) := values.mergeSort fun a b =>
    a.1 < b.1 || (a.1 == b.1 && a.2 ≤ b.2)
  sorted sent == sorted received

/-- What is seen of traffic. -/
structure Seen where
  count : Nat
  exact : Bool
  ordered : Bool
  isEmpty : Bool
  leaks : Nat

/-- Traffic through a linked queue. -/
def throughQueue (producers consumers each : Nat) : Seen :=
  let sent := items producers each
  let (received, rest) := ((LinkedQueue.empty : LinkedQueue Item).enqueueAll sent).drain
  ⟨received.length, isExact sent received, isOrderedAt producers consumers received,
    rest.isEmpty, 0⟩

/-- A channel behind the writing of values in order, every other value of a producer by a
    writer that waits. -/
def writeAll (c : Channel Item Item) (sent : List Item) : Channel Item Item :=
  sent.foldl (fun c item => (c.write (if item.2 % 2 = 0 then some item else none) item).channel) c

/-- The values read from a channel, up to a bound on their number, and the channel behind
    them. -/
def readAll : Nat → Channel Item Item → List Item × Channel Item Item
  | 0, c => ([], c)
  | n + 1, c =>
    let e := c.tryRead
    match e.result with
    | .error _ => ([], e.channel)
    | .ok item =>
      let (rest, last) := readAll n e.channel
      (item :: rest, last)

/-- Traffic through a channel, which is finished in the end. Whoever still waits then is a
    leak. -/
def throughChannel (writers readers each : Nat) : Seen :=
  let sent := items writers each
  let (received, rest) := readAll sent.length (writeAll (.new .unbounded) sent)
  let (waitingReaders, waitingWriters) := (rest.close .finished).channel.remains
  ⟨received.length, isExact sent received, isOrderedAt writers readers received,
    rest.size == 0, waitingReaders.length + (waitingWriters.filter (·.waits)).length⟩

end ResumeOnce.Session.Traffic
