import ResumeOnce.Channel.Snapshot

/-!
# Channels

A channel hands values from writers to readers, first in, first out. An operation
updates the snapshot and then answers the parties that it took out of the queues;
here those answers are a list of resolutions, in order, for the caller to carry
out. A party is known by the right to answer it.

* `Channel.write`, `Channel.read`: a value goes in, a value comes out;
* `Channel.close`, `Channel.cancel`: the graceful and the abrupt end;
* `Channel.remains`: what is let go with a channel.
-/

namespace ResumeOnce

open Text

/-- A channel: its snapshot in a cell, and its buffering. -/
structure Channel (ρ : Type u) (α : Type v) where
  cell : Cell (Snapshot ρ α)
  buffering : Buffering
  deriving Inhabited

/-- An answer to a party that waited: a reader gets a value, a writer learns that its value
    was read, and either may get a fault instead. -/
inductive Resolution (ρ : Type u) (α : Type v) where
  | reader (party : ρ) (answer : Outcome α)
  | writer (party : ρ) (answer : Outcome Unit)

/-- What an operation comes to: the channel behind it, whom to answer, and its result. -/
structure Exchanged (ρ : Type u) (α : Type v) (β : Type w) where
  channel : Channel ρ α
  resolutions : List (Resolution ρ α)
  result : β

/-- What becomes of a value that is written. -/
inductive Written (α : Type u) where
  | handed
  | queued
  | refused (r : Refusal α)

/-- What becomes of a read. -/
inductive ReadResult (α : Type u) where
  | settled (answer : Outcome α)
  | queued

namespace Channel

/-- A new channel. -/
def new (buffering : Buffering) : Channel ρ α := ⟨.new .empty, buffering⟩

/-- The snapshot of the channel. -/
def snapshot (c : Channel ρ α) : Snapshot ρ α := c.cell.current

/-- The number of values that nobody has read yet. -/
def size (c : Channel ρ α) : Nat := c.snapshot.writers.size

/-- The number of readers that wait. -/
def waitingReaders (c : Channel ρ α) : Nat := c.snapshot.readers.size

/-- The completion of the channel, once it is closed. -/
def completion (c : Channel ρ α) : Option Completion := c.snapshot.completion

/-- Whether the channel is closed. -/
def isClosed (c : Channel ρ α) : Bool := c.completion.isSome

/-- The fault of a party whose counterpart has no value any more. -/
def valueGone : Fault := Fault.internal "writer value already taken"

/-- The fault of a read that was queued though it does not wait. -/
def readQueued : Fault := Fault.internal "non-blocking read was queued"

/-- The answer to a reader that meets a writer. -/
def handOver (w : Writer ρ α) : Outcome α :=
  match w.value with
  | some a => .ok a
  | none => .error valueGone

/-- A value is written, by a writer that waits to be answered if `party` is given. -/
def write (c : Channel ρ α) (party : Option ρ) (a : α) : Exchanged ρ α (Written α) :=
  let writer : Writer ρ α := ⟨party, some a⟩
  let u := c.cell.update (·.write writer c.buffering)
  let c' := { c with cell := u.cell }
  match u.outcome with
  | .rendezvous reader => ⟨c', [.reader reader (handOver writer)], .handed⟩
  | .queued => ⟨c', [], .queued⟩
  | .full => ⟨c', [], .refused ⟨Fault.ofKind .channelFull, a⟩⟩
  | .closed completion => ⟨c', [], .refused ⟨completion.fault, a⟩⟩

/-- A value is read, by a reader that waits to be answered if `party` is given. -/
def read (c : Channel ρ α) (party : Option ρ) : Exchanged ρ α (ReadResult α) :=
  let u := c.cell.update (·.read party)
  let c' := { c with cell := u.cell }
  match u.outcome with
  | .took writer =>
    ⟨c', writer.resumption.toList.map fun r => .writer r (.ok ()), .settled (handOver writer)⟩
  | .waiting => ⟨c', [], .queued⟩
  | .wouldBlock => ⟨c', [], .settled (.error (Fault.ofKind .wouldBlock))⟩
  | .closed completion => ⟨c', [], .settled (.error completion.fault)⟩

/-- A value is read without waiting. -/
def tryRead (c : Channel ρ α) : Exchanged ρ α (Outcome α) :=
  let e := c.read none
  match e.result with
  | .settled answer => ⟨e.channel, e.resolutions, answer⟩
  | .queued => ⟨e.channel, e.resolutions, .error readQueued⟩

/-- The channel closes, unless it is closed already: the readers that wait get the fault of
    the completion, and the values in it can still be read. -/
def close (c : Channel ρ α) (completion : Completion) : Exchanged ρ α Bool :=
  let u := c.cell.update (·.close completion)
  let c' := { c with cell := u.cell }
  match u.outcome with
  | none => ⟨c', [], false⟩
  | some readers =>
    ⟨c', readers.walked.1.map fun r => .reader r (.error completion.fault), true⟩

/-- The channel ends at once: everybody who waits gets the fault, and the values in it are
    given back. -/
def cancel (c : Channel ρ α) (fault : Fault) : Exchanged ρ α (List α) :=
  let u := c.cell.update (·.cancel (.failure fault))
  let (readers, writers) := u.outcome
  ⟨{ c with cell := u.cell },
    (readers.walked.1.map fun r => .reader r (.error fault)) ++
      writers.walked.1.flatMap fun w =>
        w.resumption.toList.map fun r => .writer r (.error fault),
    writers.walked.1.filterMap Writer.value⟩

/-- What is let go with a channel, in order: the readers that wait, then the writers. -/
def remains (c : Channel ρ α) : List ρ × List (Writer ρ α) :=
  (c.snapshot.readers.releaseOrder, c.snapshot.writers.releaseOrder)

/-- The full text of a channel. -/
def describe (c : Channel ρ α) : String :=
  record "Channel"
    [("policy", c.buffering.describe),
      ("pending", toString c.size),
      ("waiting_readers", toString c.waitingReaders),
      ("completion", optional Completion.describe c.completion)]

end Channel

end ResumeOnce
