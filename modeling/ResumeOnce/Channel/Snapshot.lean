import ResumeOnce.Cell
import ResumeOnce.Completion
import ResumeOnce.Queue.Persistent

/-!
# Snapshots of a channel

All that a channel is stands in one snapshot: perhaps its completion, the readers
that wait, the writers whose values nobody has read yet, and how many of those
wrote without waiting. Each operation is a decision on the snapshot alone; whoever
the decision takes out of a queue is answered afterwards.

* `Snapshot.write`, `Snapshot.read`: the decisions of a writer and of a reader;
* `Snapshot.close`, `Snapshot.cancel`: the decisions that end a channel.
-/

namespace ResumeOnce

open Text

/-- How many values may be written without waiting before they are read. -/
inductive Buffering where
  | unbounded
  | oldest (limit : Nat)
  deriving DecidableEq, Repr, Inhabited

namespace Buffering

/-- Whether one more value may be written without waiting. -/
def admits (b : Buffering) (buffered : Nat) : Bool :=
  match b with
  | unbounded => true
  | oldest limit => buffered < limit

/-- The full text of a buffering. -/
def describe : Buffering → String
  | unbounded => "Unbounded"
  | oldest limit => wrapped "Oldest" (toString limit)

end Buffering

/-- A value on its way through a channel, until it is taken, and the right to answer the
    writer, if the writer waits for the reader. -/
structure Writer (ρ : Type u) (α : Type v) where
  resumption : Option ρ
  value : Option α
  deriving Inhabited, Repr

/-- Whether the writer waits for the reader. -/
def Writer.waits (w : Writer ρ α) : Bool := w.resumption.isSome

/-- All that a channel is at one moment. -/
structure Snapshot (ρ : Type u) (α : Type v) where
  completion : Option Completion
  readers : PersistentQueue ρ
  writers : PersistentQueue (Writer ρ α)
  /-- The number of queued writers that do not wait. -/
  buffered : Nat
  deriving Inhabited

/-- What a writer learns. -/
inductive WriteStep (ρ : Type u) where
  | rendezvous (reader : ρ)
  | queued
  | full
  | closed (c : Completion)

/-- What a reader learns. -/
inductive ReadStep (ρ : Type u) (α : Type v) where
  | took (writer : Writer ρ α)
  | waiting
  | wouldBlock
  | closed (c : Completion)

namespace Snapshot

/-- The snapshot of a new channel. -/
def empty : Snapshot ρ α := ⟨none, .empty, .empty, 0⟩

/-- A writer meets the first reader that waits, or else queues up, unless it does not wait
    and there is no room. -/
def write (s : Snapshot ρ α) (writer : Writer ρ α) (buffering : Buffering) :
    Decision (Snapshot ρ α) (WriteStep ρ) :=
  match s.completion with
  | some c => .abort (.closed c)
  | none =>
    match s.readers.dequeue? with
    | some (reader, readers) => .commit { s with readers } (.rendezvous reader)
    | none =>
      if !writer.waits && !buffering.admits s.buffered then .abort .full
      else
        .commit { s with
          writers := s.writers.enqueue writer
          buffered := s.buffered + if writer.waits then 0 else 1 } .queued

/-- A reader takes the first writer, or else queues up if it waits. -/
def read (s : Snapshot ρ α) (reader : Option ρ) : Decision (Snapshot ρ α) (ReadStep ρ α) :=
  match s.writers.dequeue? with
  | some (writer, writers) =>
    .commit { s with
      writers
      buffered := s.buffered - if writer.waits then 0 else 1 } (.took writer)
  | none =>
    match s.completion, reader with
    | some c, _ => .abort (.closed c)
    | none, none => .abort .wouldBlock
    | none, some r => .commit { s with readers := s.readers.enqueue r } .waiting

/-- A channel that is still open closes and lets its readers go. -/
def close (s : Snapshot ρ α) (c : Completion) :
    Decision (Snapshot ρ α) (Option (PersistentQueue ρ)) :=
  if s.completion.isSome then .abort none
  else .commit { s with completion := some c, readers := .empty } (some s.readers)

/-- A channel ends at once and lets its readers and writers go. -/
def cancel (s : Snapshot ρ α) (c : Completion) :
    Decision (Snapshot ρ α) (PersistentQueue ρ × PersistentQueue (Writer ρ α)) :=
  .commit ⟨some c, .empty, .empty, 0⟩ (s.readers, s.writers)

end Snapshot

end ResumeOnce
