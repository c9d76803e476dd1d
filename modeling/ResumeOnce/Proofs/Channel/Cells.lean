import ResumeOnce.Proofs.Channel.Traffic

/-!
# Channels and the cells behind them

A snapshot is only ever replaced as a whole, but what it points to changes behind its
back. The value of a queued writer is in a cell, which is emptied by whoever took the
writer out, and a party that waits is a right to answer, which is used once the party
was taken out. An operation commits its next snapshot first; what it then owes to
cells and parties is an *errand*, done at some later time, in between the operations
and the errands of everybody else.

Here a channel carries the numbers of cells. Calls are numbered, the cell of a write
has the number of the call, and so has the right to answer it.

* `Errand`, `Cells`: what is still to be done; a channel, its cells and its errands;
* `Cells.Step`: what can happen next;
* `Cells.rights`, `Cells.holdings`: the calls that are still to be answered and the cells
  that are still to be emptied, with a place for each.
-/

namespace ResumeOnce.Channel

variable {α : Type u}

/-- What somebody is about to do. -/
inductive Errand where
  /-- The value of a call is to be written. -/
  | write (call : Nat) (waits : Bool)
  /-- A call is to read. -/
  | read (call : Nat) (waits : Bool)
  /-- A reader gets what is in a cell, or a fault. -/
  | give (call : Nat) (o : Outcome Nat)
  /-- A writer learns what became of its value. -/
  | tell (call : Nat) (o : Outcome Unit)
  /-- A writer that is refused takes its value back. -/
  | reject (call : Nat) (f : Fault)
  /-- A value is given back to whoever cancelled the channel. -/
  | recover (cell : Nat)

namespace Errand

/-- The call that the errand is to answer. -/
def calls : Errand → List Nat
  | write k _ | read k _ | give k _ | tell k _ | reject k _ => [k]
  | recover _ => []

/-- The cell that the errand is to empty. -/
def cells : Errand → List Nat
  | write k _ | reject k _ | recover k | give _ (.ok k) => [k]
  | read _ _ | tell _ _ | give _ (.error _) => []

/-- A resolution is an errand. -/
@[simp]
def ofResolution : Resolution Nat Nat → Errand
  | .reader k o => give k o
  | .writer k o => tell k o

/-- What a write owes to itself. A writer that is refused has its cell for itself, whether it
    gives the value back or drops it. -/
@[simp]
def ofWritten (k : Nat) (waits : Bool) : Written Nat → List Errand
  | .handed => [tell k (.ok ())]
  | .queued => if waits then [] else [tell k (.ok ())]
  | .refused r => [reject k r.fault]

/-- What a read owes to itself. -/
@[simp]
def ofRead (k : Nat) : ReadResult Nat → List Errand
  | .settled o => [give k o]
  | .queued => []

end Errand

/-- A channel of cells. -/
structure Cells (α : Type u) where
  channel : Channel Nat Nat
  /-- What is in the cells. -/
  cell : Nat → Option α
  /-- The calls that were made. -/
  called : Nat → Bool
  /-- The answers that the calls have got. -/
  answered : Nat → Option (Answer α)
  /-- What is still to be done. -/
  errands : List Errand

/-- What can be done to a channel of cells. -/
inductive Act (α : Type u) where
  | write (call : Nat) (value : α) (waits : Bool)
  | read (call : Nat) (waits : Bool)
  | close (c : Completion)
  | cancel (f : Fault)
  | errand (e : Errand)

/-- The calls that a channel is to answer. -/
def parties (c : Channel Nat Nat) : List Nat :=
  c.waiting ++ c.queued.filterMap Writer.resumption

namespace Cells

/-- A new channel. -/
def new (b : Buffering) : Cells α := ⟨.new b, fun _ => none, fun _ => false, fun _ => none, []⟩

/-- A call is made; the value that it brings along is in its cell. -/
def ask (s : Cells α) (k : Nat) (value : Option α) (e : Errand) : Cells α :=
  { s with
    cell := Function.update s.cell k value
    called := Function.update s.called k true
    errands := s.errands ++ [e] }

/-- An operation has committed its snapshot, and has its errands still to do. -/
def exchange (s : Cells α) (e : Exchanged Nat Nat β) (own : β → List Errand) : Cells α :=
  { s with
    channel := e.channel
    errands := s.errands ++ (e.resolutions.map Errand.ofResolution ++ own e.result) }

/-- A call is answered; an answer that is there already stays. -/
def reply (s : Cells α) (k : Nat) (r : Answer α) : Cells α :=
  { s with answered := Function.update s.answered k ((s.answered k).orElse fun _ => some r) }

/-- A cell is emptied. -/
def drain (s : Cells α) (k : Nat) : Cells α := { s with cell := Function.update s.cell k none }

/-- What is in a cell, for a reader. -/
def fetch (s : Cells α) (k : Nat) : Outcome α := handOver (⟨none, s.cell k⟩ : Writer Nat α)

/-- An errand is done. -/
def carryOut (s : Cells α) : Errand → Cells α
  | .write k waits => s.exchange (s.channel.write (writer waits k) k) (Errand.ofWritten k waits)
  | .read k false => s.exchange s.channel.tryRead fun o => [.give k o]
  | .read k true => s.exchange (s.channel.read (some k)) (Errand.ofRead k)
  | .give k (.ok j) => (s.drain j).reply k (.read (s.fetch j))
  | .give k (.error f) => s.reply k (.read (.error f))
  | .tell k o => s.reply k (.wrote o)
  | .reject k f => (s.drain k).reply k (.wrote (.error f))
  | .recover k => s.drain k

/-- What can happen next. -/
inductive Step : Cells α → Act α → Cells α → Prop
  | write {s : Cells α} {k : Nat} (a : α) (waits : Bool) : s.called k = false →
      Step s (.write k a waits) (s.ask k (some a) (.write k waits))
  | read {s : Cells α} {k : Nat} (waits : Bool) : s.called k = false →
      Step s (.read k waits) (s.ask k none (.read k waits))
  | close {s : Cells α} (c : Completion) :
      Step s (.close c) (s.exchange (s.channel.close c) fun _ => [])
  | cancel {s : Cells α} (f : Fault) :
      Step s (.cancel f) (s.exchange (s.channel.cancel f) (List.map .recover))
  | errand {s : Cells α} {e : Errand} (before behind : List Errand) :
      s.errands = before ++ e :: behind →
      Step s (.errand e) ({ s with errands := before ++ behind }.carryOut e)

/-! ## What is kept where -/

/-- The calls that are still to be answered. -/
def rights (s : Cells α) : List Nat := s.channel.parties ++ s.errands.flatMap Errand.calls

/-- The cells that are still to be emptied. -/
def holdings (s : Cells α) : List Nat := s.channel.values ++ s.errands.flatMap Errand.cells

end Cells

end ResumeOnce.Channel
