import Mathlib.Logic.Function.Basic
import ResumeOnce.Proofs.Channel.Contents
import ResumeOnce.Proofs.Run

/-!
# Traffic on a channel

Anybody may use a channel at any time. A call is made, begins with its first poll,
and is answered at once or later; a later poll finds the answer, and whoever made
the call may drop it at any time. In between the channel may be closed or cancelled.
A call that does not wait begins and ends with one poll.

* `Traffic`: the channel and the calls, by number;
* `Traffic.Step`: what can happen next, with what is seen of it;
* `accepted`, `reads`, `handovers`, `returned`: what a run did with the values.
-/

namespace ResumeOnce.Channel

variable {α : Type u}

/-- A call on a channel, which may wait or not. -/
inductive Call (α : Type u) where
  | read (waits : Bool)
  | write (value : α) (waits : Bool)

/-- What a call is answered. -/
inductive Answer (α : Type u) where
  | read (o : Outcome α)
  | wrote (o : Outcome Unit)

/-- A channel and the calls on it, by number. -/
structure Traffic (α : Type u) where
  channel : Channel Nat α
  /-- The calls that were made. -/
  made : Nat → Option (Call α)
  /-- The calls that were polled. -/
  begun : Nat → Option (Call α)
  /-- The answers that have come. -/
  answered : Nat → Option (Answer α)
  /-- Whether nobody polls a call any more. -/
  gone : Nat → Bool

namespace Traffic

/-- A new channel, on which no call was made. -/
def new (b : Buffering) : Traffic α :=
  ⟨.new b, fun _ => none, fun _ => none, fun _ => none, fun _ => false⟩

/-- A call is answered; an answer that is there already stays. -/
def reply (s : Traffic α) (k : Nat) (r : Answer α) : Traffic α :=
  { s with answered := Function.update s.answered k ((s.answered k).orElse fun _ => some r) }

/-- A resolution is carried out. -/
def carryOut (s : Traffic α) : Resolution Nat α → Traffic α
  | .reader k o => s.reply k (.read o)
  | .writer k o => s.reply k (.wrote o)

/-- An operation has changed the channel, and those whom it took out are answered. -/
def exchange (s : Traffic α) (e : Exchanged Nat α β) : Traffic α :=
  e.resolutions.foldl carryOut { s with channel := e.channel }

/-- A call was polled for the first time, and may have its answer. -/
def begin (s : Traffic α) (k : Nat) (call : Call α) (r : Option (Answer α)) : Traffic α :=
  { s with
    begun := Function.update s.begun k (some call)
    answered := Function.update s.answered k r }

/-- Nobody polls a call any more. -/
def leave (s : Traffic α) (k : Nat) : Traffic α :=
  { s with gone := Function.update s.gone k true }

end Traffic

/-! ## What is seen -/

/-- What is seen of a step. -/
inductive Event (α : Type u) where
  | made (number : Nat) (call : Call α)
  | read (number : Nat) (result : ReadResult α)
  | wrote (number : Nat) (waits : Bool) (value : α) (result : Written α)
      (resolutions : List (Resolution Nat α))
  | polled (number : Nat) (answer : Option (Answer α))
  | dropped (number : Nat)
  | closed (c : Completion) (done : Bool)
  | cancelled (f : Fault) (values : List α)

/-- Who is answered when the value of a write is read, if the write waits. -/
def writer (waits : Bool) (k : Nat) : Option Nat := if waits then some k else none

namespace Event

/-- The writer and the value that the channel accepted; the writer has a number if it waits. -/
def accepted : Event α → List (Option Nat × α)
  | wrote _ _ _ (.refused _) _ => []
  | wrote k waits a _ _ => [(writer waits k, a)]
  | _ => []

/-- The read that took a value or was queued. -/
def reads : Event α → List Nat
  | read _ (.settled (.error _)) => []
  | read k _ => [k]
  | _ => []

/-- The value that was handed over, and the read that got it. -/
def handovers : Event α → List (α × Nat)
  | read k (.settled (.ok a)) => [(a, k)]
  | wrote _ _ _ _ rs => rs.filterMap fun
    | .reader k (.ok a) => some (a, k)
    | _ => none
  | _ => []

/-- The values that a cancellation gave back, each with the fault of the cancellation. -/
def returned : Event α → List (α × Fault)
  | cancelled f values => values.map (·, f)
  | _ => []

end Event

/-- The writers and values that the channel accepted, in order. -/
def accepted (t : List (Event α)) : List (Option Nat × α) := t.flatMap Event.accepted

/-- The reads that took a value or were queued, in order. -/
def reads (t : List (Event α)) : List Nat := t.flatMap Event.reads

/-- The values that were handed over and the reads that got them, in order. -/
def handovers (t : List (Event α)) : List (α × Nat) := t.flatMap Event.handovers

/-- The values that were given back, in order. -/
def returned (t : List (Event α)) : List (α × Fault) := t.flatMap Event.returned

@[simp]
theorem accepted_snoc (t : List (Event α)) (e : Event α) :
    accepted (t ++ [e]) = accepted t ++ e.accepted := by simp [accepted]

@[simp]
theorem reads_snoc (t : List (Event α)) (e : Event α) :
    reads (t ++ [e]) = reads t ++ e.reads := by simp [reads]

@[simp]
theorem handovers_snoc (t : List (Event α)) (e : Event α) :
    handovers (t ++ [e]) = handovers t ++ e.handovers := by simp [handovers]

@[simp]
theorem returned_snoc (t : List (Event α)) (e : Event α) :
    returned (t ++ [e]) = returned t ++ e.returned := by simp [returned]

/-! ## Steps -/

namespace Traffic

/-- The answer of a read that was begun, if it has one at once. -/
def readAnswer : ReadResult α → Option (Answer α)
  | .settled o => some (.read o)
  | .queued => none

/-- The answer of a write that was begun, if it has one at once. -/
def writeAnswer (waits : Bool) : Written α → Option (Answer α)
  | .handed => some (.wrote (.ok ()))
  | .queued => if waits then none else some (.wrote (.ok ()))
  | .refused r => some (.wrote (.error r.fault))

/-- A call is polled for the first time. -/
def beginCall (s : Traffic α) (k : Nat) (call : Call α) : Traffic α × Event α :=
  match call with
  | .read false =>
    let e := s.channel.tryRead
    ((s.exchange e).begin k call (some (.read e.result)), .read k (.settled e.result))
  | .read true =>
    let e := s.channel.read (some k)
    ((s.exchange e).begin k call (readAnswer e.result), .read k e.result)
  | .write a waits =>
    let e := s.channel.write (writer waits k) a
    ((s.exchange e).begin k call (writeAnswer waits e.result),
      .wrote k waits a e.result e.resolutions)

/-- What can happen on a channel. -/
inductive Step : Traffic α → Event α → Traffic α → Prop
  | make {s : Traffic α} {k : Nat} (call : Call α) : s.made k = none →
      Step s (.made k call) { s with made := Function.update s.made k (some call) }
  | begin {s : Traffic α} {k : Nat} {call : Call α} : s.made k = some call → s.begun k = none →
      s.gone k = false → Step s (s.beginCall k call).2 (s.beginCall k call).1
  | poll {s : Traffic α} {k : Nat} : (s.begun k).isSome → s.gone k = false →
      Step s (.polled k (s.answered k)) (if (s.answered k).isSome then s.leave k else s)
  | drop {s : Traffic α} (k : Nat) : Step s (.dropped k) (s.leave k)
  | close {s : Traffic α} (c : Completion) :
      Step s (.closed c (s.channel.close c).result) (s.exchange (s.channel.close c))
  | cancel {s : Traffic α} (f : Fault) :
      Step s (.cancelled f (s.channel.cancel f).result) (s.exchange (s.channel.cancel f))

/-! ## What steps do -/

@[simp]
theorem exchange_nil (s : Traffic α) (c : Channel Nat α) (r : β) :
    s.exchange ⟨c, [], r⟩ = { s with channel := c } := rfl

@[simp]
theorem carryOut_channel (s : Traffic α) (r : Resolution Nat α) :
    (s.carryOut r).channel = s.channel := by cases r <;> rfl

@[simp]
theorem carryOut_begun (s : Traffic α) (r : Resolution Nat α) :
    (s.carryOut r).begun = s.begun := by cases r <;> rfl

theorem foldl_carryOut_channel (rs : List (Resolution Nat α)) (s : Traffic α) :
    (rs.foldl carryOut s).channel = s.channel := by
  induction rs generalizing s with
  | nil => rfl
  | cons r rs ih => rw [List.foldl_cons, ih, carryOut_channel]

theorem foldl_carryOut_begun (rs : List (Resolution Nat α)) (s : Traffic α) :
    (rs.foldl carryOut s).begun = s.begun := by
  induction rs generalizing s with
  | nil => rfl
  | cons r rs ih => rw [List.foldl_cons, ih, carryOut_begun]

@[simp]
theorem exchange_channel (s : Traffic α) (e : Exchanged Nat α β) :
    (s.exchange e).channel = e.channel := foldl_carryOut_channel _ _

@[simp]
theorem exchange_begun (s : Traffic α) (e : Exchanged Nat α β) :
    (s.exchange e).begun = s.begun := foldl_carryOut_begun _ _

@[simp]
theorem beginCall_begun (s : Traffic α) (k : Nat) (call : Call α) :
    (s.beginCall k call).1.begun = Function.update s.begun k (some call) := by
  rcases call with ⟨_ | _⟩ | ⟨a, waits⟩ <;> simp [beginCall, begin]

/-- Readers that get one answer have it, unless they had another before. -/
theorem foldl_readers_answered (o : Outcome α) (rs : List Nat) (s : Traffic α) (k : Nat) :
    ((rs.map (Resolution.reader · o)).foldl carryOut s).answered k =
      if k ∈ rs then (s.answered k).orElse fun _ => some (.read o) else s.answered k := by
  induction rs generalizing s with
  | nil => rfl
  | cons r rs ih =>
    rw [List.map_cons, List.foldl_cons, ih]
    by_cases hr : k = r
    · subst hr
      cases hk : s.answered k <;> simp [carryOut, reply, hk]
    · simp [carryOut, reply, hr]

/-- Writers that get one answer have it, unless they had another before. -/
theorem foldl_writers_answered (o : Outcome Unit) (ws : List (Writer Nat α)) (s : Traffic α)
    (k : Nat) :
    ((ws.flatMap fun w => w.resumption.toList.map (Resolution.writer · o)).foldl
        carryOut s).answered k =
      if some k ∈ ws.map Writer.resumption then (s.answered k).orElse fun _ => some (.wrote o)
      else s.answered k := by
  induction ws generalizing s with
  | nil => rfl
  | cons w ws ih =>
    obtain ⟨_ | r, v⟩ := w
    · -- A writer that does not wait is told nothing.
      simpa using ih s
    · rw [List.flatMap_cons, List.foldl_append, ih]
      by_cases hr : k = r
      · subst hr
        cases hk : s.answered k <;> simp [carryOut, reply, hk]
      · simp [carryOut, reply, hr]

end Traffic

end ResumeOnce.Channel
