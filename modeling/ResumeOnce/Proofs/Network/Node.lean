import ResumeOnce.Proofs.Network.Call
import ResumeOnce.Streams.Drive

/-!
# Combinations among others

A combination is a stream with two tasks. One of them drives it: it subscribes to the feeders,
starts the fold, waits for it, pushes the completion and waits for the feeders. The other one
is the fold, which takes the events of the feeders out of its channel and pushes values. Each
feeder is a stream of its own, whose downstream is the channel.

A task goes on when it is awake. Where it finds nothing it leaves its waker and sleeps: the fold
at its channel, both of them at the slot of the answer to their event, and the drive at the
result of the fold and at the results of the feeders.

To cancel is one step here, with all that is done by it at once: the fold is cancelled, and its
channel is closed. So is the first step of the drive, which sees to it that a cancellation reaches
the fold. Whatever is said of the runs here holds for a cancellation at any moment; what it comes to
when others go on in between is told in `ResumeOnce.Proofs.Network.Staging`.

* `Node`: a combination, its tasks and its feeders;
* `Node.change`, `Node.receive`, `Node.release` and so on: what is done to it;
* `Node.Step`: what its tasks and its feeders do;
* `System.combine`: a combination as a stream.
-/

namespace ResumeOnce.Streams

variable {C : Combiner}

/-- Whether something is done by a fold without its downstream. -/
def Deed.Inward : Deed C → Prop
  | .reduced .. | .finalized _ | .disposed .. | .tacit => True
  | _ => False

namespace Combination

/-- The fold is cancelled, and its channel is closed. -/
def quit (s : Combination C) : Combination C :=
  let f := { s.consumer with cancelled := true }
  { s with consumer := f.exchange (f.channel.close (.failure Fault.cancelled)) }

/-- What the fold comes to, once it is final. -/
def final (s : Combination C) : Final := ⟨s.machine.completion, s.machine.downstreamEnded⟩

end Combination

namespace Drive

/-- The index of the feeder whose end is awaited. -/
def awaits : Drive → Option Nat
  | awaitCancelled i _ => some i
  | awaitFeeder i _ _ => some i
  | _ => none

/-- What a combination does when the feeder whose end it awaits is over. -/
def passed (feeders : Nat) : Drive → Drive
  | awaitCancelled i f => next feeders (awaitCancelled i f) ()
  | awaitFeeder i delivered c => next feeders (awaitFeeder i delivered c) ()
  | d => d

end Drive

end ResumeOnce.Streams

namespace ResumeOnce.Network

open Streams

/-- The tasks of a combination. -/
inductive Agent where
  /-- The one that folds the events of the feeders. -/
  | fold
  /-- The one that drives the combination. -/
  | drive
  deriving DecidableEq

/-- A combination of streams that has been subscribed to. -/
structure Node (C : Combiner) (S : (i : C.Feeder) → System (C.Input i)) where
  /-- Whether the feeders were subscribed to, and the fold was started. -/
  started : Bool
  cancelled : Bool
  finished : Bool
  awake : Agent → Bool
  drive : Drive
  fold : Combination C
  /-- Whether the fold has left its waker with the read that it waits for. -/
  parked : Bool
  /-- Where the fold leaves what it comes to. -/
  final : Slot Agent Final
  /-- Who has called the downstream, and the slot at which it waits for the answer. -/
  outlet : Option (Agent × Slot Agent Demand)
  feeder : (i : C.Feeder) → (S i).State
  /-- Where a feeder leaves what it comes to. -/
  result : C.Feeder → Slot Agent Demand

variable {C : Combiner} {S : (i : C.Feeder) → System (C.Input i)}

/-- The feeders behind some answers, given the events that they wait for. -/
def heard (waiting : C.Feeder → Option C.Right) (as : Answers C.Right)
    (feeder : (i : C.Feeder) → (S i).State) : (i : C.Feeder) → (S i).State :=
  fun i =>
    match (waiting i).bind fun r => List.lookup r as with
    | some o => (S i).answer o (feeder i)
    | none => feeder i

/-- The feeders behind a step of the fold: they get its answers, and are cancelled at its end. -/
def directed (waiting : C.Feeder → Option C.Right) (e : Seen C)
    (feeder : (i : C.Feeder) → (S i).State) : (i : C.Feeder) → (S i).State :=
  match e.deed with
  | .finalized _ => fun i => (S i).cancel (heard waiting e.answers feeder i)
  | _ => heard waiting e.answers feeder

namespace Node

/-- A combination at its begin. -/
def new (C : Combiner) (S : (i : C.Feeder) → System (C.Input i)) : Node C S where
  started := false
  cancelled := false
  finished := false
  awake _ := true
  drive := .awaitFold
  fold := .new C
  parked := false
  final := .new
  outlet := none
  feeder i := (S i).start
  result _ := .new

/-- Whether a task is runnable: it was spawned and has not ended, and is awake. -/
def Runs (s : Node C S) : Agent → Prop
  | .fold => s.started = true ∧ s.final.isComplete = false ∧ s.awake .fold = true
  | .drive => s.finished = false ∧ s.awake .drive = true

/-! ## What is done to a combination -/

/-- A task is woken, if there is a waker. -/
def wake (w : Option Agent) (s : Node C S) : Node C S :=
  { s with awake := fun a => s.awake a || w == some a }

/-- A task sleeps. -/
def sleep (a : Agent) (s : Node C S) : Node C S :=
  { s with awake := Function.update s.awake a false }

/-- The fold has changed; if the read that it waits for was answered, it is woken. -/
def change (f : Combination C) (s : Node C S) : Node C S :=
  { s with
    fold := f
    parked := s.parked && !f.consumer.parked.isEmpty }.wake
      (if s.parked && f.consumer.parked.isEmpty then some .fold else none)

/-- The fold has taken a step, and directs the feeders. -/
def follow (e : Seen C) (f : Combination C) (s : Node C S) : Node C S :=
  { s with feeder := directed s.fold.unanswered e s.feeder }.change f

/-- The fold is cancelled, unless it was before, or is over. -/
def cancelFold (s : Node C S) : Node C S :=
  if s.fold.consumer.cancelled || s.final.isComplete then s else s.change s.fold.quit

/-- The feeders are subscribed to, and the fold is started. If the combination was cancelled
    before, so is the fold. -/
def launch (s : Node C S) : Node C S :=
  let s' := { s with started := true }
  if s.cancelled then s'.cancelFold else s'

/-- The combination is cancelled, unless it was before, or is over; and with it the fold. -/
def cancel (s : Node C S) : Node C S :=
  if s.cancelled || s.finished then s
  else
    let s' := { s with cancelled := true }
    if s.started then s'.cancelFold else s'

/-- The downstream is called. -/
def call (a : Agent) (s : Node C S) : Node C S := { s with outlet := some (a, .new) }

/-- The downstream answers, and whoever waits for it is woken. -/
def answer (o : Outcome Demand) (s : Node C S) : Node C S :=
  match s.outlet with
  | none => s
  | some (a, slot) => { s with outlet := some (a, (slot.complete o).1) }.wake (slot.complete o).2

/-- A feeder has called its downstream: the event comes into the channel, or is refused. -/
def receive (i : C.Feeder) (e : Event (C.Input i)) (state : (S i).State) (s : Node C S) :
    Node C S :=
  { s with
    feeder := heard (s.fold.count i e).unanswered (s.fold.send i e).2.answers
      (Function.update s.feeder i state) }.change (s.fold.send i e).1

/-- A feeder is over, and whoever waits for it is woken. -/
def release (i : C.Feeder) (r : Outcome Demand) (state : (S i).State) (s : Node C S) : Node C S :=
  { s with
    feeder := Function.update s.feeder i state
    result := Function.update s.result i ((s.result i).complete r).1 }.wake
      ((s.result i).complete r).2

/-- The task of the fold ends, and whoever waits for it is woken. -/
def conclude (s : Node C S) : Node C S :=
  ({ s with final := (s.final.complete (.ok s.fold.final)).1 }.wake
    (s.final.complete (.ok s.fold.final)).2).sleep .fold

/-! ## What a cancellation does -/

section Cancelled

variable {P : Node C S → Prop} {s : Node C S}

/-- Whatever holds when the fold is cancelled or left alone. -/
theorem cancelFold_of (h : P s) (hq : P (s.change s.fold.quit)) : P s.cancelFold := by
  rw [cancelFold]
  split
  · exact h
  · exact hq

theorem launch_of (h : P { s with started := true }) (hf : ∀ s, P s → P s.cancelFold) :
    P s.launch := by
  rw [launch]
  split
  · exact hf _ h
  · exact h

theorem cancel_of (h : P s) (hc : P { s with cancelled := true })
    (hf : ∀ s, P s → P s.cancelFold) : P s.cancel := by
  rw [cancel]
  split
  · exact h
  · dsimp only
    split
    · exact hf _ hc
    · exact hc

end Cancelled

/-! ## Steps -/

/-- What happens in a combination whose feeders are awaited in some order: its tasks do what they
    are about to do, and so do the feeders. -/
inductive Step (order : List C.Feeder) : Node C S → Move C.Output → Node C S → Prop
  | launch {s : Node C S} : s.Runs .drive → s.started = false → Step order s .tacit s.launch
  -- The task of the fold.
  | fold {s : Node C S} {e : Seen C} {f : Combination C} : s.Runs .fold →
      Combination.Step s.fold e f → e.deed.Inward → Step order s .tacit (s.follow e f)
  | park {s : Node C S} {p : Nat} : s.Runs .fold → s.fold.consumer.awaited = some (p, none) →
      Step order s .tacit ({ s with parked := true }.sleep .fold)
  | push {s : Node C S} {v : C.Output} {ps : List C.Right} {as : Answers C.Right}
      {f : Combination C} : s.Runs .fold → s.outlet = none →
      Combination.Step s.fold ⟨.pushed v ps, as⟩ f →
      Step order s (.calls (.value v)) ((s.call .fold).follow ⟨.pushed v ps, as⟩ f)
  | reply {s : Node C S} {slot slot' : Slot Agent Demand} {w : Option Agent} {o : Outcome Demand}
      {v : C.Output} {ps : List C.Right} {as : Answers C.Right} {f : Combination C} :
      s.Runs .fold → s.outlet = some (.fold, slot) → slot.poll .fold = (slot', w, .ready o) →
      Combination.Step s.fold ⟨.replied v ps o, as⟩ f →
      Step order s .tacit ({ s with outlet := none }.follow ⟨.replied v ps o, as⟩ f)
  | stop {s : Node C S} {c : Completion} : s.Runs .fold → s.fold.consumer.turn = .stop c →
      Step order s .tacit s.conclude
  -- Whoever has called the downstream and finds no answer.
  | wait {s : Node C S} {a : Agent} {slot slot' : Slot Agent Demand} {w : Option Agent} :
      s.Runs a → s.started = true → s.outlet = some (a, slot) →
      slot.poll a = (slot', w, .pending) →
      Step order s .tacit ({ s with outlet := some (a, slot') }.sleep a)
  -- The task of the drive.
  | attend {s : Node C S} {slot : Slot Agent Final} {w : Option Agent} : s.Runs .drive →
      s.started = true → s.drive = .awaitFold → s.final.poll .drive = (slot, w, .pending) →
      Step order s .tacit ({ s with final := slot }.sleep .drive)
  | learn {s : Node C S} {slot : Slot Agent Final} {w : Option Agent} {o : Outcome Final} :
      s.Runs .drive → s.started = true → s.drive = .awaitFold →
      s.final.poll .drive = (slot, w, .ready o) →
      Step order s .tacit { s with
        final := slot
        drive := Drive.next order.length .awaitFold o }
  | complete {s : Node C S} {c : Completion} : s.Runs .drive → s.started = true →
      s.drive = .push c → s.outlet = none → Step order s (.calls (.completion c)) (s.call .drive)
  | completed {s : Node C S} {c : Completion} {slot slot' : Slot Agent Demand} {w : Option Agent}
      {o : Outcome Demand} : s.Runs .drive → s.started = true → s.drive = .push c →
      s.outlet = some (.drive, slot) → slot.poll .drive = (slot', w, .ready o) →
      Step order s .tacit { s with
        outlet := none
        drive := Drive.next order.length (.push c) o }
  | dismiss {s : Node C S} {k : Nat} {f : Fault} {i : C.Feeder} : s.Runs .drive →
      s.started = true → s.drive = .cancelFeeder k f → order[k]? = some i →
      Step order s .tacit { s with
        feeder := Function.update s.feeder i ((S i).cancel (s.feeder i))
        drive := Drive.next order.length (.cancelFeeder k f) () }
  | linger {s : Node C S} {k : Nat} {i : C.Feeder} {slot : Slot Agent Demand}
      {w : Option Agent} : s.Runs .drive → s.started = true → s.drive.awaits = some k →
      order[k]? = some i → (s.result i).poll .drive = (slot, w, .pending) →
      Step order s .tacit ({ s with result := Function.update s.result i slot }.sleep .drive)
  | leave {s : Node C S} {k : Nat} {i : C.Feeder} {slot : Slot Agent Demand} {w : Option Agent}
      {o : Outcome Demand} : s.Runs .drive → s.started = true → s.drive.awaits = some k →
      order[k]? = some i → (s.result i).poll .drive = (slot, w, .ready o) →
      Step order s .tacit { s with
        result := Function.update s.result i slot
        drive := s.drive.passed order.length }
  | finish {s : Node C S} {r : Outcome Demand} : s.Runs .drive → s.started = true →
      s.drive = .settled r → Step order s (.ends r) ({ s with finished := true }.sleep .drive)
  -- The feeders.
  | feeder {s : Node C S} {i : C.Feeder} {state : (S i).State} : s.started = true →
      (S i).Step (s.feeder i) .tacit state →
      Step order s .tacit { s with feeder := Function.update s.feeder i state }
  | receive {s : Node C S} {i : C.Feeder} {e : Event (C.Input i)} {state : (S i).State} :
      s.started = true → (S i).Step (s.feeder i) (.calls e) state →
      Step order s .tacit (s.receive i e state)
  | release {s : Node C S} {i : C.Feeder} {r : Outcome Demand} {state : (S i).State} :
      s.started = true → (S i).Step (s.feeder i) (.ends r) state →
      Step order s .tacit (s.release i r state)

end Node

/-- The stream of a combination, whose feeders are awaited in some order. -/
def System.combine (C : Combiner) (S : (i : C.Feeder) → System (C.Input i))
    (order : List C.Feeder) : System C.Output where
  State := Node C S
  start := .new C S
  Step := Node.Step order
  answer := Node.answer
  cancel := Node.cancel
  Runnable s := (∃ a, s.Runs a) ∨ s.started = true ∧ ∃ i, (S i).Runnable (s.feeder i)

end ResumeOnce.Network
