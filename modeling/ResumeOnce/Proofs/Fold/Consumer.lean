import ResumeOnce.Fold.Turn
import ResumeOnce.Proofs.Channel.Contents
import ResumeOnce.Proofs.Run

/-!
# A consumer among others

The consumer of a fold goes from turn to turn; in between anybody may write into its
channel, close it, take its values back, or cancel the fold. What the folder does is
not told: at every turn it may answer what it likes.

* `Consumer`: the channel and where the consumer is;
* `Consumer.Step`: what can happen next;
* `Call`: what the folder was called for, and `calls` in a run;
* `Consumer.Sound`: the consumer is the only reader, and waits for at most one value.
-/

namespace ResumeOnce.Fold

/-- What a folder was called for, with its answer. -/
inductive Call (α : Type) where
  | start
  | reduce (action : α) (effect : Effect)
  | emit (result : Outcome Unit)
  | finalize (c : Completion)
  | dispose (action : α) (c : Completion)

/-- The actions that a call was about. -/
@[simp]
def Call.taken : Call α → List α
  | reduce a _ => [a]
  | dispose a _ => [a]
  | _ => []

/-- The actions that calls were about, in order. -/
def taken (cs : List (Call α)) : List α := cs.flatMap Call.taken

@[simp]
theorem taken_nil : taken ([] : List (Call α)) = [] := rfl

@[simp]
theorem taken_cons (c : Call α) (cs : List (Call α)) : taken (c :: cs) = c.taken ++ taken cs :=
  rfl

@[simp]
theorem taken_append (cs ds : List (Call α)) : taken (cs ++ ds) = taken cs ++ taken ds :=
  List.flatMap_append

/-- The consumer of a fold and its channel. -/
structure Consumer (ρ α : Type) where
  channel : Channel ρ α
  turn : Turn α
  /-- The read that the consumer waits for, with its answer once it has come. -/
  awaited : Option (ρ × Option (Outcome α))
  /-- Whether the fold was cancelled. -/
  cancelled : Bool

/-- What is seen of a step. -/
inductive Event (α : Type) where
  | called (call : Call α)
  | wrote (action : α) (result : Written α)
  | closed (c : Completion) (done : Bool)
  | withdrawn (f : Fault) (actions : List α)
  | cancelled
  | tacit

namespace Event

variable {α : Type}

/-- The action that the channel accepted. -/
@[simp]
def accepted : Event α → List α
  | wrote _ (.refused _) => []
  | wrote a _ => [a]
  | _ => []

/-- The channel accepts one action at a time. -/
theorem length_accepted_le (e : Event α) : e.accepted.length ≤ 1 := by
  cases e with
  | wrote a w => cases w <;> simp
  | _ => simp

/-- The actions that the channel gave back. -/
@[simp]
def withdrawals : Event α → List α
  | withdrawn _ actions => actions
  | _ => []

/-- The call of the folder. -/
@[simp]
def calls : Event α → List (Call α)
  | called call => [call]
  | _ => []

/-- The completion that the channel got. -/
def terminals : Event α → List Completion
  | closed c true => [c]
  | withdrawn f _ => [.failure f]
  | _ => []

end Event

variable {ρ α : Type}

/-- The actions that the channel accepted, in order. -/
def accepted (t : List (Event α)) : List α := t.flatMap Event.accepted

/-- The actions that the channel gave back, in order. -/
def withdrawals (t : List (Event α)) : List α := t.flatMap Event.withdrawals

/-- The calls of the folder, in order. -/
def calls (t : List (Event α)) : List (Call α) := t.flatMap Event.calls

/-- The completions that the channel got, in order. -/
def terminals (t : List (Event α)) : List Completion := t.flatMap Event.terminals

@[simp]
theorem accepted_snoc (t : List (Event α)) (e : Event α) :
    accepted (t ++ [e]) = accepted t ++ e.accepted := by simp [accepted]

@[simp]
theorem withdrawals_snoc (t : List (Event α)) (e : Event α) :
    withdrawals (t ++ [e]) = withdrawals t ++ e.withdrawals := by simp [withdrawals]

@[simp]
theorem calls_snoc (t : List (Event α)) (e : Event α) :
    calls (t ++ [e]) = calls t ++ e.calls := by simp [calls]

@[simp]
theorem terminals_snoc (t : List (Event α)) (e : Event α) :
    terminals (t ++ [e]) = terminals t ++ e.terminals := by simp [terminals]

namespace Consumer

variable {s s' : Consumer ρ α}

/-- A consumer at its begin. -/
def new (b : Buffering) : Consumer ρ α := ⟨.new b, .start, none, false⟩

/-- The actions that the consumer has taken out of the channel and not yet passed on. -/
def hand (s : Consumer ρ α) : List α :=
  match s.turn, s.awaited with
  | .reduce a, _ => [a]
  | .dispose a _, _ => [a]
  | .read, some (_, some (.ok a)) => [a]
  | _, _ => []

/-- The actions that are to be passed on: what is in hand, and what is in the channel. -/
def load (s : Consumer ρ α) : List α := s.hand ++ s.channel.values

/-- The consumer, if it waits for a value. -/
def parked (s : Consumer ρ α) : List ρ :=
  match s.awaited with
  | some (p, none) => [p]
  | _ => []

/-- The consumer goes on with a turn. -/
def goOn (s : Consumer ρ α) (turn : Turn α) : Consumer ρ α := { s with turn }

@[simp]
theorem goOn_channel (s : Consumer ρ α) (t : Turn α) : (s.goOn t).channel = s.channel := rfl

@[simp]
theorem goOn_turn (s : Consumer ρ α) (t : Turn α) : (s.goOn t).turn = t := rfl

@[simp]
theorem goOn_awaited (s : Consumer ρ α) (t : Turn α) : (s.goOn t).awaited = s.awaited := rfl

/-- What a checkpoint tells. -/
def checkpoint (s : Consumer ρ α) : Outcome Unit :=
  if s.cancelled then .error Fault.cancelled else .ok ()

/-- A consumer that waits is answered. -/
def answer (s : Consumer ρ α) (o : Outcome α) : Consumer ρ α :=
  { s with awaited := s.awaited.map fun w => (w.1, w.2.orElse fun _ => some o) }

/-- What is in order in a fold: the channel is sound, the consumer alone reads from it, and it
    waits for a value only at the turn of reading. -/
structure Sound (s : Consumer ρ α) : Prop where
  channel : s.channel.Sound
  waiting : s.channel.waiting = s.parked
  reading : s.awaited.isSome → s.turn = .read

theorem sound_new (b : Buffering) : (new b : Consumer ρ α).Sound where
  channel := (Channel.shows_new b).sound
  waiting := rfl
  reading h := by cases h

/-! ## Steps -/

variable [DecidableEq ρ]

/-- A resolution reaches the consumer if it is for the read that it waits for. -/
def receive (s : Consumer ρ α) : Resolution ρ α → Consumer ρ α
  | .reader r o =>
    match s.awaited with
    | some (p, none) => if p = r then { s with awaited := some (p, some o) } else s
    | _ => s
  | .writer _ _ => s

/-- An operation has changed the channel, and those whom it took out are answered. -/
def exchange (s : Consumer ρ α) (e : Exchanged ρ α β) : Consumer ρ α :=
  e.resolutions.foldl receive { s with channel := e.channel }

/-- The consumer reads, and waits if there is nothing to read. -/
def read (s : Consumer ρ α) (p : ρ) : Consumer ρ α :=
  let e := s.channel.read (some p)
  match e.result with
  | .settled o => (s.exchange e).goOn (Turn.next .read o)
  | .queued => { s.exchange e with awaited := some (p, none) }

/-- The consumer closes the channel. -/
def finish (s : Consumer ρ α) (c : Completion) : Consumer ρ α :=
  (s.exchange (s.channel.close c)).goOn (Turn.next (.close c) ())

/-- What can happen to a fold. -/
inductive Step : Consumer ρ α → Event α → Consumer ρ α → Prop
  | write {s : Consumer ρ α} (p : Option ρ) (a : α) :
      Step s (.wrote a (s.channel.write p a).result) (s.exchange (s.channel.write p a))
  | close {s : Consumer ρ α} (c : Completion) :
      Step s (.closed c (s.channel.close c).result) (s.exchange (s.channel.close c))
  | withdraw {s : Consumer ρ α} (f : Fault) :
      Step s (.withdrawn f (s.channel.cancel f).result) (s.exchange (s.channel.cancel f))
  | cancel {s : Consumer ρ α} : Step s .cancelled { s with cancelled := true }
  | start {s : Consumer ρ α} : s.turn = .start →
      Step s (.called .start) (s.goOn (Turn.next .start ()))
  | checkpoint {s : Consumer ρ α} : s.turn = .checkpoint →
      Step s .tacit (s.goOn (Turn.next .checkpoint s.checkpoint))
  | read {s : Consumer ρ α} (p : ρ) : s.turn = .read → s.awaited = none →
      Step s .tacit (s.read p)
  | resume {s : Consumer ρ α} {p : ρ} {o : Outcome α} : s.turn = .read →
      s.awaited = some (p, some o) →
      Step s .tacit ({ s with awaited := none }.goOn (Turn.next .read o))
  | reduce {s : Consumer ρ α} {a : α} (effect : Effect) : s.turn = .reduce a →
      Step s (.called (.reduce a effect)) (s.goOn (Turn.next (.reduce a) effect))
  | emit {s : Consumer ρ α} (o : Outcome Unit) : s.turn = .emit →
      Step s (.called (.emit o)) (s.goOn (Turn.next .emit o))
  | finish {s : Consumer ρ α} {c : Completion} : s.turn = .close c →
      Step s (.closed c (s.channel.close c).result) (s.finish c)
  | finalize {s : Consumer ρ α} {c : Completion} : s.turn = .finalize c →
      Step s (.called (.finalize c)) (s.goOn (Turn.next (.finalize c) ()))
  | drain {s : Consumer ρ α} {c : Completion} : s.turn = .drain c →
      Step s .tacit ((s.exchange s.channel.tryRead).goOn
        (Turn.next (.drain c) s.channel.tryRead.result))
  | dispose {s : Consumer ρ α} {a : α} {c : Completion} : s.turn = .dispose a c →
      Step s (.called (.dispose a c)) (s.goOn (Turn.next (.dispose a c) ()))

end Consumer

end ResumeOnce.Fold
