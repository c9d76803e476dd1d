import ResumeOnce.Reactor.Answering

/-!
# Passing

Channels in the world: their handles, and their operations, which answer parties
that wait.

* `exchange`: an operation on a channel;
* `releaseChannel`: a handle goes away, and with the last one the channel;
* `enter`: an event of a stream enters the channel of a combination.
-/

namespace ResumeOnce.Reactor

variable (env : Env)

/-- A new channel with one handle. -/
def newChannel (buffering : Buffering) : Act Nat := do
  let w ← get
  set { w with channels := w.channels.push ⟨.new buffering, 1⟩ }
  return w.channels.size

/-- The channel of a number. -/
def channelAt (n : Nat) : Act (Channel Nat Cargo) :=
  return ((← get).channels.getD n default).channel

/-- One more handle of a channel. -/
def retainChannel (n : Nat) : Act Unit :=
  modify fun w => { w with channels := w.channels.modify n fun r =>
    { r with handles := r.handles + 1 } }

/-- One resolution is carried out. -/
def carryOut : Resolution Nat Cargo → Act Unit
  | .reader party answer => do
    let _ ← resume env party (answer.map .cargo)
  | .writer party answer => do
    let _ ← resume env party (answer.map fun _ => .unit)

/-- Resolutions are carried out in order. -/
def carryOutAll : List (Resolution Nat Cargo) → Act Unit
  | [] => pure ()
  | r :: rs => do
    carryOut env r
    carryOutAll rs

/-- An operation on a channel: its decision, then the answers to those it took out. -/
def exchange (n : Nat) (operation : Channel Nat Cargo → Exchanged Nat Cargo β) : Act β := do
  let e := operation (← channelAt n)
  modify fun w => { w with channels := w.channels.modify n fun r =>
    { r with channel := e.channel } }
  carryOutAll env e.resolutions
  return e.result

/-- A value is written without waiting. -/
def tryWrite (n : Nat) (cargo : Cargo) : Act (Written Cargo) :=
  exchange env n (·.write none cargo)

/-- A value is read without waiting. -/
def tryRead (n : Nat) : Act (Outcome Cargo) := exchange env n Channel.tryRead

/-- A writer that waits is let go. -/
def dropWriter (writer : Writer Nat Cargo) : Act Unit :=
  releaseAll [dropResumptions env writer.resumption.toList,
    releaseAll (writer.value.toList.map (dropCargo env))]

/-- A handle of a channel goes away. With the last one the channel itself goes, and everybody
    who waits in it. -/
def releaseChannel (n : Nat) : Act Unit := do
  modify fun w => { w with channels := w.channels.modify n fun r =>
    { r with handles := r.handles - 1 } }
  let r := (← get).channels.getD n default
  if r.handles = 0 then
    modify fun w => { w with channels := w.channels.modify n fun r =>
      { r with channel := .new r.channel.buffering } }
    let (readers, writers) := r.channel.remains
    releaseAll [dropResumptions env readers, releaseAll (writers.map (dropWriter env))]

/-! ## Downstreams -/

/-- The channel that a downstream leads into, if any. -/
def Downstream.channel? : Downstream → Option Nat
  | .sink _ => none
  | .channel n _ => some n
  | .flattened inner => inner.channel?

/-- One more copy of a downstream. -/
def retainDownstream (d : Downstream) : Act Unit :=
  match d.channel? with
  | none => pure ()
  | some n => retainChannel n

/-- A copy of a downstream goes away. -/
def releaseDownstream (d : Downstream) : Act Unit :=
  match d.channel? with
  | none => pure ()
  | some n => releaseChannel env n

/-- The cargo of an event that enters at an inlet. -/
def Inlet.cargo (inlet : Inlet) (event : Event Datum) (sender : Nat) : Cargo :=
  match inlet with
  | .left => .paired (.left event sender)
  | .right => .paired (.right event sender)
  | .merged none => .merged ⟨event, sender⟩
  | .merged (some tag) => .merged ⟨event.map (Datum.tagged tag), sender⟩

/-- An event enters the channel of a combination with a right to answer it, at whose slot its
    sender then waits. An event that the channel refuses is settled at once. -/
def enter (channel : Nat) (inlet : Inlet) (event : Event Datum) : Act Nat := do
  let (sender, slot) ← newResumption (← policyOr none)
  match ← tryWrite env channel (inlet.cargo event sender) with
  | .refused refusal =>
    answerAll env [(sender, Streams.settlement (.ofFault refusal.fault))]
  | _ => pure ()
  return slot

/-- An event is pushed to a downstream: the frame that waits for the answer. -/
def push : Downstream → Event Datum → Act Frame
  | .sink n, event => return .sink n event .called
  | .channel n inlet, event => return .waiting (← enter env n inlet event) .waiter
  | .flattened inner, event => push inner (event.map Datum.flattened)

end ResumeOnce.Reactor
