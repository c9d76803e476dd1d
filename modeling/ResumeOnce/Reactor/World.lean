import ResumeOnce.Channel.Basic
import ResumeOnce.Fold.Turn
import ResumeOnce.Lifecycle
import ResumeOnce.Resumption
import ResumeOnce.Scheduler.Board
import ResumeOnce.Script.Command
import ResumeOnce.Script.Entry
import ResumeOnce.Streams.Drive
import ResumeOnce.Streams.Merge
import ResumeOnce.Streams.Source
import ResumeOnce.Streams.Zip

/-!
# The world of a system

Everything that a running system consists of, by number: slots and the rights to
answer them, channels, lifecycles, handles of operations, ends of streams, and
tasks. A task is a stack of frames, each of which waits for the one above it.
What happens in the world is an action on it, which may be cut short by a panic.

* `Frame`: what a task is doing at one level;
* `World`: all there is;
* `Act`: an action on the world.
-/

namespace ResumeOnce.Reactor

open Script (ActionPlan FoldPlan Publisher Receiver Step Waiting Command Entry Scream)
open Streams (Drive Final Machine Merge Source Zip)

/-! ## What is passed around -/

/-- Who is woken: a counter of wakes, a task, the waiting thread, or nobody. -/
inductive Waker where
  | counter (name : String)
  | task (number : Nat)
  | thread
  | nobody
  deriving DecidableEq, Repr, Inhabited

/-- An action for a fold, with the right to answer its sender. -/
structure Action where
  plan : ActionPlan
  ack : Option Nat
  deriving Inhabited

/-- What a channel carries. -/
inductive Cargo where
  | datum (d : Datum)
  | action (a : Action)
  | paired (a : Zip.Action Datum Datum Nat)
  | merged (a : Merge.Action Datum Nat)

instance : Inhabited Cargo := ⟨.datum .null⟩

/-- What a slot delivers. -/
inductive Parcel where
  | unit
  | datum (d : Datum)
  | demand (d : Demand)
  | cargo (c : Cargo)
  | final (f : Final)
  deriving Inhabited

/-- How a frame answers the one below it. -/
abbrev Reply := Outcome Parcel

namespace Parcel

/-- A parcel as a script sees it. -/
def toDatum : Parcel → Datum
  | unit => .null
  | datum d => d
  | demand d => .text d.word
  | cargo (.datum d) => d
  | cargo _ => .null
  | final _ => .null

/-- The demand in a parcel; a parcel without one counts as the end. -/
def toDemand : Parcel → Demand
  | demand d => d
  | _ => .done

/-- The cargo in a parcel. -/
def toCargo : Parcel → Cargo
  | cargo c => c
  | p => .datum p.toDatum

/-- What the fold of a combination came to. -/
def toFinal : Parcel → Final
  | final f => f
  | _ => ⟨none, false⟩

end Parcel

/-! ## Streams -/

/-- How an event enters the channel of a combination. -/
inductive Inlet where
  | left
  | right
  | merged (tag : Option String)
  deriving Inhabited

/-- Where the events of a stream go: to its end, into the channel of a combination, or on with
    nested pairs flattened. -/
inductive Downstream where
  | sink (number : Nat)
  | channel (number : Nat) (inlet : Inlet)
  | flattened (inner : Downstream)
  deriving Inhabited

/-- What a combination combines. -/
inductive Combination where
  | zip (left right : Publisher)
  | merge (feeders : List (Publisher × Option String))
  deriving Inhabited

/-- Where the values of a source come from. -/
inductive Stock where
  | items (values : List Datum)
  | range (next : Int) (bound : Option Int)
  deriving Inhabited

/-- The next value of a stock. -/
def Stock.draw : Stock → Option (Datum × Stock)
  | items [] => none
  | items (d :: rest) => some (d, items rest)
  | range n bound =>
    if bound.any (· ≤ n) then none else some (.int n, range (n + 1) bound)

/-! ## Frames -/

/-- What a frame that waits at a slot holds meanwhile. -/
inductive Hold where
  /-- The waiting side of the slot itself. -/
  | waiter
  /-- The waiting side and a handle of a channel. -/
  | channel (number : Nat)
  /-- A handle of the operation that fills the slot, and the name it was found by. -/
  | operation (handle : Nat) (name : String)
  /-- Nothing: the frame below holds what is needed. -/
  | nothing
  deriving Inhabited

/-- What a program is at. -/
inductive ProgramMode where
  | running
  | waiting (on : Waiting) (subject : Datum) (propagates : Bool)
  | yielding (left wakes total : Nat)
  | landing
  | awaitingShutdown
  deriving Inhabited

/-- A program that runs: its name, the steps to come, and what it was given. A publishing
    program answers with a demand. -/
structure ProgramRun where
  name : String
  steps : List Step
  token : Option Nat
  downstream : Option Downstream
  publishes : Bool
  mode : ProgramMode
  deriving Inhabited

/-- How a fold treats its actions: as a script says, or as a combination of streams. -/
inductive Folder where
  | scripted (name : String) (plain : Bool) (first : List ActionPlan)
  | combining (isZip : Bool) (downstream : Downstream) (feeders : List Nat)
  deriving Inhabited

/-- The state of a fold. -/
inductive FoldState where
  | unstarted
  | scripted (seen : List Datum) (pending : List Action)
  | zip (m : Machine (Zip Datum Datum Nat))
  | merge (m : Machine (Merge Datum Nat))
  deriving Inhabited

/-- How far an emission is. -/
inductive Emitting where
  | idle
  /-- The actions before the index have been looked at. -/
  | scanning (index : Nat)
  /-- The action at the index waits at its gate. -/
  | atGate (index : Nat)
  /-- A value is downstream; its producers wait for the answer. -/
  | delivering (producers : List Nat)
  deriving Inhabited

/-- A fold that runs. -/
structure FoldRun where
  channel : Nat
  folder : Folder
  state : FoldState
  token : Nat
  turn : Fold.Turn Cargo
  emitting : Emitting
  deriving Inhabited

/-- The fold of a combination and the operations of its feeders, by their handles. -/
structure Subscriptions where
  fold : Nat
  feeders : List Nat
  deriving Inhabited

/-- A combination that runs. -/
structure DriveRun where
  combination : Combination
  buffering : Buffering
  downstream : Downstream
  token : Nat
  /-- The fold and the feeders, once they are started. -/
  subscriptions : Option Subscriptions
  drive : Drive
  deriving Inhabited

/-- How far the end of a stream is with an event. -/
inductive SinkStage where
  | called
  /-- The value of an index waits at a gate. -/
  | atGate (index : Nat)
  deriving Inhabited

/-- What a task is doing at one level. -/
inductive Frame where
  | waiting (slot : Nat) (hold : Hold)
  | program (run : ProgramRun) (kept : List Frame)
  | sink (number : Nat) (event : Event Datum) (stage : SinkStage)
  | fold (run : FoldRun)
  | drive (run : DriveRun)
  | source (source : Source Stock Datum) (downstream : Downstream) (token : Nat)
  | failing (fault : Fault) (downstream : Downstream)

instance : Inhabited Frame := ⟨.waiting 0 .nothing⟩

/-! ## The world -/

/-- What a cancellation runs. -/
inductive Hook where
  /-- Close a channel, of which the hook holds a handle. -/
  | closeChannel (number : Nat)
  /-- Cancel another operation. -/
  | cancel (lifecycle : Nat)
  /-- Log the label and carry out commands. -/
  | script (label : String) (commands : List (String × Command))

/-- A slot, and whether its waiting side is still there. -/
structure SlotRecord where
  slot : Slot Waker Parcel
  heard : Bool
  deriving Inhabited

/-- A channel and the number of its handles. -/
structure ChannelRecord where
  channel : Channel Nat Cargo
  handles : Nat
  deriving Inhabited

/-- The sorts of handles of operations. -/
inductive OperationSort where
  | cancellable
  | uncancellable
  /-- A fold, whose handle holds one of its channel as well. -/
  | fold (channel : Nat)
  deriving DecidableEq, Repr, Inhabited

/-- The handle of a spawned operation. -/
structure Handle where
  sort : OperationSort
  lifecycle : Nat
  slot : Nat
  policy : LeakPolicy
  holders : Nat
  deriving Inhabited

/-- The end of a stream: its name, how it answers, and the number of values so far. -/
structure SinkRecord where
  name : String
  receiver : Receiver
  count : Nat
  deriving Inhabited

/-- What a task fills and finishes when it ends. -/
structure Completer where
  lifecycle : Nat
  slot : Nat
  deriving Inhabited

/-- A task: its frames, the uppermost first, and what its end completes. -/
structure Task where
  frames : List Frame
  completer : Option Completer
  deriving Inhabited

/-- Things by their name. -/
abbrev Names := List (String × Nat)

/-- The names without one. -/
def Names.without (names : Names) (name : String) : Names := names.filter (·.1 != name)

/-- The names with a thing under a name, in place of whatever had it. -/
def Names.assign (names : Names) (name : String) (number : Nat) : Names :=
  (name, number) :: names.without name

/-- The names that a script uses, each sort on its own. -/
structure Directory where
  gates : Names
  waiters : Names
  channels : Names
  tasks : Names
  handles : Names
  tokens : Names
  /-- The names of tasks for whose value a program waits, or waited until it went away. -/
  awaited : List String
  deriving Inhabited

/-- Where an action takes place and what is under way. -/
structure Circumstances where
  /-- The leak policy where none is chosen. -/
  policy : LeakPolicy
  /-- The number of panics that are unwinding. -/
  unwinding : Nat
  /-- The worker on whose thread the action takes place. -/
  worker : Option Nat
  isShutdown : Bool
  deriving Inhabited

/-- All there is. -/
structure World where
  slots : Array SlotRecord
  resumptions : Array Resumption
  channels : Array ChannelRecord
  lifecycles : Array (Lifecycle Hook)
  handles : Array Handle
  sinks : Array SinkRecord
  tasks : Array (Option Task)
  board : Scheduler.Board
  directory : Directory
  circumstances : Circumstances
  /-- The number of leaks so far. -/
  leaks : Nat
  /-- The counters that were woken, the last first. -/
  woken : List String
  log : Array Entry
  deriving Inhabited

/-- The world at the begin, with one worker. -/
def World.new (policy : LeakPolicy) : World where
  slots := #[]
  resumptions := #[]
  channels := #[]
  lifecycles := #[]
  handles := #[]
  sinks := #[]
  tasks := #[]
  board := .new 1
  directory := ⟨[], [], [], [], [], [], []⟩
  circumstances := ⟨policy, 0, none, false⟩
  leaks := 0
  woken := []
  log := #[]

/-! ## Actions -/

/-- What cuts an action short: a panic, the end of the program, or the end of patience. -/
inductive Halt where
  | panicked (scream : Scream)
  | aborted
  | exhausted
  deriving Repr, Inhabited

/-- An action on the world. -/
abbrev Act := ExceptT Halt (StateM World)

/-- A panic with a text. -/
def panicWith (text : String) : Act α := throw (.panicked (.text text))

/-- Something happens, and is logged. -/
def logEntry (e : Entry) : Act Unit := modify fun w => { w with log := w.log.push e }

/-- An action with its changes of circumstances. -/
def changeCircumstances (f : Circumstances → Circumstances) : Act Unit :=
  modify fun w => { w with circumstances := f w.circumstances }

/-- An action with its changes of names. -/
def changeDirectory (f : Directory → Directory) : Act Unit :=
  modify fun w => { w with directory := f w.directory }

/-- The leak policy in force, given a choice. -/
def policyOr (chosen : Option LeakPolicy) : Act LeakPolicy :=
  return chosen.getD (← get).circumstances.policy

/-- A cleanup while a panic unwinds. A panic of the cleanup itself ends the program. -/
def whileUnwinding (cleanup : Act Unit) : Act Unit := do
  changeCircumstances fun c => { c with unwinding := c.unwinding + 1 }
  tryCatch cleanup fun
    | .panicked _ => throw .aborted
    | h => throw h
  changeCircumstances fun c => { c with unwinding := c.unwinding - 1 }

/-- An action with a cleanup for the case that it panics. -/
def orUnwind (act : Act α) (cleanup : Act Unit) : Act α :=
  tryCatch act fun
    | .panicked scream => do
      whileUnwinding cleanup
      throw (.panicked scream)
    | h => throw h

/-- Letting go of several things in order. When one of them panics, the others are let go
    while the panic unwinds. -/
def releaseAll : List (Act Unit) → Act Unit
  | [] => pure ()
  | act :: acts => do
    orUnwind act (releaseAll acts)
    releaseAll acts

end ResumeOnce.Reactor
