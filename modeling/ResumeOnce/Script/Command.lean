import ResumeOnce.Channel.Snapshot
import ResumeOnce.Datum
import ResumeOnce.Leak
import ResumeOnce.Streams.Event

/-!
# Scripts

A script drives a system of tasks, channels, folds and streams by name. Its
commands are carried out one after another; a program is what a task does, step
by step; a publisher is where the events of a stream come from, and a receiver is
how the end of a stream answers them.

* `Command`: what a script can do to the system;
* `Step`: what a task can do;
* `Publisher`, `Receiver`, `FoldPlan`: streams and folds.
-/

namespace ResumeOnce.Script

/-- What the reduction of an action does besides keeping it. -/
inductive Reduction where
  | keep
  | finish
  | fail (f : Fault)
  | panic
  deriving Inhabited

/-- What emitting an action does. -/
inductive Emission where
  | emit
  | skip
  | fail (f : Fault)
  | panic
  /-- Wait at a gate first. -/
  | awaits (gate : String)
  deriving Inhabited

/-- An action for a fold: its value, the name under which its sender waits for an answer, and
    what the fold does with it. -/
structure ActionPlan where
  value : Datum
  ack : Option String
  policy : Option LeakPolicy
  reduction : Reduction
  emission : Emission
  deriving Inhabited

/-- A fold: the buffering of its channel, the actions written before it starts, the completion
    with which the channel is then closed, and the actions written when it starts. A plain
    fold never emits. -/
structure FoldPlan where
  buffering : Buffering
  before : List ActionPlan
  closed : Option Completion
  plain : Bool
  first : List ActionPlan
  deriving Inhabited

/-- How the end of a stream answers a completion. -/
inductive Farewell where
  | answer (d : Demand)
  | fail (f : Fault)
  | panic
  deriving Inhabited

/-- How the end of a stream answers events: at which values it panics, fails or waits at a
    gate, and at which it is done. -/
structure Receiver where
  panicAt : Option Nat
  failAt : Option Nat
  fault : Fault
  gateAt : Option Nat
  gate : String
  limit : Option Nat
  farewell : Farewell
  deriving Inhabited

/-- What a step of a task waits for. -/
inductive Waiting where
  | checkpoint
  | gate (name : String)
  | value (task : String)
  | read (channel : String) (blocking : Bool)
  | write (channel : String) (value : Datum) (blocking : Bool)
  | emit (value : Datum)
  | complete (c : Completion)

/-- The name of what a step waits for. -/
def Waiting.name : Waiting → String
  | checkpoint => "checkpoint"
  | gate _ => "await"
  | value _ => "value"
  | read _ _ => "read"
  | write _ _ _ => "write"
  | emit _ => "emit"
  | complete _ => "complete"

/-- What a panic carries: a text, or something that is no text. -/
inductive Scream where
  | text (s : String)
  | wordless
  deriving Repr, Inhabited

namespace Scream

/-- The panic with a text that is always the same. -/
def fixed : Scream := text "static payload"

/-- The text of a panic. -/
def message : Scream → String
  | text s => s
  | wordless => "task panicked"

end Scream

mutual

/-- What a script can do to the system. -/
inductive Command where
  | log (x : Datum)
  | leaks
  | setDefault (p : LeakPolicy)
  | panic (text : String)
  | gate (name : String) (policy : Option LeakPolicy)
  | openGate (name : String) (answer : Outcome Datum)
  | dropGate (name : String)
  | dropWaiter (name : String)
  | pollGate (name : String)
  | channel (name : String) (buffering : Buffering)
  | dropChannel (name : String)
  | tryWrite (channel : String) (value : Datum)
  | tryRead (channel : String)
  | close (channel : String) (c : Completion)
  | cancelChannel (channel : String) (f : Fault)
  | channelState (channel : String)
  | spawn (name : String) (program : List Step) (policy : Option LeakPolicy)
  | spawnPlain (name : String) (program : List Step)
  | spawnUncancellable (name : String) (program : List Step)
  | spawnRaw (name : String) (program : List Step)
  | spawnOnHandle (name : String) (program : List Step)
  | isShutdown
  | cancel (task : String)
  | release (task : String)
  | status (task : String)
  | describe (task : String)
  | pollValue (task : String)
  | drop (task : String)
  | keepHandle (task : String)
  | cancelHandle (name : String)
  | handleStatus (name : String)
  | token (name : String)
  | tokenHook (name label : String)
  | fold (name : String) (plan : FoldPlan)
  | send (fold : String) (action : ActionPlan)
  | closeFold (fold : String) (c : Completion)
  | cancelFoldChannel (fold : String) (f : Fault)
  | foldState (fold : String)
  | sink (name : String) (publisher : Publisher) (receiver : Receiver)
  | shutdown (keepsHandle : Bool)
  | shutdownRunning (name : String) (program : List Step)
  | inside (commands : List Command)
  | outside (commands : List Command)

/-- What a task can do. A step that waits carries the subject that is logged with its
    outcome, and whether a fault ends the task. -/
inductive Step where
  | log (x : Datum)
  | perform (name : String) (command : Command)
  | thread
  | yield (times wakes : Nat)
  | isCancelled
  | onCancel (commands : List (String × Command))
  | return (value : Datum)
  | fail (f : Fault)
  | panic (scream : Scream)
  | awaitShutdown
  | emitUnawaited (value : Datum)
  | land
  | waits (on : Waiting) (subject : Datum) (propagates : Bool)

/-- Where the events of a stream come from. -/
inductive Publisher where
  | items (values : List Datum)
  | range (first : Int) (bound : Option Int)
  | fail (f : Fault)
  | zip (left right : Publisher) (buffering : Option Buffering)
  | zip3 (first second third : Publisher)
  | select (left right : Publisher) (buffering : Option Buffering)
  | merge (publishers : List Publisher) (buffering : Option Buffering)
  | scripted (name : String) (program : List Step)

end

instance : Inhabited Command := ⟨.leaks⟩
instance : Inhabited Step := ⟨.thread⟩
instance : Inhabited Publisher := ⟨.items []⟩

end ResumeOnce.Script
