import ResumeOnce.Reactor.Frames

/-!
# Spawning

How tasks come into the world: an operation gets a lifecycle, a slot for its result
and a task, and its owner a handle. To subscribe to a publisher is to spawn the
operation that pushes its events.

* `spawnOperation`: an operation with a handle;
* `subscribe`: the operation of a publisher;
* `startFold`: the operation of a fold.
-/

namespace ResumeOnce.Reactor

open Script (Publisher Step FoldPlan)
open Streams (Source Supply)

variable (env : Env)

/-- A new task is queued, or abandoned after the shutdown. -/
def spawnTask (task : Task) : Act Unit := do
  let w ← get
  let (t, board) := w.board.enroll
  set { w with board, tasks := w.tasks.push (some task) }
  schedule env t

/-- An operation on a lifecycle is spawned; its handle. -/
def spawnOn (lifecycle : Nat) (sort : OperationSort) (policy : LeakPolicy) (frame : Frame) :
    Act Nat := do
  let slot ← newSlot
  spawnTask env ⟨[frame], some ⟨lifecycle, slot⟩⟩
  newHandle sort lifecycle slot policy

/-- An operation that is given its token is spawned; its handle. -/
def spawnOperation (sort : OperationSort) (policy : LeakPolicy) (frame : Nat → Frame) :
    Act Nat := do
  let lifecycle ← newLifecycle
  spawnOn env lifecycle sort policy (frame lifecycle)

/-- A fold over a channel, one handle of which becomes the fold's; its handle. -/
def startFold (channel : Nat) (folder : Folder) : Act Nat := do
  let policy ← policyOr none
  let lifecycle ← newLifecycle
  retainChannel channel
  retainChannel channel
  registerHook env lifecycle (.closeChannel channel)
  spawnOn env lifecycle (.fold channel) policy
    (.fold ⟨channel, folder, .unstarted, lifecycle, .start, .idle⟩)

/-- The frame of a program at its begin. -/
def programFrame (name : String) (program : List Step) (token : Option Nat)
    (downstream : Option Downstream) : Frame :=
  .program ⟨name, program, token, downstream, downstream.isSome, .running⟩ []

/-- The frame of a combination at its begin. -/
def driveFrame (combination : Combination) (buffering : Buffering) (downstream : Downstream)
    (token : Nat) : Frame :=
  .drive ⟨combination, buffering, downstream, token, none, .awaitFold⟩

/-- The frame of a source at its begin. -/
def sourceFrame (stock : Stock) (downstream : Downstream) (token : Nat) : Frame :=
  .source (Source.start ⟨stock, Stock.draw⟩) downstream token

/-- The frame that pushes the events of a publisher. -/
def publisherFrame (downstream : Downstream) : Publisher → Nat → Frame
  | .items values, token => sourceFrame (.items values) downstream token
  | .range first bound, token => sourceFrame (.range first bound) downstream token
  | .fail f, _ => .failing f downstream
  | .zip left right buffering, token =>
    driveFrame (.zip left right) (buffering.getD (.oldest 2)) downstream token
  | .zip3 first second third, token =>
    driveFrame (.zip (.zip first second none) third) (.oldest 2) (.flattened downstream) token
  | .select left right buffering, token =>
    driveFrame (.merge [(left, some "left"), (right, some "right")])
      (buffering.getD (.oldest 2)) downstream token
  | .merge [] _, token => sourceFrame (.items []) downstream token
  | .merge publishers buffering, token =>
    driveFrame (.merge (publishers.map (·, none)))
      (buffering.getD (.oldest publishers.length)) downstream token
  | .scripted name program, token => programFrame name program (some token) (some downstream)

/-- The operation of a publisher, which owns a copy of the downstream; its handle. A scripted
    publisher leaves its lifecycle under its name, as a token and as a handle to cancel it. -/
def subscribe (downstream : Downstream) (publisher : Publisher) : Act Nat := do
  let handle ← spawnOperation env .cancellable (← policyOr none)
    (publisherFrame downstream publisher)
  match publisher with
  | .scripted name _ =>
    let h ← handleAt handle
    changeDirectory fun d => { d with
      tokens := d.tokens.assign name h.lifecycle
      handles := d.handles.assign name h.lifecycle }
  | _ => pure ()
  return handle

/-- The operation of a feeder of a combination; its handle. -/
def subscribeInto (channel : Nat) (publisher : Publisher) (inlet : Inlet) : Act Nat := do
  retainChannel channel
  subscribe env (.channel channel inlet) publisher

/-- The operations of some feeders in order; their handles. -/
def subscribeAll (channel : Nat) : List (Publisher × Inlet) → Act (List Nat)
  | [] => return []
  | (publisher, inlet) :: rest => do
    let handle ← subscribeInto env channel publisher inlet
    return handle :: (← subscribeAll channel rest)

/-- The feeders of a combination with their inlets. -/
def Combination.feeders : Combination → List (Publisher × Inlet)
  | .zip left right => [(left, .left), (right, .right)]
  | .merge feeders => feeders.map fun (p, tag) => (p, .merged tag)

/-- Whether a combination pairs its feeders. -/
def Combination.isZip : Combination → Bool
  | .zip _ _ => true
  | .merge _ => false

/-- A combination subscribes to its feeders and starts its fold. -/
def startDrive (run : DriveRun) : Act Subscriptions := do
  let channel ← newChannel run.buffering
  let feeders ← subscribeAll env channel run.combination.feeders
  let lifecycles ← feeders.mapM fun n => return (← handleAt n).lifecycle
  retainDownstream run.downstream
  let fold ← startFold env channel
    (.combining run.combination.isZip run.downstream lifecycles)
  registerHook env run.token (.cancel (← handleAt fold).lifecycle)
  return ⟨fold, feeders⟩

end ResumeOnce.Reactor
