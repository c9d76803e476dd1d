import ResumeOnce.Reactor.Naming

/-!
# Letting go of frames

What happens when a task goes away before its end, or when a panic unwinds it: its
frames are let go from the uppermost down, each with what it holds. A task with a
result then reports that it was dropped.

* `dropFrame`: one frame;
* `abandon`: a whole task.
-/

namespace ResumeOnce.Reactor

open Script (Entry TaskEntry)
open Streams (Zip Merge Machine)

variable (env : Env)

/-- What a waiting frame holds is let go. -/
def dropHold (slot : Nat) : Hold → Act Unit
  | .waiter => dropWaiter env slot
  | .channel n => releaseAll [dropWaiter env slot, releaseChannel env n]
  | .operation n _ => dropHandle env n
  | .nothing => pure ()

/-- The senders that a state of a fold has still to answer, in the order in which they are let
    go. -/
def FoldState.held : FoldState → List Nat
  | .unstarted => []
  | .scripted _ pending => pending.filterMap Action.ack
  | .zip m => m.current.held
  | .merge m => m.current.held

/-- The producers of the value that is downstream. -/
def Emitting.held : Emitting → List Nat
  | .delivering producers => producers
  | _ => []

/-- What a folder holds is let go. -/
def dropFolder : Folder → Act Unit
  | .scripted _ _ _ => pure ()
  | .combining _ downstream _ => releaseDownstream env downstream

/-- The action that a fold is about to take in is let go. -/
def dropTurn : Fold.Turn Cargo → Act Unit
  | .reduce a => dropCargo env a
  | .dispose a _ => dropCargo env a
  | _ => pure ()

/-- A fold is let go. -/
def dropFold (run : FoldRun) : Act Unit :=
  releaseAll [dropTurn env run.turn, dropResumptions env run.emitting.held,
    dropResumptions env run.state.held, dropFolder env run.folder,
    releaseChannel env run.channel]

/-- A combination is let go: its fold, its feeders in order, then its downstream. -/
def dropDrive (run : DriveRun) : Act Unit :=
  match run.subscriptions with
  | none => releaseDownstream env run.downstream
  | some s =>
    releaseAll ([dropHandle env s.fold] ++ s.feeders.map (dropHandle env) ++
      [releaseDownstream env run.downstream])

/-- A downstream that may be missing is let go. -/
def releaseDownstream? : Option Downstream → Act Unit
  | none => pure ()
  | some d => releaseDownstream env d

/-- A program that goes away before its end says so, unless it is because of a panic. -/
def reportDropped (name : String) : Act Unit := do
  if (← get).circumstances.unwinding = 0 then logEntry (.task name .dropped)

mutual

/-- A frame is let go. -/
def dropFrame : Frame → Act Unit
  | .waiting slot hold => dropHold env slot hold
  | .program run kept =>
    releaseAll [reportDropped run.name, dropFrames kept, releaseDownstream? env run.downstream]
  | .sink _ _ _ => pure ()
  | .fold run => dropFold env run
  | .drive run => dropDrive env run
  | .source _ downstream _ => releaseDownstream env downstream
  | .failing _ downstream => releaseDownstream env downstream

/-- Frames are let go in order. -/
def dropFrames : List Frame → Act Unit
  | [] => pure ()
  | f :: fs => do
    orUnwind (dropFrame f) (dropFrames fs)
    dropFrames fs

end

/-- The fault of an operation whose task went away before its end. -/
def droppedFault : Fault :=
  (Fault.ofKind .shutdown).withMessage "the runtime dropped the task before it finished"

/-- An operation that its task leaves without a result. -/
def leaveIncomplete : Option Completer → Act Unit
  | none => pure ()
  | some c => do
    finishOperation env c.lifecycle
    completeSlot env c.slot (.error droppedFault)

/-- An operation ends with a result. -/
def complete (answer : Reply) : Option Completer → Act Unit
  | none => dropReply env answer
  | some c => do
    finishOperation env c.lifecycle
    completeSlot env c.slot answer

/-- A task that nobody polls goes away, if it is not over already. -/
def abandon (t : Nat) : Act Unit := do
  let w ← get
  if w.board.phase t = .resting then
    set { w with board := w.board.retire t, tasks := w.tasks.setIfInBounds t none }
    match w.tasks.getD t none with
    | none => pure ()
    | some task => releaseAll [dropFrames env task.frames, leaveIncomplete env task.completer]

end ResumeOnce.Reactor
