import ResumeOnce.Reactor.Stepping

/-!
# Polling

A poll of a task steps its uppermost frame until it has to wait or the task is
over; a panic unwinds all frames. The worker polls the tasks of the queues one
after another, until there are none or the shutdown has begun.

* `pollFrames`: a poll, frame by frame;
* `runTask`: a poll of a task, with what it leaves behind;
* `runQueued`: the worker at work.
-/

namespace ResumeOnce.Reactor

variable (env : Env) (perform : String → Script.Command → Act Script.Answer)

/-- What a poll comes to: the task waits, or it has an answer. -/
inductive PollResult where
  | waits (frames : List Frame) (held : Bool)
  | ended (r : Reply)

/-- A step that crashed: what it had in hand is let go, then its frame and those below. -/
def crash (f : Frame) (below : List Frame) (loose : List Nat) (text : String) : Act α := do
  whileUnwinding (dropResumptions env loose)
  whileUnwinding (dropFrames env (f :: below))
  panicWith text

/-- A poll, as steps of the uppermost frame, up to a bound on their number. -/
def pollFrames (t : Nat) : Nat → List Frame → Signal → Act PollResult
  | 0, _, _ => throw .exhausted
  | _, [], .answer r => return .ended r
  | _, [], .go => return .ended (.ok .unit)
  | bound + 1, f :: below, signal => do
    match ← orUnwind (stepFrame env perform t f signal) (dropFrames env (f :: below)) with
    | .call self child => pollFrames t bound (child :: self :: below) .go
    | .wait self held => return .waits (self :: below) held
    | .again self => pollFrames t bound (self :: below) .go
    | .done r => pollFrames t bound below (.answer r)
    | .crash self loose text => crash env self below loose text

/-- More steps than this are not taken in one poll. -/
def stepBound : Nat := 10000000

/-- The fault of an operation whose task panicked. -/
def panickedFault (scream : Script.Scream) : Fault :=
  (Fault.ofKind .panicked).withMessage scream.message

/-- An action whose panic harms nobody else. -/
def catchPanic (act : Act α) (handle : Script.Scream → Act α) : Act α :=
  tryCatch act fun
    | .panicked scream => handle scream
    | h => throw h

/-- A task that waits is let go: nobody would poll it again. -/
def letGo (t : Nat) (frames : List Frame) (completer : Option Completer) : Act Unit := do
  modify fun w => { w with board := w.board.retire t, tasks := w.tasks.setIfInBounds t none }
  releaseAll [dropFrames env frames, leaveIncomplete env completer]

/-- A task that waits is kept, unless the shutdown has begun or nothing can wake it. -/
def keepWaiting (t : Nat) (frames : List Frame) (held : Bool) (completer : Option Completer) :
    Act Unit := do
  let w ← get
  if w.circumstances.isShutdown || !(held || w.board.isNotified t) then
    letGo env t frames completer
  else
    set { w with
      board := w.board.pause t
      tasks := w.tasks.setIfInBounds t (some ⟨frames, completer⟩) }

/-- A poll of a task that is not over, and what becomes of it. -/
def pollTask (t : Nat) (task : Task) : Act Unit := do
  let result ← catchPanic (pollFrames env perform t stepBound task.frames .go)
    fun scream => return .ended (.error (panickedFault scream))
  match result with
  | .waits frames held => keepWaiting env t frames held task.completer
  | .ended r =>
    modify fun w => { w with tasks := w.tasks.setIfInBounds t none }
    complete env r task.completer
    modify fun w => { w with board := w.board.retire t }

/-- A task is taken up by the worker. -/
def runTask (t : Nat) : Act Unit := do
  modify fun w => { w with board := w.board.begin t }
  match (← get).tasks.getD t none with
  | none => pure ()
  | some task =>
    catchPanic (pollTask env perform t task) fun _ =>
      modify fun w => { w with
        board := w.board.retire t, tasks := w.tasks.setIfInBounds t none }

/-- Up to a bound, the tasks of the queues are abandoned: first those of the worker, the
    newest first, then the others. The panic of one harms no other. -/
def abandonQueued : Nat → Act Unit
  | 0 => throw .exhausted
  | bound + 1 => do
    match (← get).board.take? 0 with
    | none => pure ()
    | some (t, board) =>
      modify fun w => { w with board }
      catchPanic (env.abandon t) fun _ => pure ()
      abandonQueued bound

/-- More tasks than this are not run in one go. -/
def taskBound : Nat := 10000000

/-- The worker at work, up to a bound on the number of polls. -/
def runLoop : Nat → Act Unit
  | 0 => throw .exhausted
  | bound + 1 => do
    let w ← get
    if w.circumstances.isShutdown then abandonQueued env taskBound
    else
      match w.board.take? 0 with
      | none => pure ()
      | some (t, board) =>
        set { w with board }
        runTask env perform t
        runLoop bound

/-- The worker works until it has nothing to do. -/
def runQueued : Act Unit := do
  let worker := (← get).circumstances.worker
  changeCircumstances fun c => { c with worker := some 0 }
  runLoop env perform taskBound
  changeCircumstances fun c => { c with worker }

end ResumeOnce.Reactor
