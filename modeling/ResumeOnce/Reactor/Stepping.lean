import ResumeOnce.Reactor.Acting

/-!
# Stepping

One step of the uppermost frame of a task, either on its own account or behind the
answer of the frame that was above it. A step calls another frame, waits, goes on,
or ends with an answer; or it crashes, and says what it leaves behind.

* `Stepped`: what a step comes to;
* `stepFrame`: one step of a frame.
-/

namespace ResumeOnce.Reactor

open Script (Answer Entry TaskEntry SinkEntry FoldEntry Waiting Step)
open Streams (Drive Source Delivery)

/-- Why a frame takes a step: on its own account, or because it gets an answer. -/
inductive Signal where
  | go
  | answer (r : Reply)

/-- What a step comes to. A frame that waits tells whether a waker holds on to its task. -/
inductive Stepped where
  | call (self child : Frame)
  | wait (self : Frame) (held : Bool)
  | again (self : Frame)
  | done (r : Reply)
  | crash (self : Frame) (loose : List Nat) (text : String)

variable (env : Env)

/-! ## Waiting at a slot -/

/-- What a frame that waited holds is let go once it has its answer. -/
def releaseHold : Hold → Act Unit
  | .channel n => releaseChannel env n
  | .operation n name => do
    changeDirectory fun d => { d with awaited := d.awaited.erase name }
    dropHandle env n
  | _ => pure ()

/-- A frame that waits at a slot. -/
def stepWaiting (t slot : Nat) (hold : Hold) : Act Stepped := do
  match ← pollSlot env slot (.task t) with
  | .pending => return .wait (.waiting slot hold) true
  | .ready r =>
    releaseHold env hold
    return .done r

/-! ## The end of a stream -/

/-- The answer of the end of a stream to the value of an index that was let through. -/
def admitted (limit : Option Nat) (index : Nat) : Reply :=
  .ok (.demand (if limit.any (· ≤ index) then .done else .more))

/-- The end of a stream gets an event. -/
def stepSink (n : Nat) (event : Event Datum) (stage : SinkStage) (signal : Signal) :
    Act Stepped := do
  let r := (← get).sinks.getD n default
  match stage, signal, event with
  | .called, _, .value x =>
    let index := r.count + 1
    modify fun w => { w with sinks := w.sinks.modify n fun r => { r with count := index } }
    logEntry (.sink r.name (.value x))
    if r.receiver.panicAt = some index then panicWith "sink panicked"
    else if r.receiver.failAt = some index then return .done (.error r.receiver.fault)
    else if r.receiver.gateAt = some index then
      let slot ← takeWaiter r.receiver.gate
      return .call (.sink n event (.atGate index)) (.waiting slot .waiter)
    else return .done (admitted r.receiver.limit index)
  | .called, _, .completion c =>
    logEntry (.sink r.name (.completion c))
    match r.receiver.farewell with
    | .answer d => return .done (.ok (.demand d))
    | .fail f => return .done (.error f)
    | .panic => panicWith "sink panicked"
  | .atGate _, .answer (.error f), _ => return .done (.error f)
  | .atGate index, _, .value x =>
    logEntry (.sink r.name (.resumed x))
    return .done (admitted r.receiver.limit index)
  | .atGate _, _, .completion _ => return .done (.ok (.demand .more))

/-! ## Folds -/

/-- The name of a scripted fold. -/
def Folder.name : Folder → String
  | .scripted name _ _ => name
  | .combining _ _ _ => ""

/-- The fold goes on behind the end of its emission. -/
def emitted (run : FoldRun) (result : Outcome Unit) : Stepped :=
  .again (.fold { run with emitting := .idle, turn := Fold.Turn.next .emit result })

/-- The state of a scripted fold without the action at an index, whose sender is answered. -/
def emitAction (seen : List Datum) (pending : List Action) (index : Nat) (a : Action) :
    Act FoldState := do
  answerAction env a (.ok a.plan.value)
  return .scripted seen (pending.eraseIdx index)

/-- The emission of a scripted fold, at the action of an index. -/
def stepEmission (run : FoldRun) (name : String) (seen : List Datum) (pending : List Action)
    (index : Nat) : Act Stepped := do
  match pending[index]? with
  | none => return emitted run (.ok ())
  | some a =>
    match a.plan.emission with
    | .skip => return .again (.fold { run with emitting := .scanning (index + 1) })
    | .emit =>
      logEntry (.fold name (.emitting a.plan.value))
      let state ← emitAction env seen pending index a
      return .again (.fold { run with state, emitting := .scanning index })
    | .fail f =>
      logEntry (.fold name (.emitting a.plan.value))
      return emitted run (.error f)
    | .panic =>
      logEntry (.fold name (.emitting a.plan.value))
      panicWith "emit panicked"
    | .awaits gate =>
      logEntry (.fold name (.emitting a.plan.value))
      let slot ← takeWaiter gate
      return .call (.fold { run with emitting := .atGate index }) (.waiting slot .waiter)

/-- A fold whose emission goes on. -/
def stepEmit (run : FoldRun) : Act Stepped := do
  match run.folder, run.state, run.emitting with
  | .scripted name plain _, .scripted seen pending, emitting =>
    if plain then return emitted run (.ok ())
    else
      match emitting with
      | .scanning index => stepEmission env run name seen pending index
      | _ => stepEmission env run name seen pending 0
  | .combining _ downstream _, state, _ =>
    match state.emission? with
    | none => return emitted run (.ok ())
    | some (value, producers, state) =>
      let child ← push env downstream (.value value)
      return .call (.fold { run with state, emitting := .delivering producers }) child
  | _, _, _ => return emitted run (.ok ())

/-- A fold whose emission gets an answer. -/
def stepEmitAnswer (run : FoldRun) (r : Reply) : Act Stepped := do
  match run.folder, run.state, run.emitting, r with
  | _, .scripted _ _, .atGate _, .error f => return emitted run (.error f)
  | .scripted name _ _, .scripted seen pending, .atGate index, .ok _ =>
    match pending[index]? with
    | none => return emitted run (.ok ())
    | some a =>
      logEntry (.fold name (.emitted a.plan.value))
      let state ← emitAction env seen pending index a
      return .again (.fold { run with state, emitting := .scanning index })
  | _, state, .delivering producers, r =>
    let d := Delivery.ofAnswer (r.map Parcel.toDemand)
    answerAll env (producers.map (·, d.reply))
    return emitted { run with state := state.deliver d } d.result
  | _, _, _, _ => return emitted run (r.map fun _ => ())

/-- A fold takes its turn. -/
def stepFold (run : FoldRun) : Act Stepped := do
  match run.turn with
  | .start =>
    let state ← startState env run.channel run.folder
    return .again (.fold { run with state, turn := Fold.Turn.next .start () })
  | .checkpoint =>
    let answer ← checkpoint run.token
    return .again (.fold { run with turn := Fold.Turn.next .checkpoint answer })
  | .read =>
    let (party, slot) ← newResumption (← policyOr none)
    match ← exchange env run.channel (·.read (some party)) with
    | .settled answer =>
      retire party
      return .again (.fold { run with turn := Fold.Turn.next .read answer })
    | .queued => return .call (.fold run) (.waiting slot .waiter)
  | .reduce a =>
    match ← reduce env run.folder.name run.state a with
    | .reduced state effect =>
      return .again (.fold { run with state, turn := Fold.Turn.next (.reduce a) effect })
    | .crashed state loose text =>
      return .crash (.fold { run with state, turn := .emit }) loose text
  | .emit => stepEmit env run
  | .close c =>
    let _ ← exchange env run.channel (·.close c)
    return .again (.fold { run with turn := Fold.Turn.next (.close c) () })
  | .finalize c =>
    let state ← finalize env run.folder c run.state
    return .again (.fold { run with state, turn := Fold.Turn.next (.finalize c) () })
  | .drain c =>
    let answer ← tryRead env run.channel
    return .again (.fold { run with turn := Fold.Turn.next (.drain c) answer })
  | .dispose a c =>
    dispose env run.folder c a
    return .again (.fold { run with turn := Fold.Turn.next (.dispose a c) () })
  | .stop _ =>
    releaseAll [dropFolder env run.folder, releaseChannel env run.channel]
    return .done (.ok run.state.value)

/-- A fold gets an answer. -/
def stepFoldAnswer (run : FoldRun) (r : Reply) : Act Stepped := do
  match run.turn with
  | .read =>
    return .again (.fold { run with turn := Fold.Turn.next .read (r.map Parcel.toCargo) })
  | .emit => stepEmitAnswer env run r
  | _ => return .again (.fold run)

/-! ## Combinations and sources -/

/-- The slot of the result of an operation, by its handle. -/
def resultSlot (handle : Nat) : Act Nat := return (← handleAt handle).slot

/-- A combination goes on. -/
def stepDrive (run : DriveRun) : Act Stepped := do
  match run.subscriptions with
  | none =>
    let s ← startDrive env run
    return .again (.drive { run with subscriptions := some s })
  | some s =>
    match run.drive with
    | .awaitFold => return .call (.drive run) (.waiting (← resultSlot s.fold) .nothing)
    | .cancelFeeder i f =>
      let _ ← cancelOperation env (← handleAt (s.feeders.getD i 0)).lifecycle
      return .again (.drive { run with
        drive := Drive.next s.feeders.length (.cancelFeeder i f) () })
    | .awaitCancelled i _ | .awaitFeeder i _ _ =>
      return .call (.drive run) (.waiting (← resultSlot (s.feeders.getD i 0)) .nothing)
    | .push c =>
      let child ← push env run.downstream (.completion c)
      return .call (.drive run) child
    | .settled r =>
      dropDrive env run
      return .done (r.map .demand)

/-- A combination gets an answer. -/
def stepDriveAnswer (run : DriveRun) (r : Reply) : Stepped :=
  let n := (run.subscriptions.map (·.feeders.length)).getD 0
  let drive := match run.drive with
    | .awaitFold => Drive.next n .awaitFold (r.map Parcel.toFinal)
    | .push c => Drive.next n (.push c) (r.map Parcel.toDemand)
    | .awaitCancelled i f => Drive.next n (.awaitCancelled i f) ()
    | .awaitFeeder i delivered c => Drive.next n (.awaitFeeder i delivered c) ()
    | d => d
  .again (.drive { run with drive })

/-- A source goes on. -/
def stepSource (source : Source Stock Datum) (downstream : Downstream) (token : Nat) :
    Act Stepped := do
  match source with
  | .checkpoint d rest =>
    let answer ← checkpoint token
    return .again (.source (Source.next Stock.draw (.checkpoint d rest) answer) downstream token)
  | .push d _ => return .call (.source source downstream token) (← push env downstream (.value d))
  | .complete =>
    return .call (.source source downstream token)
      (← push env downstream (.completion .finished))
  | .settled r =>
    releaseDownstream env downstream
    return .done (r.map .demand)

/-- A source gets an answer. -/
def stepSourceAnswer (source : Source Stock Datum) (downstream : Downstream) (token : Nat)
    (r : Reply) : Stepped :=
  let answer := r.map Parcel.toDemand
  let next := match source with
    | .push d rest => Source.next Stock.draw (.push d rest) answer
    | .complete => Source.next Stock.draw .complete answer
    | s => s
  .again (.source next downstream token)

/-! ## Programs -/

/-- What becomes of a step that may have to wait. -/
inductive Begun where
  | answered (o : Outcome Datum)
  /-- Somebody else waits for the value. -/
  | busy
  | called (child : Frame)

/-- An event is pushed by a program, which must have a downstream. -/
def pushFrom (run : ProgramRun) (event : Event Datum) : Act Frame :=
  match run.downstream with
  | none => panicWith "no downstream"
  | some d => push env d event

/-- A program begins to wait. -/
def beginWaiting (run : ProgramRun) : Waiting → Act Begun
  | .checkpoint =>
    match run.token with
    | none => return .answered (.ok .null)
    | some token => return .answered ((← checkpoint token).map fun _ => .null)
  | .gate name => return .called (.waiting (← takeWaiter name) .waiter)
  | .value name => do
    let handle ← namedTask name
    if (← isAwaited name) then return .busy
    else
      changeDirectory fun d => { d with awaited := name :: d.awaited }
      retainHandle handle
      return .called (.waiting (← handleAt handle).slot (.operation handle name))
  | .read name blocking => do
    let n ← namedChannel name
    if blocking then
      let (party, slot) ← newResumption (← policyOr none)
      match ← exchange env n (·.read (some party)) with
      | .settled answer =>
        retire party
        return .answered (answer.map fun c => (Parcel.cargo c).toDatum)
      | .queued =>
        retainChannel n
        return .called (.waiting slot (.channel n))
    else return .answered ((← tryRead env n).map fun c => (Parcel.cargo c).toDatum)
  | .write name value blocking => do
    let n ← namedChannel name
    if blocking then
      let (party, slot) ← newResumption (← policyOr none)
      match ← exchange env n (·.write (some party) (.datum value)) with
      | .handed =>
        retire party
        return .answered (.ok .null)
      | .refused refusal =>
        retire party
        return .answered (.error refusal.fault)
      | .queued =>
        retainChannel n
        return .called (.waiting slot (.channel n))
    else
      match ← tryWrite env n (.datum value) with
      | .refused refusal => return .answered (.error refusal.fault)
      | _ => return .answered (.ok .null)
  | .emit value => return .called (← pushFrom env run (.value value))
  | .complete c => return .called (← pushFrom env run (.completion c))

/-- What a program without more to do answers: its result, or the demand that it stands for. -/
def programAnswer (publishes : Bool) (o : Outcome Datum) : Reply :=
  if publishes then
    o.map fun
      | .text s => .demand (if s == "done" then .done else .more)
      | _ => .demand .more
  else o.map .datum

/-- A program ends with a result. -/
def endProgram (run : ProgramRun) (kept : List Frame) (o : Outcome Datum) : Act Stepped := do
  releaseAll [dropFrames env kept, releaseDownstream? env run.downstream]
  return .done (programAnswer run.publishes o)

/-- A program has the outcome of a step that waited. -/
def settleWaiting (run : ProgramRun) (kept : List Frame) (on : Waiting) (subject : Datum)
    (propagates : Bool) (o : Outcome Datum) : Act Stepped := do
  let log (e : TaskEntry) : Act Unit := logEntry (.task run.name e)
  let goOn : Stepped := .again (.program { run with mode := .running } kept)
  match on, o, propagates with
  | .emit value, .ok (.text "done"), true =>
    log (.emittedLast value)
    endProgram env run kept (.ok (.text "done"))
  | _, .error f, true =>
    log (.waited on.name subject (.outcome o))
    endProgram env run kept (.error f)
  | _, _, _ =>
    log (.waited on.name subject (.outcome o))
    return goOn

/-- A program takes a step of its own, given how it carries out a command. -/
def stepProgram (perform : String → Script.Command → Act Answer) (t : Nat) (run : ProgramRun)
    (kept : List Frame) : Act Stepped := do
  let log (e : TaskEntry) : Act Unit := logEntry (.task run.name e)
  match run.mode with
  | .yielding 0 _ total =>
    log (.yielded total)
    return .again (.program { run with mode := .running } kept)
  | .yielding (left + 1) wakes total =>
    for _ in List.range wakes do wake env (.task t)
    return .wait (.program { run with mode := .yielding left wakes total } kept) (wakes != 0)
  | .landing =>
    match kept with
    | [] => return .again (.program { run with mode := .running } kept)
    | f :: rest => return .call (.program run rest) f
  | .awaitingShutdown =>
    changeCircumstances fun c => { c with isShutdown := true }
    return .again (.program { run with mode := .running } kept)
  | .waiting _ _ _ => return .again (.program { run with mode := .running } kept)
  | .running =>
    match run.steps with
    | [] => endProgram env run kept (.ok (.text "end"))
    | step :: steps =>
      let next : ProgramRun := { run with steps }
      match step with
      | .log x =>
        log (.log x)
        return .again (.program next kept)
      | .perform name command =>
        let answer ← perform run.name command
        log (.performed name answer)
        return .again (.program next kept)
      | .thread =>
        log (.thread "w-0")
        return .again (.program next kept)
      | .yield times wakes =>
        return .again (.program { next with mode := .yielding times wakes times } kept)
      | .isCancelled =>
        match run.token with
        | none => log (.isCancelled false)
        | some token => log (.isCancelled (← checkpoint token).isOk.not)
        return .again (.program next kept)
      | .onCancel commands =>
        match run.token with
        | none => pure ()
        | some token => registerHook env token (.script run.name commands)
        return .again (.program next kept)
      | .return value => endProgram env run kept (.ok value)
      | .fail f => endProgram env run kept (.error f)
      | .panic scream => throw (.panicked scream)
      | .awaitShutdown => return .again (.program { next with mode := .awaitingShutdown } kept)
      | .emitUnawaited value =>
        let f ← pushFrom env run (.value value)
        return .again (.program next (kept ++ [f]))
      | .land => return .again (.program { next with mode := .landing } kept)
      | .waits on subject propagates =>
        match ← beginWaiting env run on with
        | .answered o => settleWaiting env next kept on subject propagates o
        | .busy =>
          log (.waited on.name subject .awaited)
          return .again (.program next kept)
        | .called child =>
          return .call (.program { next with mode := .waiting on subject propagates } kept) child

/-- A program gets an answer. -/
def stepProgramAnswer (run : ProgramRun) (kept : List Frame) (r : Reply) : Act Stepped := do
  let o := r.map Parcel.toDatum
  match run.mode with
  | .waiting on subject propagates => settleWaiting env run kept on subject propagates o
  | .landing =>
    logEntry (.task run.name (.landed o))
    return .again (.program run kept)
  | _ => return .again (.program run kept)

/-! ## All frames -/

/-- A publisher that only fails gets its answer or pushes its completion. -/
def stepFailing (f : Fault) (downstream : Downstream) : Signal → Act Stepped
  | .go => return .call (.failing f downstream) (← push env downstream (.completion (.failure f)))
  | .answer r => do
    releaseDownstream env downstream
    return .done r

/-- One step of a frame of a task, given how programs carry out commands. -/
def stepFrame (perform : String → Script.Command → Act Answer) (t : Nat) (f : Frame)
    (signal : Signal) : Act Stepped :=
  match f, signal with
  | .waiting slot hold, _ => stepWaiting env t slot hold
  | .sink n event stage, signal => stepSink n event stage signal
  | .program run kept, .go => stepProgram env perform t run kept
  | .program run kept, .answer r => stepProgramAnswer env run kept r
  | .fold run, .go => stepFold env run
  | .fold run, .answer r => stepFoldAnswer env run r
  | .drive run, .go => stepDrive env run
  | .drive run, .answer r => return stepDriveAnswer run r
  | .source source downstream token, .go => stepSource env source downstream token
  | .source source downstream token, .answer r =>
    return stepSourceAnswer source downstream token r
  | .failing fault downstream, signal => stepFailing env fault downstream signal

end ResumeOnce.Reactor
