import ResumeOnce.Reactor.Polling

/-!
# Carrying out commands

What each command of a script does to the world, and what it answers. Commands may
hold others, which are carried out on the thread of the worker or elsewhere, as
they say.

* `performCommand`: one command;
* `runHook`: what a cancellation runs;
* `ambient`: the actions of the world, tied together.
-/

namespace ResumeOnce.Reactor

open Script (Answer Command Entry FoldPlan Publisher Receiver Step ActionPlan)

variable (env : Env)

/-! ## Answers -/

/-- The answer of a change of status. -/
def ofStatus : Except StatusFault Unit → Answer
  | .ok _ => .done
  | .error f => .refused f.toFault

/-- The answer of a poll. -/
def ofPoll : Poll Reply → Answer
  | .pending => .pending
  | .ready r => .outcome (r.map Parcel.toDatum)

/-- The answer of a write. -/
def ofWritten : Written Cargo → Answer
  | .refused refusal => .returned ⟨refusal.fault, (Parcel.cargo refusal.value).toDatum⟩
  | _ => .done

/-- What a channel is. -/
def channelState (n : Nat) : Act Answer := do
  let c ← channelAt n
  return .channelState c.size c.waitingReaders c.completion

/-- What an operation is, as far as the sort of its handle tells. -/
def statusAnswer (h : Handle) : Act Answer := do
  let status := (← lifecycleAt h.lifecycle).status
  let isCancelled := Answer.flag (status = .cancelled)
  let isFinished := Answer.flag (status = .finished)
  return .all <| .text status.name :: match h.sort with
    | .cancellable => [isCancelled, isFinished]
    | .uncancellable => [isFinished]
    | .fold _ => []

/-- The text of something with a status. -/
def describeStatus (name : String) (status : Status) : String :=
  Text.record name [("status", status.name)]

/-- The full text of a handle. -/
def describeHandle (h : Handle) : Act String := do
  let status := (← lifecycleAt h.lifecycle).status
  match h.sort with
  | .cancellable =>
    return Text.record "Cancellable" [("status", status.name), ("policy", h.policy.name)]
  | .uncancellable => return describeStatus "Uncancellable" status
  | .fold channel =>
    return Text.record "AsyncFold"
      [("status", status.name), ("channel", (← channelAt channel).describe)]

/-! ## Folds and streams -/

/-- A fold is started as planned. -/
def performFold (name : String) (plan : FoldPlan) : Act Unit := do
  let channel ← newChannel plan.buffering
  let answers ← writeActions env channel plan.before
  if !answers.isEmpty then logEntry (.fold name (.before answers))
  match plan.closed with
  | none => pure ()
  | some c =>
    let _ ← exchange env channel (·.close c)
  nameTask env name (← startFold env channel (.scripted name plan.plain plan.first))

/-- The actions among what a channel gave back, as their values; their senders get a fault. -/
def returnActions (f : Fault) (cargos : List Cargo) : Act (List Datum) := do
  let actions := cargos.filterMap fun
    | .action a => some a
    | _ => none
  failActions env f actions
  return actions.map (·.plan.value)

/-- The end of a stream is subscribed to a publisher. -/
def performSink (name : String) (publisher : Publisher) (receiver : Receiver) : Act Unit := do
  let w ← get
  set { w with sinks := w.sinks.push ⟨name, receiver, 0⟩ }
  nameTask env name (← subscribe env (.sink w.sinks.size) publisher)

/-- A program is spawned with a token; its handle and the token get its name. -/
def performSpawn (name : String) (program : List Step) (policy : Option LeakPolicy) :
    Act Unit := do
  let handle ← spawnOperation env .cancellable (← policyOr policy) fun token =>
    programFrame name program (some token) none
  let h ← handleAt handle
  changeDirectory fun d => { d with tokens := d.tokens.assign name h.lifecycle }
  nameTask env name handle

/-- A program is spawned without a token; its handle gets its name. -/
def performSpawnPlain (sort : OperationSort) (name : String) (program : List Step) :
    Act Unit := do
  nameTask env name (← spawnOperation env sort (← policyOr none) fun _ =>
    programFrame name program none none)

/-! ## Commands -/

/-- A simple command, which has no commands in it. -/
def performSimple : Command → Act Answer
  | .log x => do
    logEntry (.log x)
    return .nothing
  | .leaks => return .count (← get).leaks
  | .setDefault policy => do
    changeCircumstances fun c => { c with policy }
    return .nothing
  | .panic text => panicWith text
  | .gate name policy => do
    let (n, slot) ← newResumption (← policyOr policy)
    nameGate env name n
    nameWaiter env name slot
    return .nothing
  | .openGate name answer => do
    if ← resume env (← namedGate name) (answer.map .datum) then return .done
    else return .refused Resumption.usedUpFault
  | .dropGate name => do
    let n ← namedGate name
    changeDirectory fun d => { d with gates := d.gates.without name }
    dropResumption env n
    return .nothing
  | .dropWaiter name => do
    dropWaiter env (← takeWaiter name)
    return .nothing
  | .pollGate name => return ofPoll (← pollSlot env (← namedWaiter name) .nobody)
  | .channel name buffering => do
    nameChannel env name (← newChannel buffering)
    return .nothing
  | .dropChannel name => do
    let n ← namedChannel name
    changeDirectory fun d => { d with channels := d.channels.without name }
    releaseChannel env n
    return .nothing
  | .tryWrite name value => return ofWritten (← tryWrite env (← namedChannel name) (.datum value))
  | .tryRead name => do
    let answer ← tryRead env (← namedChannel name)
    return .outcome (answer.map fun c => (Parcel.cargo c).toDatum)
  | .close name c => return .flag (← exchange env (← namedChannel name) (·.close c))
  | .cancelChannel name f => do
    let values ← exchange env (← namedChannel name) (·.cancel f)
    return .values (values.map fun c => (Parcel.cargo c).toDatum)
  | .channelState name => do channelState (← namedChannel name)
  | .spawn name program policy => do
    performSpawn env name program policy
    return .nothing
  | .spawnPlain name program => do
    performSpawnPlain env .cancellable name program
    return .nothing
  | .spawnUncancellable name program => do
    performSpawnPlain env .uncancellable name program
    return .nothing
  | .spawnRaw name program | .spawnOnHandle name program => do
    spawnTask env ⟨[programFrame name program none none], none⟩
    return .nothing
  | .isShutdown => do
    let isShutdown := (← get).circumstances.isShutdown
    return .all [.flag isShutdown,
      .text (Text.record "RuntimeHandle" [("shutdown", toString isShutdown)])]
  | .cancel name => do
    return ofStatus (← cancelOperation env (← handleAt (← namedTask name)).lifecycle)
  | .release name => do
    return ofStatus (← releaseOperation (← handleAt (← namedTask name)).lifecycle)
  | .status name => do statusAnswer (← handleAt (← namedTask name))
  | .describe name => return .text (← describeHandle (← handleAt (← namedTask name)))
  | .pollValue name => do
    let h ← handleAt (← namedTask name)
    if (← isAwaited name) then return .awaited
    else return ofPoll (← pollSlot env h.slot .nobody)
  | .drop name => do
    let n ← namedTask name
    changeDirectory fun d => { d with tasks := d.tasks.without name }
    dropHandle env n
    return .nothing
  | .keepHandle name => do
    let h ← handleAt (← namedTask name)
    changeDirectory fun d => { d with handles := d.handles.assign name h.lifecycle }
    return .nothing
  | .cancelHandle name => return ofStatus (← cancelOperation env (← namedHandle name))
  | .handleStatus name => do
    let status := (← lifecycleAt (← namedHandle name)).status
    return .all [.text status.name, .flag (status = .cancelled),
      .text (describeStatus "CancelHandle" status)]
  | .token name => do
    let n ← namedToken name
    let status := (← lifecycleAt n).status
    return .all [.flag (status = .cancelled),
      .outcome ((← checkpoint n).map fun _ => .null), .text (describeStatus "CancelToken" status)]
  | .tokenHook name label => do
    registerHook env (← namedToken name) (.script label [])
    return .nothing
  | .fold name plan => do
    performFold env name plan
    return .nothing
  | .send name action => do writeAction env (← namedFold name) action
  | .closeFold name c => return .flag (← exchange env (← namedFold name) (·.close c))
  | .cancelFoldChannel name f => do
    return .values (← returnActions env f (← exchange env (← namedFold name) (·.cancel f)))
  | .foldState name => do channelState (← namedFold name)
  | .sink name publisher receiver => do
    performSink env name publisher receiver
    return .nothing
  | .shutdown _ => do
    changeCircumstances fun c => { c with isShutdown := true }
    return .flag true
  | .shutdownRunning name program => do
    performSpawn env name program none
    return .nothing
  | .inside _ | .outside _ => return .nothing

/-- A command whose panic becomes its answer. -/
def caught (act : Act Answer) : Act Answer :=
  catchPanic act fun scream => return .panicked scream.message

mutual

/-- A command; commands in it are carried out where it says. -/
def performCommand : Command → Act Answer
  | .inside commands => do
    let worker := (← get).circumstances.worker
    changeCircumstances fun c => { c with worker := some 0 }
    let answers ← performAll commands
    changeCircumstances fun c => { c with worker }
    return .all answers
  | .outside commands => do
    let worker := (← get).circumstances.worker
    changeCircumstances fun c => { c with worker := none }
    let answers ← performAll commands
    changeCircumstances fun c => { c with worker }
    return .all answers
  | command => performSimple env command

/-- Commands in order; the panic of one becomes its answer. -/
def performAll : List Command → Act (List Answer)
  | [] => return []
  | command :: rest => do
    let answer ← caught (performCommand command)
    return answer :: (← performAll rest)

end

/-! ## Tying together -/

/-- A hook logs its label and carries out its commands in order. -/
def performHook (label : String) : List (String × Command) → Act Unit
  | [] => pure ()
  | (name, command) :: rest => do
    let answer ← caught (performCommand env command)
    logEntry (.hookPerformed label name answer)
    performHook label rest

/-- What a cancellation runs. -/
def runHook : Hook → Act Unit
  | .closeChannel n => do
    let _ ← exchange env n (·.close (.failure Fault.cancelled))
    releaseChannel env n
  | .cancel lifecycle => do
    let _ ← cancelOperation env lifecycle
  | .script label commands => do
    logEntry (.hook label)
    performHook env label commands

/-- The actions of the world tied together, where abandoning tasks and running hooks nest up to
    a bound. -/
def tied : Nat → Env
  | 0 => ⟨fun _ => throw .exhausted, fun _ => throw .exhausted⟩
  | bound + 1 => ⟨Reactor.abandon (tied bound), runHook (tied bound)⟩

/-- Deeper nesting than this is not followed. -/
def nestingBound : Nat := 1000

/-- The actions of the world. -/
def ambient : Env := tied nestingBound

/-- How a program carries out a command. -/
def performInProgram (_ : String) (command : Command) : Act Answer :=
  caught (performCommand ambient command)

/-- The worker works until it has nothing to do. -/
def settleDown : Act Unit := runQueued ambient performInProgram

end ResumeOnce.Reactor
