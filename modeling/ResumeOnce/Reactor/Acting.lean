import ResumeOnce.Reactor.Spawning

/-!
# Acting on folds

What the consumer of a fold does at its turns: how the state is made, reduced,
finalized, and how actions are disposed of. A scripted fold logs all it does.

* `reduce`, `finalize`, `dispose`: the turns of a fold;
* `writeAction`: an action comes into the channel of a scripted fold.
-/

namespace ResumeOnce.Reactor

open Script (ActionPlan Answer Entry FoldEntry)
open Streams (Machine Zip Merge Reduced Violation)

variable (env : Env)

/-! ## Actions of scripted folds -/

/-- An action with the right to answer its sender, whose slot gets the name of the sender. -/
def newAction (plan : ActionPlan) : Act Action := do
  match plan.ack with
  | none => return ⟨plan, none⟩
  | some name =>
    let (sender, slot) ← newResumption (← policyOr plan.policy)
    nameWaiter env name slot
    return ⟨plan, some sender⟩

/-- The sender of an action gets an answer. -/
def answerAction (a : Action) (answer : Outcome Datum) : Act Unit :=
  match a.ack with
  | none => pure ()
  | some sender => do
    let _ ← resume env sender (answer.map .datum)

/-- The senders of actions get a fault, in order. -/
def failActions (f : Fault) : List Action → Act Unit
  | [] => pure ()
  | a :: rest => do
    answerAction env a (.error f)
    failActions f rest

/-- An action is written into the channel of a fold; its sender is told if it is refused. -/
def writeAction (channel : Nat) (plan : ActionPlan) : Act Answer := do
  let a ← newAction env plan
  match ← tryWrite env channel (.action a) with
  | .refused refusal =>
    answerAction env a (.error refusal.fault)
    return .returned ⟨refusal.fault, plan.value⟩
  | _ => return .done

/-- Actions are written in order. -/
def writeActions (channel : Nat) : List ActionPlan → Act (List Answer)
  | [] => return []
  | plan :: rest => do
    let answer ← writeAction env channel plan
    return answer :: (← writeActions channel rest)

/-! ## Turns -/

/-- The state of a fold at its begin. -/
def startState (channel : Nat) : Folder → Act FoldState
  | .combining true _ _ => return .zip (.new .nothing)
  | .combining false _ feeders => return .merge (.new (.nothing feeders.length))
  | .scripted name plain first => do
    if plain then logEntry (.fold name (.started none))
    else
      logEntry (.fold name (.started (some (← channelAt channel).size)))
      for plan in first do
        logEntry (.fold name (.wrote (← writeAction env channel plan)))
    return .scripted [] []

/-- What a reduction comes to: the state behind it and what it says on the fold, or a panic
    with what is left behind. -/
inductive Reducing where
  | reduced (state : FoldState) (effect : Fold.Effect)
  | crashed (state : FoldState) (loose : List Nat) (text : String)

/-- The state of a combination behind what an event did to it. -/
def reducedBy (m : Machine γ) (wrap : Machine γ → FoldState) (idle : γ) :
    Except (Violation Nat) (Reduced γ Nat) → Act Reducing
  | .ok r => do
    answerAll env r.answers
    return .reduced (wrap { m with current := r.current }) r.effect
  | .error v => return .crashed (wrap { m with current := idle }) v.abandoned v.message

/-- A state is reduced by what came through the channel. -/
def reduce (name : String) : FoldState → Cargo → Act Reducing
  | .zip m, .paired a => reducedBy env m .zip .nothing (m.current.reduce a)
  | .merge m, .merged a => reducedBy env m .merge (.nothing 0) (m.current.reduce a)
  | .scripted seen pending, .action a => do
    logEntry (.fold name (.reduced a.plan.value))
    let state := FoldState.scripted (seen ++ [a.plan.value]) (pending ++ [a])
    match a.plan.reduction with
    | .keep => return .reduced state .none
    | .finish => return .reduced state (.completion .finished)
    | .fail f => return .reduced state (.completion (.failure f))
    | .panic => return .crashed state [] "reduce panicked"
  | state, cargo => do
    dropCargo env cargo
    return .reduced state .none

/-- Operations are cancelled in order. -/
def cancelAll : List Nat → Act Unit
  | [] => pure ()
  | n :: rest => do
    let _ ← cancelOperation env n
    cancelAll rest

/-- A state is finalized. -/
def finalize (folder : Folder) (c : Completion) : FoldState → Act FoldState
  | .unstarted => return .unstarted
  | .scripted seen pending => do
    match folder with
    | .scripted name _ _ => logEntry (.fold name (.finalized c pending.length))
    | _ => pure ()
    failActions env c.fault pending
    return .scripted seen []
  | .zip m => do
    let (m', answers) := Zip.finalize m c
    answerAll env answers
    cancelFeeders folder
    return .zip m'
  | .merge m => do
    let (m', answers) := Merge.finalize m c
    answerAll env answers
    cancelFeeders folder
    return .merge m'
where
  /-- The feeders of a combination are cancelled. -/
  cancelFeeders : Folder → Act Unit
    | .combining _ _ feeders => cancelAll env feeders
    | _ => pure ()

/-- An action that is left in the channel is disposed of. -/
def dispose (folder : Folder) (c : Completion) : Cargo → Act Unit
  | .datum _ => pure ()
  | .action a => do
    match folder with
    | .scripted name _ _ => logEntry (.fold name (.disposed a.plan.value c))
    | _ => pure ()
    answerAction env a (.error c.fault)
  | .paired a => answerAll env [(a.sender, Streams.settlement c)]
  | .merged a => answerAll env [(a.sender, Streams.settlement c)]

/-- The value of a fold whose state is final. -/
def FoldState.value : FoldState → Parcel
  | .unstarted => .datum .null
  | .scripted seen _ => .datum (.list seen)
  | .zip m => .final ⟨m.completion, m.downstreamEnded⟩
  | .merge m => .final ⟨m.completion, m.downstreamEnded⟩

/-- The value that a combination has ready, with its producers, and the state behind it. -/
def FoldState.emission? : FoldState → Option (Datum × List Nat × FoldState)
  | .zip m => m.current.emission?.map fun e =>
    (.pair e.value.1 e.value.2, e.producers, .zip { m with current := e.current })
  | .merge m => m.current.emission?.map fun e =>
    (e.value, e.producers, .merge { m with current := e.current })
  | _ => none

/-- The state of a combination behind what the downstream answered. -/
def FoldState.deliver (d : Streams.Delivery) : FoldState → FoldState
  | .zip m => .zip (m.deliver d)
  | .merge m => .merge (m.deliver d)
  | s => s

end ResumeOnce.Reactor
