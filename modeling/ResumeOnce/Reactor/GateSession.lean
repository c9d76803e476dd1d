import ResumeOnce.Reactor.Performing

/-!
# Sessions with rights to answer

A session makes rights to answer by name, uses and drops them, and polls the
parties that wait for the answers, with wakers that count.

* `GateSession.perform`: one command;
* `GateSession.run`: a session.
-/

namespace ResumeOnce.Reactor.GateSession

open Script (Scream)

/-- What is done with a right to answer as soon as it is made. -/
inductive Use where
  | answer (o : Outcome Datum)
  /-- Keep it under its name; what follows is not done. -/
  | keep

/-- What can be done in a session. -/
inductive Command where
  | make (name : String) (policy : Option LeakPolicy)
  | pause (name : String) (uses : List Use) (policy : Option LeakPolicy)
  | answer (name : String) (o : Outcome Datum)
  | poll (name waker : String)
  | wakes (waker : String)
  | block (name : String)
  /-- Wait while another thread answers. -/
  | blockOnOther (name : String) (value : Datum)
  | isReady (name : String)
  | isResumed (name : String)
  | policy (name : String)
  | describe (name : String)
  | describeWaiting (name : String)
  | drop (name : String)
  /-- Drop the right to answer while a panic with the text unwinds. -/
  | dropUnwinding (name text : String)
  | dropWaiting (name : String)
  | leaks

/-- What a command answers. -/
inductive Reply where
  | nothing
  | done
  | usedUp
  | pending
  | wouldHang
  | outcome (o : Outcome Datum)
  | count (n : Nat)
  | flag (b : Bool)
  | text (s : String)
  | all (replies : List Reply)
  | panicked (text : String)
  | unwound (text : String)

/-- The right to answer of a name. -/
def gateOf (name : String) : Act Nat := do
  match (← get).directory.gates.lookup name with
  | none => panicWith "resumption"
  | some n => return n

/-- The slot of the party that waits under a name. -/
def waiterOf (name : String) : Act Nat := do
  match (← get).directory.waiters.lookup name with
  | none => panicWith "suspended"
  | some n => return n

/-- A right to answer is used. -/
def use (n : Nat) (o : Outcome Datum) : Act Reply := do
  if ← resume ambient n (o.map .datum) then return .done else return .usedUp

/-- A new right to answer is used in order; it is dropped in the end, unless it is kept. -/
def useAll (name : String) (n : Nat) : List Use → Act (List Reply)
  | [] => do
    dropResumption ambient n
    return []
  | .keep :: _ => do
    nameGate ambient name n
    return []
  | .answer o :: rest => do
    let reply ← use n o
    return reply :: (← useAll name n rest)

/-- The right to answer of a name, if there is one, is dropped. -/
def dropNamed (name : String) : Act Unit := do
  let old := (← get).directory.gates.lookup name
  changeDirectory fun d => { d with gates := d.gates.without name }
  replacing old (dropResumption ambient)

/-- The answer that a waiting thread gets, or that it would wait for ever. -/
def block (slot : Nat) : Act Reply := do
  if (← slotAt slot).slot.isComplete then
    match ← pollSlot ambient slot .thread with
    | .ready r => return .outcome (r.map Parcel.toDatum)
    | .pending => return .wouldHang
  else return .wouldHang

/-- One command. -/
def perform : Command → Act Reply
  | .make name policy => do
    let (n, slot) ← newResumption (← policyOr policy)
    nameGate ambient name n
    nameWaiter ambient name slot
    return .nothing
  | .pause name uses policy => do
    let (n, slot) ← newResumption (← policyOr policy)
    let replies ← useAll name n uses
    nameWaiter ambient name slot
    return .all replies
  | .answer name o => do use (← gateOf name) o
  | .poll name waker => do
    match ← pollSlot ambient (← waiterOf name) (.counter waker) with
    | .pending => return .pending
    | .ready r => return .outcome (r.map Parcel.toDatum)
  | .wakes waker => return .count ((← get).woken.count waker)
  | .block name => do block (← waiterOf name)
  | .blockOnOther name value => do
    let n ← gateOf name
    let slot ← waiterOf name
    match ← pollSlot ambient slot .thread with
    | .ready r => return .outcome (r.map Parcel.toDatum)
    | .pending =>
      let _ ← use n (.ok value)
      block slot
  | .isReady name => return .flag (← slotAt (← waiterOf name)).slot.isComplete
  | .isResumed name => return .flag (← resumptionAt (← gateOf name)).resumed
  | .policy name => return .text (← resumptionAt (← gateOf name)).policy.word
  | .describe name => return .text (← resumptionAt (← gateOf name)).describe
  | .describeWaiting name => do
    let ready := (← slotAt (← waiterOf name)).slot.isComplete
    return .text (Text.record "Suspended" [("ready", toString ready)])
  | .drop name => do
    dropNamed name
    return .nothing
  | .dropUnwinding name text => do
    whileUnwinding (dropNamed name)
    return .unwound text
  | .dropWaiting name => do
    let old := (← get).directory.waiters.lookup name
    changeDirectory fun d => { d with waiters := d.waiters.without name }
    replacing old (dropWaiter ambient)
    return .nothing
  | .leaks => return .count (← get).leaks

/-- Commands in order; the panic of one becomes its answer. -/
def performAll : List Command → Act (List Reply)
  | [] => return []
  | command :: rest => do
    let reply ← catchPanic (perform command) fun scream => return .panicked scream.message
    return reply :: (← performAll rest)

/-- A session under a leak policy: its answers and the number of leaks. -/
def run (policy : LeakPolicy) (commands : List Command) : Except Halt (List Reply × Nat) :=
  let (result, w) := (performAll commands).run.run (World.new policy)
  result.map (·, w.leaks)

end ResumeOnce.Reactor.GateSession
