import ResumeOnce.Reactor.Performing

/-!
# Sessions with a system

A session carries out commands one after another on a system with one worker. The
worker is held while a command is carried out and then works until it has nothing
to do; what was logged until then belongs to the command.

* `Session.step`: one command;
* `Session.run`: a session;
* `Session.stream`: one stream alone, from its publisher to its end.
-/

namespace ResumeOnce.Reactor

open Script (Answer Command Entry Publisher Receiver)

/-- What one command comes to: its answer, and what was logged. -/
structure Performed where
  answer : Answer
  log : List Entry

namespace Session

/-- One command, carried out on the thread of the worker or elsewhere. -/
def step (inside : Bool) (command : Command) : Act Performed := do
  modify fun w => { w with log := #[] }
  let isShutdown := (← get).circumstances.isShutdown
  let worker := if inside && !isShutdown then some 0 else none
  changeCircumstances fun c => { c with worker }
  let answer ← caught (performCommand ambient command)
  changeCircumstances fun c => { c with worker := none }
  settleDown
  return ⟨answer, (← get).log.toList⟩

/-- Commands in order. -/
def steps (inside : Bool) : List Command → Act (List Performed)
  | [] => return []
  | command :: rest => do
    let performed ← step inside command
    return performed :: (← steps inside rest)

/-- A session under a leak policy: what its commands come to, and the number of leaks. -/
def run (policy : LeakPolicy) (inside : Bool) (commands : List Command) :
    Except Halt (List Performed × Nat) :=
  let (result, w) := (steps inside commands).run.run (World.new policy)
  result.map (·, w.leaks)

/-- One stream alone: what was logged, the answer of its operation, and the number of leaks. -/
def stream (policy : LeakPolicy) (publisher : Publisher) (receiver : Receiver) :
    Except Halt (List Entry × Answer × Nat) :=
  (run policy false [.sink "s" publisher receiver, .pollValue "s"]).map fun (performed, leaks) =>
    (performed.flatMap (·.log), (performed.getLast?.map (·.answer)).getD .nothing, leaks)

end Session

end ResumeOnce.Reactor
