import ResumeOnce.Streams.Machine

/-!
# Driving a combination

A combination of streams subscribes to its feeders, starts the fold over their
events and waits for it. When the fold ends with a final machine, the completion is
pushed downstream, unless the downstream has ended the stream itself, and then the
feeders are waited for. When the fold fails, each feeder is cancelled and waited
for.

* `Drive`: what a combination is about to do;
* `Drive.next`: what it does behind an answer.
-/

namespace ResumeOnce.Streams

/-- What the fold of a combination comes to. -/
structure Final where
  completion : Option Completion
  downstreamEnded : Bool
  deriving Repr, Inhabited

/-- What a combination is about to do. -/
inductive Drive where
  /-- Wait for the fold. -/
  | awaitFold
  /-- Cancel a feeder of a fold that failed. -/
  | cancelFeeder (index : Nat) (fault : Fault)
  /-- Wait for a feeder of a fold that failed. -/
  | awaitCancelled (index : Nat) (fault : Fault)
  /-- Push the completion downstream. -/
  | push (c : Completion)
  /-- Wait for a feeder of a fold that ended. -/
  | awaitFeeder (index : Nat) (delivered : Outcome Demand) (c : Completion)
  /-- Nothing more. -/
  | settled (result : Outcome Demand)
  deriving Inhabited

namespace Drive

/-- How a combination ends: with the downstream's fault, if it answered the completion with
    one, and else as the completion says. -/
def conclusion (delivered : Outcome Demand) (c : Completion) : Outcome Demand :=
  match delivered with
  | .error f => .error f
  | .ok _ => c.toOutcome.map fun _ => .done

/-- Cancel the feeders from an index on. -/
def cancelFrom (feeders index : Nat) (fault : Fault) : Drive :=
  if index < feeders then cancelFeeder index fault else settled (.error fault)

/-- Wait for the feeders from an index on. -/
def awaitFrom (feeders index : Nat) (delivered : Outcome Demand) (c : Completion) : Drive :=
  if index < feeders then awaitFeeder index delivered c else settled (conclusion delivered c)

/-- What may be answered to a combination. -/
def Answer : Drive → Type
  | awaitFold => Outcome Final
  | push _ => Outcome Demand
  | _ => Unit

/-- What a combination of some feeders does behind an answer. -/
def next (feeders : Nat) : (d : Drive) → d.Answer → Drive
  | awaitFold, .error f => cancelFrom feeders 0 f
  | awaitFold, .ok final =>
    let c := final.completion.getD .finished
    if final.downstreamEnded then awaitFrom feeders 0 (.ok .done) c else push c
  | cancelFeeder i f, _ => awaitCancelled i f
  | awaitCancelled i f, _ => cancelFrom feeders (i + 1) f
  | push c, delivered => awaitFrom feeders 0 delivered c
  | awaitFeeder i delivered c, _ => awaitFrom feeders (i + 1) delivered c
  | settled r, _ => settled r

end Drive

end ResumeOnce.Streams
