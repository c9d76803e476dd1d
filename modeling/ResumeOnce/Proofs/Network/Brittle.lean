import ResumeOnce.Proofs.Network.Node
import ResumeOnce.Proofs.Network.Sourcing

/-!
# Streams that break down

The tasks of a stream run the code of others: a supply draws a value, a downstream is called.
When that code breaks down, at whatever time, the task is over. A source is then over with a
fault. The fold of a combination leaves a fault instead of what it comes to, and whoever it had
still to answer is answered by somebody else. The drive runs the code of others only as it pushes
the completion.

* `Sourcing.Frail`, `System.frail`: a source that may break down;
* `Brittle`, `Brittle.Step`, `System.brittle`: a combination that may break down;
* `Brittle.final?`: what the fold has come to, unless it broke down.
-/

namespace ResumeOnce.Network

open Streams

/-! ## Sources -/

section Source

variable {σ α : Type}

/-- What the task of a source does that may break down. -/
inductive Sourcing.Frail (draw : σ → Option (α × σ)) (c : Completion) :
    Sourcing σ α → Move α → Sourcing σ α → Prop
  | work {s s' : Sourcing σ α} {m : Move α} : Step draw c s m s' → Frail draw c s m s'
  | crash {s : Sourcing σ α} (f : Fault) : s.finished = false →
      Frail draw c s (.ends (.error f)) { s with awake := false, finished := true }

/-- A source that may break down, as a stream. -/
def System.frail (supply : Supply σ α) (c : Completion) : System α :=
  { System.source supply c with Step := Sourcing.Frail supply.draw c }

end Source

/-! ## Combinations -/

/-- A combination that may break down. -/
structure Brittle (C : Combiner) (S : (i : C.Feeder) → System (C.Input i)) where
  node : Node C S
  /-- Whether the fold has broken down. -/
  crashed : Bool

variable {C : Combiner} {S : (i : C.Feeder) → System (C.Input i)}

namespace Brittle

/-- What the fold has come to, if it has ended without breaking down. -/
def final? (s : Brittle C S) : Option Final :=
  if s.node.final.isComplete && !s.crashed then some s.node.fold.final else none

/-- The fold breaks down, and whoever waits for it is woken. -/
def crash (f : Fault) (s : Brittle C S) : Brittle C S where
  node := ({ s.node with final := (s.node.final.complete (.error f)).1 }.wake
    (s.node.final.complete (.error f)).2).sleep .fold
  crashed := true

/-- A right went down with the fold, and its feeder is answered. -/
def forget (r : C.Right) (o : Outcome Demand) (s : Brittle C S) : Brittle C S :=
  { s with node := { s.node with
      fold := s.node.fold.tell [(r, o)]
      feeder := heard s.node.fold.unanswered [(r, o)] s.node.feeder } }

/-- The drive breaks down. -/
def collapse (s : Brittle C S) : Brittle C S :=
  { s with node := { s.node with finished := true }.sleep .drive }

/-- What happens in a combination: its tasks and its feeders go on, or a task that runs the code
    of others breaks down. -/
inductive Step (order : List C.Feeder) : Brittle C S → Move C.Output → Brittle C S → Prop
  | work {s : Brittle C S} {m : Move C.Output} {node : Node C S} : s.node.Step order m node →
      Step order s m { s with node := node }
  | crash {s : Brittle C S} (f : Fault) : s.node.started = true →
      s.node.final.isComplete = false → Step order s .tacit (s.crash f)
  | forget {s : Brittle C S} (r : C.Right) (o : Outcome Demand) : s.crashed = true →
      Step order s .tacit (s.forget r o)
  | collapse {s : Brittle C S} {slot : Slot Agent Demand} (f : Fault) : s.node.finished = false →
      s.node.outlet = some (.drive, slot) → Step order s (.ends (.error f)) s.collapse

end Brittle

/-- The stream of a combination that may break down, whose feeders are awaited in some order. -/
def System.brittle (C : Combiner) (S : (i : C.Feeder) → System (C.Input i))
    (order : List C.Feeder) : System C.Output where
  State := Brittle C S
  start := ⟨.new C S, false⟩
  Step := Brittle.Step order
  answer o s := { s with node := s.node.answer o }
  cancel s := { s with node := s.node.cancel }
  Runnable s := (∃ a, s.node.Runs a) ∨ s.node.started = true ∧ ∃ i, (S i).Runnable (s.node.feeder i)

end ResumeOnce.Network
