import ResumeOnce.Fold.Turn
import ResumeOnce.Streams.Event

/-!
# Machines that combine streams

A combination of streams is a fold over the events of its feeders, each of which
comes with the right to answer its sender. The machine of the fold decides whom to
answer, and how, and when to push a value downstream; the downstream's answer to
that value is passed on to those who produced it.

* `Machine`: what a combination keeps between two events;
* `Reduced`: what an event does to it;
* `Delivery`: what the downstream's answer does to it.
-/

namespace ResumeOnce.Streams

open Fold (Effect)

/-- Answers to senders, in order. -/
abbrev Answers (ρ : Type u) := List (ρ × Outcome Demand)

/-- The answer to a sender whose event is settled by the end of a combination: it is done,
    or gets the failure. -/
def settlement : Completion → Outcome Demand
  | .finished => .ok .done
  | .failure f => .error f

/-- What a combination keeps: its current state, the completion once it is final, and
    whether the downstream has ended the stream. -/
structure Machine (γ : Type u) where
  current : γ
  completion : Option Completion
  downstreamEnded : Bool
  deriving Inhabited

/-- A machine in its first state. -/
def Machine.new (current : γ) : Machine γ := ⟨current, none, false⟩

/-- What an event does: the next state, whom to answer, and whether the fold goes on. -/
structure Reduced (γ : Type u) (ρ : Type v) where
  current : γ
  answers : Answers ρ
  effect : Effect

/-- An event that came against the rules: what it says, and who was still waiting for an
    answer, in the order in which they are let go. -/
structure Violation (ρ : Type v) where
  message : String
  abandoned : List ρ

/-- A value that is ready to be pushed, and who produced it, with the state behind it. -/
structure Emission (γ : Type u) (ρ : Type v) (α : Type w) where
  current : γ
  value : α
  producers : List ρ

/-- What the downstream's answer to a value comes to. -/
structure Delivery where
  /-- Whether the downstream has ended the stream. -/
  ended : Bool
  /-- The answer to each producer of the value. -/
  reply : Outcome Demand
  /-- How the emission ends. -/
  result : Outcome Unit

/-- The producers of a value learn what the downstream answered to it; its end or its fault
    ends the combination. -/
def Delivery.ofAnswer : Outcome Demand → Delivery
  | .ok .more => ⟨false, .ok .more, .ok ()⟩
  | .ok .done => ⟨true, .ok .done, .error Fault.finished⟩
  | .error f => ⟨true, .error f, .error f⟩

/-- The machine behind a delivery. -/
def Machine.deliver (m : Machine γ) (d : Delivery) : Machine γ :=
  { m with downstreamEnded := m.downstreamEnded || d.ended }

end ResumeOnce.Streams
