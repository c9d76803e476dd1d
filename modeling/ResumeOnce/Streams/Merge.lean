import ResumeOnce.Streams.Machine

/-!
# Interleaving streams

A merge pushes every value on its own, in the order of arrival, and counts the
feeders that are still running. It ends when the last of them has finished, or
with the first failure.

* `Merge.reduce`: what an event does;
* `Merge.emission?`: the value that is ready;
* `Merge.finalize`: the end of a merge.
-/

namespace ResumeOnce.Streams

/-- An event of a feeder, with the right to answer it. -/
structure Merge.Action (α : Type u) (ρ : Type v) where
  event : Event α
  sender : ρ

/-- The value that a merge holds, and the number of feeders that are running. -/
inductive Merge (α : Type u) (ρ : Type v) where
  | nothing (running : Nat)
  | ready (value : α) (producer : ρ) (running : Nat)
  | finished
  | errored (f : Fault)

instance : Inhabited (Merge α ρ) := ⟨.nothing 0⟩

namespace Merge

/-- The senders that a state has still to answer. -/
def held : Merge α ρ → List ρ
  | ready _ producer _ => [producer]
  | _ => []

/-- The last state of a merge. -/
def terminal : Completion → Merge α ρ
  | .finished => finished
  | .failure f => errored f

/-- What an event does to a merge. -/
def reduce : Merge α ρ → Action α ρ → Except (Violation ρ) (Reduced (Merge α ρ) ρ)
  | nothing running, ⟨.value a, r⟩ => .ok ⟨ready a r running, [], .none⟩
  | nothing running, ⟨.completion .finished, r⟩ =>
    if running - 1 = 0 then .ok ⟨finished, [(r, .ok .done)], .completion .finished⟩
    else .ok ⟨nothing (running - 1), [(r, .ok .done)], .none⟩
  | nothing _, ⟨.completion (.failure f), r⟩ =>
    .ok ⟨errored f, [(r, .ok .done)], .completion (.failure f)⟩
  | m, ⟨_, r⟩ => .error ⟨"merge protocol violation: action received while not idle", r :: m.held⟩

/-- The value that is ready to be pushed. -/
def emission? : Merge α ρ → Option (Emission (Merge α ρ) ρ α)
  | ready a producer running => some ⟨nothing running, a, [producer]⟩
  | _ => none

/-- The end of a merge: its last state, and the settlement of whatever is held. -/
def finalize (m : Machine (Merge α ρ)) (c : Completion) : Machine (Merge α ρ) × Answers ρ :=
  ({ m with current := terminal c, completion := some c },
    m.current.held.map (·, settlement c))

end Merge

end ResumeOnce.Streams
