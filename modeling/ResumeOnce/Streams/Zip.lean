import ResumeOnce.Streams.Machine

/-!
# Pairing two streams

A zip holds at most one value of each side. When it has both, the pair is pushed.
A completion on a side that holds no value ends the zip, and the other side's value
is settled; a value or a completion on a side that still holds a value is against
the rules.

* `Zip.reduce`: what an event does;
* `Zip.emission?`: the pair that is ready;
* `Zip.finalize`: the end of a zip.
-/

namespace ResumeOnce.Streams

/-- An event of one of two feeders, with the right to answer it. -/
inductive Zip.Action (α : Type u) (β : Type v) (ρ : Type w) where
  | left (event : Event α) (sender : ρ)
  | right (event : Event β) (sender : ρ)

/-- The right to answer the sender of an event. -/
def Zip.Action.sender : Zip.Action α β ρ → ρ
  | left _ r => r
  | right _ r => r

/-- The values that a zip holds, with the rights to answer for them. -/
inductive Zip (α : Type u) (β : Type v) (ρ : Type w) where
  | nothing
  | hasLeft (a : α) (ra : ρ)
  | hasRight (b : β) (rb : ρ)
  | hasBoth (a : α) (ra : ρ) (b : β) (rb : ρ)
  | finished
  | errored (f : Fault)
  deriving Inhabited

namespace Zip

/-- The name of a state. -/
def name : Zip α β ρ → String
  | nothing => "Nothing"
  | hasLeft _ _ => "HasLeft"
  | hasRight _ _ => "HasRight"
  | hasBoth _ _ _ _ => "HasBoth"
  | finished => "Finished"
  | errored _ => "Errored"

/-- The senders that a state has still to answer. -/
def held : Zip α β ρ → List ρ
  | hasLeft _ ra => [ra]
  | hasRight _ rb => [rb]
  | hasBoth _ ra _ rb => [ra, rb]
  | _ => []

/-- The last state of a zip. -/
def terminal : Completion → Zip α β ρ
  | .finished => finished
  | .failure f => errored f

/-- The settlements of the senders that a state has still to answer. -/
def settle (z : Zip α β ρ) (c : Completion) : Answers ρ := z.held.map (·, settlement c)

/-- A completion ends the zip: its sender is done, and whatever is held is settled. -/
def complete (z : Zip α β ρ) (c : Completion) (sender : ρ) : Reduced (Zip α β ρ) ρ :=
  ⟨terminal c, (sender, .ok .done) :: z.settle c, .completion c⟩

/-- What an event against the rules comes to. -/
def violation (z : Zip α β ρ) (sender : ρ) : Violation ρ :=
  ⟨"zip protocol violation: action received in state " ++ z.name, z.held ++ [sender]⟩

/-- What an event does to a zip. -/
def reduce : Zip α β ρ → Action α β ρ → Except (Violation ρ) (Reduced (Zip α β ρ) ρ)
  | nothing, .left (.value a) r => .ok ⟨hasLeft a r, [], .none⟩
  | nothing, .right (.value b) r => .ok ⟨hasRight b r, [], .none⟩
  | hasRight b rb, .left (.value a) ra => .ok ⟨hasBoth a ra b rb, [], .none⟩
  | hasLeft a ra, .right (.value b) rb => .ok ⟨hasBoth a ra b rb, [], .none⟩
  | nothing, .left (.completion c) r => .ok (nothing.complete c r)
  | hasRight b rb, .left (.completion c) r => .ok ((hasRight b rb).complete c r)
  | nothing, .right (.completion c) r => .ok (nothing.complete c r)
  | hasLeft a ra, .right (.completion c) r => .ok ((hasLeft a ra).complete c r)
  | z, action => .error (z.violation action.sender)

/-- The pair that is ready to be pushed. -/
def emission? : Zip α β ρ → Option (Emission (Zip α β ρ) ρ (α × β))
  | hasBoth a ra b rb => some ⟨nothing, (a, b), [ra, rb]⟩
  | _ => none

/-- The end of a zip: its last state, and the settlement of whatever is held. -/
def finalize (m : Machine (Zip α β ρ)) (c : Completion) : Machine (Zip α β ρ) × Answers ρ :=
  ({ m with current := terminal c, completion := some c }, m.current.settle c)

end Zip

end ResumeOnce.Streams
