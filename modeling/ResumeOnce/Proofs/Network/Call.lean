import ResumeOnce.Proofs.Network.System
import ResumeOnce.Proofs.Slot

/-!
# A call of the downstream

Whoever has called its downstream waits at a slot for the answer. The answer comes once; who
is told to stop by it has been dismissed.

* `Called`: the call that a stream has made, and what others know of it;
* `Called.wait`, `Called.take`: the answer has not come, and it has;
* `Called.answer`: the answer comes.
-/

namespace ResumeOnce.Network

variable {ω : Type} {calling dismissed : Bool} {call : Option (Slot ω Demand)}
  {slot slot' : Slot ω Demand} {a : ω} {w : Option ω} {o : Outcome Demand}

/-- The slot at which the answer to a call is awaited, if there is a call; whether the downstream
    has still to answer it, and whether the stream was told to stop. -/
structure Called (calling dismissed : Bool) (call : Option (Slot ω Demand)) : Prop where
  calling : calling = call.any fun slot => slot.result.isNone
  untaken : ∀ slot, call = some slot → slot.taken = false
  told : ∀ slot o, call = some slot → slot.result = some o → dismisses o = true → dismissed = true

namespace Called

theorem empty : Called false dismissed (none : Option (Slot ω Demand)) where
  calling := rfl
  untaken _ hn := nomatch hn
  told _ _ hn := nomatch hn

theorem new : Called true dismissed (some (.new : Slot ω Demand)) := by
  refine ⟨rfl, ?_, ?_⟩
  · rintro slot ⟨⟩
    rfl
  · rintro slot o ⟨⟩ hr
    cases hr

/-- Whoever has no call on its way does not wait for an answer. -/
theorem idle (h : Called calling dismissed call) (hc : call = none) : calling = false := by
  rw [h.calling, hc, Option.any_none]

theorem guarded (h : Called calling dismissed (some slot)) (hg : slot.Guards a) :
    calling = true := by
  rw [h.calling, Option.any_some, hg.result]
  rfl

/-- Who was dismissed once stays so. -/
theorem dismiss (h : Called calling dismissed call) : Called calling true call :=
  ⟨h.calling, h.untaken, fun _ _ _ _ _ => rfl⟩

/-- Who finds no answer leaves its waker. -/
theorem wait (h : Called calling dismissed (some slot))
    (hp : slot.poll a = (slot', w, .pending)) :
    Called calling dismissed (some slot') ∧ slot'.Guards a := by
  obtain ⟨hn, hg⟩ := Slot.poll_pending hp
  refine ⟨⟨?_, ?_, ?_⟩, hg⟩
  · rw [h.calling, Option.any_some, Option.any_some, hn, hg.result]
  · rintro _ ⟨⟩
    exact hg.taken
  · rintro _ o ⟨⟩ ho
    cases hg.result.symm.trans ho

/-- Who finds the answer has been dismissed, if that is what it says. -/
theorem take (h : Called calling dismissed (some slot))
    (hp : slot.poll a = (slot', w, .ready o)) :
    calling = false ∧ (dismisses o = true → dismissed = true) := by
  obtain ⟨hr, -⟩ := Slot.poll_ready hp (h.untaken slot rfl)
  exact ⟨by rw [h.calling, Option.any_some, hr]; rfl, h.told slot o rfl hr⟩

/-- The answer comes. -/
theorem answer (h : Called true dismissed call) (o : Outcome Demand) : ∃ slot, call = some slot ∧
    Called false (dismissed || dismisses o) (some (slot.complete o).1) := by
  have hc := h.calling
  rcases call with _ | slot
  · cases hc
  · have hr : slot.result = none := Option.isNone_iff_eq_none.1 hc.symm
    have hf : (slot.complete o).1 = ⟨some o, false, none⟩ := by
      rw [Slot.complete, Slot.takeWaker, hr, h.untaken slot rfl]
      rfl
    refine ⟨slot, rfl, ?_⟩
    rw [hf]
    refine ⟨rfl, ?_, ?_⟩
    · rintro _ ⟨⟩
      rfl
    · rintro _ o' ⟨⟩ ho hd
      obtain rfl := Option.some.inj ho
      exact Bool.or_eq_true_iff.2 (.inr hd)

end Called

end ResumeOnce.Network
