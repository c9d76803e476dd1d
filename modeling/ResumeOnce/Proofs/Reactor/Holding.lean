import ResumeOnce.Proofs.Reactor.Waking
import ResumeOnce.Reactor.Polling

/-!
# A pair in the world

A right to answer and its slot are made in a world. What is done with the two of them changes
their records, counts a leak, and wakes whoever sleeps at the slot; the rest of the world does
not notice.

* `World.holding`: the world with a slot and a right more;
* `claim_holding`, `completeSlot_holding`, `pollSlot_holding`: what is done with either;
* `resume_used`, `resume_unused`: an answer that comes too late, and one that does not;
* `dropResumption_used`, `dropResumption_delivers`, `dropResumption_panics`: what becomes of a
  right that is dropped.
-/

namespace ResumeOnce.Reactor

variable {env : Env} {w w' : World} {record : SlotRecord} {slot : Slot Waker Parcel}
  {heard : Bool} {right : Resumption} {leaks : Nat}

/-- An action that succeeds, and what follows. -/
theorem on_bind_of_ok {act : Act α} {f : α → Act β} {a : α} (h : act.on w = (.ok a, w')) :
    (act >>= f).on w = (f a).on w' := by
  rw [on_bind, h]

theorem on_bind_of_panicked {act : Act α} {f : α → Act β} {x : Script.Scream}
    (h : act.on w = (.error (.panicked x), w')) :
    (act >>= f).on w = (.error (.panicked x), w') := by
  rw [on_bind, h]

theorem catchPanic_ok {act : Act α} {f : Script.Scream → Act α} {a : α}
    (h : act.on w = (.ok a, w')) : (catchPanic act f).on w = (.ok a, w') := by
  rw [catchPanic, on_tryCatch, h]

theorem catchPanic_panicked {act : Act α} {f : Script.Scream → Act α} {x : Script.Scream}
    (h : act.on w = (.error (.panicked x), w')) : (catchPanic act f).on w = (f x).on w' := by
  rw [catchPanic, on_tryCatch, h]

/-! ## A world with a pair more -/

/-- Waking somebody in the world does no more than to tell it: no task is woken after the
    shutdown. -/
def World.Wakes (w : World) (k : Waker) : Prop :=
  ∀ t, k = .task t → w.circumstances.isShutdown = false

theorem wakeAny_of_wakes {k : Option Waker} (hk : ∀ k' ∈ k, w.Wakes k') :
    (wakeAny env k).on w = (.ok (), w.awaken k) := by
  rcases k with _ | _ | t | _ | _
  · rfl
  · rfl
  · exact wakeAny_on (hk _ rfl t rfl) _
  · rfl
  · rfl

/-- The world with one slot and one right to answer more, and with a number of leaks. -/
def World.holding (w : World) (record : SlotRecord) (right : Resumption) (leaks : Nat) : World :=
  { w with slots := w.slots.push record, resumptions := w.resumptions.push right, leaks }

theorem wakeAny_holding {k : Option Waker} (hk : ∀ k' ∈ k, w.Wakes k') :
    (wakeAny env k).on (w.holding record right leaks) =
      (.ok (), (w.awaken k).holding record right leaks) := by
  rw [wakeAny_of_wakes (by exact hk)]
  rcases k with _ | _ | _ | _ | _ <;> rfl

/-- A pair is made. -/
theorem newResumption_holding (policy : LeakPolicy) :
    (newResumption policy).on w = (.ok (w.resumptions.size, w.slots.size),
      w.holding ⟨.new, true⟩ ⟨w.slots.size, false, policy⟩ w.leaks) := rfl

theorem slotAt_holding : (slotAt w.slots.size).on (w.holding record right leaks) =
    (.ok record, w.holding record right leaks) := by
  change (Except.ok ((w.slots.push record).getD w.slots.size default), _) = _
  simp

theorem setSlot_holding (slot' : Slot Waker Parcel) :
    (setSlot w.slots.size slot').on (w.holding ⟨slot, heard⟩ right leaks) =
      (.ok (), w.holding ⟨slot', heard⟩ right leaks) := by
  have hm : (w.slots.push ⟨slot, heard⟩).modify w.slots.size (fun r => { r with slot := slot' }) =
      w.slots.push ⟨slot', heard⟩ := by grind
  rw [World.holding, World.holding, ← hm]
  rfl

theorem resumptionAt_holding :
    (resumptionAt w.resumptions.size).on (w.holding record right leaks) =
      (.ok right, w.holding record right leaks) := by
  change (Except.ok ((w.resumptions.push right).getD w.resumptions.size default), _) = _
  simp

/-- A right is used: it is used up in any case, and its slot is told if that is news. -/
theorem claim_holding : (claim w.resumptions.size).on (w.holding record right leaks) =
    (.ok (if right.resumed then none else some right.slot),
      w.holding record { right with resumed := true } leaks) := by
  rcases right with ⟨m, resumed, policy⟩
  rw [claim, on_bind, resumptionAt_holding]
  cases resumed with
  | true => rfl
  | false =>
    have hs : (w.resumptions.push ⟨m, false, policy⟩).setIfInBounds w.resumptions.size
        ⟨m, true, policy⟩ = w.resumptions.push ⟨m, true, policy⟩ := by grind
    rw [World.holding, World.holding, ← hs]
    rfl

/-- A slot that is filled while nothing is in it. -/
theorem completeSlot_holding {k : Option Waker} (hk : ∀ k' ∈ k, w.Wakes k') (answer : Reply) :
    (completeSlot env w.slots.size answer).on (w.holding ⟨⟨none, false, k⟩, heard⟩ right leaks) =
      (.ok (), (w.awaken k).holding ⟨⟨some answer, false, none⟩, heard⟩ right leaks) := by
  rw [completeSlot, on_bind, slotAt_holding]
  change (setSlot _ _ >>= fun _ => wakeAny env k).on _ = _
  rw [on_bind, setSlot_holding]
  exact wakeAny_holding hk

theorem emptySlot_holding : (emptySlot w.slots.size).on (w.holding ⟨slot, heard⟩ right leaks) =
    (.ok slot.result, w.holding ⟨{ slot with result := none }, heard⟩ right leaks) := by
  rw [emptySlot, on_bind, slotAt_holding]
  change (setSlot _ _ >>= fun _ => pure slot.result).on _ = _
  rw [on_bind, setSlot_holding]
  rfl

/-- A slot is polled at which nobody sleeps whom the poll would wake. -/
theorem pollSlot_holding (hk : slot.result.isSome → slot.waker = none) (k : Waker) :
    (pollSlot env w.slots.size k).on (w.holding ⟨slot, heard⟩ right leaks) =
      (.ok (slot.poll k).2.2, w.holding ⟨(slot.poll k).1, heard⟩ right leaks) := by
  rw [pollSlot, on_bind, slotAt_holding]
  change (setSlot _ _ >>= fun _ => wakeAny env (slot.poll k).2.1 >>= fun _ =>
    pure (slot.poll k).2.2).on _ = _
  rw [on_bind, setSlot_holding]
  have hn : (slot.poll k).2.1 = none := by
    rw [Slot.poll]
    split
    · rename_i hr
      exact hk (by rw [hr]; rfl)
    · split <;> rfl
  rw [hn]
  rfl

/-- The world with one leak more. -/
def World.leaked (w : World) : World := { w with leaks := w.leaks + 1 }

/-- A leak is counted, and comes to what the policy says. -/
theorem leak_on (policy : LeakPolicy) (what : String) :
    (leak policy what).on w =
      (match policy.effect (w.circumstances.unwinding != 0) with
        | .deliver => .ok ()
        | .panic => .error (.panicked (.text (Leak.message what)))
        | .abort => .error .aborted,
      w.leaked) := by
  change Act.on (match policy.effect (w.circumstances.unwinding != 0) with
    | .deliver => pure ()
    | .panic => panicWith (Leak.message what)
    | .abort => throw .aborted) w.leaked = _
  cases policy.effect (w.circumstances.unwinding != 0) <;> rfl

theorem leak_holding (policy : LeakPolicy) (what : String) :
    (leak policy what).on (w.holding record right leaks) =
      (match policy.effect (w.circumstances.unwinding != 0) with
        | .deliver => .ok ()
        | .panic => .error (.panicked (.text (Leak.message what)))
        | .abort => .error .aborted,
      w.holding record right (leaks + 1)) := leak_on policy what

/-! ## Answering -/

/-- An answer that carries no right to answer: nothing happens when it is let go. -/
def Bare (r : Reply) : Prop := ∀ env, dropReply env r = pure ()

theorem slots_awaken (w : World) (k : Option Waker) : (w.awaken k).slots = w.slots := by
  rcases k with _ | _ | _ | _ | _ <;> rfl

theorem resumptions_awaken (w : World) (k : Option Waker) :
    (w.awaken k).resumptions = w.resumptions := by
  rcases k with _ | _ | _ | _ | _ <;> rfl

theorem resume_used {r : Reply} (hb : Bare r) (hr : right.resumed = true) :
    (resume env w.resumptions.size r).on (w.holding record right leaks) =
      (.ok false, w.holding record right leaks) := by
  rcases right with ⟨m, _, policy⟩
  cases hr
  rw [resume, on_bind, claim_holding]
  change (dropReply env r >>= fun _ => pure false).on _ = _
  rw [hb env]
  rfl

/-- An answer wakes whoever waits; it does not stay where nobody hears it. -/
theorem resume_unused {k : Option Waker} {r : Reply} (hb : Bare r) (hr : right.resumed = false)
    (hs : right.slot = w.slots.size) (hk : ∀ k' ∈ k, w.Wakes k') :
    (resume env w.resumptions.size r).on (w.holding ⟨⟨none, false, k⟩, heard⟩ right leaks) =
      (.ok true, (w.awaken k).holding ⟨⟨if heard then some r else none, false, none⟩, heard⟩
        { right with resumed := true } leaks) := by
  rw [resume, on_bind, claim_holding, hr, hs]
  change (completeSlot env w.slots.size r >>= fun _ => slotAt w.slots.size >>= fun x => _).on _ = _
  rw [on_bind_of_ok (completeSlot_holding hk r), ← slots_awaken w k, on_bind_of_ok slotAt_holding]
  cases heard with
  | true => rfl
  | false =>
    change (emptySlot _ >>= fun r => _).on _ = _
    rw [on_bind_of_ok emptySlot_holding]
    change (dropReply env r >>= fun _ => pure true).on _ = _
    rw [hb env]
    rfl

/-- The waiting side goes away, and with it the answer that it did not take. -/
theorem dropWaiter_holding (hb : ∀ r, slot.result = some r → Bare r) :
    (dropWaiter env w.slots.size).on (w.holding ⟨slot, heard⟩ right leaks) =
      (.ok (), w.holding ⟨{ slot with result := none }, false⟩ right leaks) := by
  have hs : (w.slots.push ⟨slot, heard⟩).modify w.slots.size (fun r => { r with heard := false }) =
      w.slots.push ⟨slot, false⟩ := by grind
  have hw : (modify fun v : World => { v with slots := v.slots.modify w.slots.size fun r =>
      { r with heard := false } } : Act Unit).on (w.holding ⟨slot, heard⟩ right leaks) =
      (.ok (), w.holding ⟨slot, false⟩ right leaks) := by
    rw [World.holding, World.holding, ← hs]
    rfl
  rw [dropWaiter, on_bind_of_ok hw, on_bind_of_ok emptySlot_holding]
  rcases hr : slot.result with _ | r
  · rfl
  · change (dropReply env r).on _ = _
    rw [hb r hr env]
    rfl

/-! ## Dropping the right -/

/-- Only one policy ends the program. -/
theorem policy_of_effect_abort {policy : LeakPolicy} {unwinding : Bool}
    (h : policy.effect unwinding = .abort) : policy = .abort := by
  cases policy with
  | cancel => cases h
  | panic => cases unwinding <;> cases h
  | abort => rfl

section Dropping

variable {k : Option Waker}

theorem dropResumption_used (hr : right.resumed = true) :
    (dropResumption env w.resumptions.size).on (w.holding record right leaks) =
      (.ok (), w.holding record right leaks) := by
  rcases right with ⟨m, _, policy⟩
  cases hr
  rw [dropResumption, on_bind, claim_holding]
  rfl

/-- What follows when a right is dropped that was not used. -/
theorem dropResumption_unused (hr : right.resumed = false) (hs : right.slot = w.slots.size) :
    (dropResumption env w.resumptions.size).on (w.holding record right leaks) =
      (leak right.policy "Resumption" >>= fun _ =>
        completeSlot env w.slots.size (.error Leak.fault)).on
          (w.holding record { right with resumed := true } leaks) := by
  rw [dropResumption, on_bind, claim_holding, hr, hs]
  change (resumptionAt _ >>= fun r => _).on _ = _
  rw [on_bind, resumptionAt_holding]

/-- A leak that is delivered. -/
theorem dropResumption_delivers (hr : right.resumed = false) (hs : right.slot = w.slots.size)
    (hk : ∀ k' ∈ k, w.Wakes k')
    (he : right.policy.effect (w.circumstances.unwinding != 0) = .deliver) :
    (dropResumption env w.resumptions.size).on (w.holding ⟨⟨none, false, k⟩, heard⟩ right leaks) =
      (.ok (), (w.awaken k).holding ⟨⟨some (.error Leak.fault), false, none⟩, heard⟩
        { right with resumed := true } (leaks + 1)) := by
  rw [dropResumption_unused hr hs, on_bind, leak_holding, he]
  exact completeSlot_holding hk _

/-- A leak that panics. -/
theorem dropResumption_panics (hr : right.resumed = false) (hs : right.slot = w.slots.size)
    (he : right.policy.effect (w.circumstances.unwinding != 0) = .panic) :
    (dropResumption env w.resumptions.size).on (w.holding record right leaks) =
      (.error (.panicked (.text (Leak.message "Resumption"))),
        w.holding record { right with resumed := true } (leaks + 1)) := by
  rw [dropResumption_unused hr hs, on_bind, leak_holding, he]

end Dropping

/-- The world while one panic more unwinds. -/
def World.unwound (w : World) : World :=
  { w with circumstances.unwinding := w.circumstances.unwinding + 1 }

/-- The world when one panic less unwinds. -/
def World.rewound (w : World) : World :=
  { w with circumstances.unwinding := w.circumstances.unwinding - 1 }

/-- A cleanup that succeeds while a panic unwinds. -/
theorem whileUnwinding_ok {cleanup : Act Unit} (h : cleanup.on w.unwound = (.ok (), w')) :
    (whileUnwinding cleanup).on w = (.ok (), w'.rewound) := by
  rw [whileUnwinding, on_bind]
  change Act.on (tryCatch cleanup _ >>= fun _ => _) w.unwound = _
  rw [on_bind, on_tryCatch, h]
  rfl

theorem whileUnwinding_holding {cleanup : Act Unit}
    (h : cleanup.on (w.unwound.holding record right leaks) = (.ok (), w')) :
    (whileUnwinding cleanup).on (w.holding record right leaks) = (.ok (),
      { w' with circumstances.unwinding := w'.circumstances.unwinding - 1 }) := whileUnwinding_ok h

end ResumeOnce.Reactor
