import ResumeOnce.Proofs.Reactor.Folding
import ResumeOnce.Proofs.Slot

/-!
# No wake is lost

A task that finds nothing in a slot leaves itself there as the waker, and waits. Whoever fills
the slot notifies it, and queues it if it was not notified before; and when the task is polled
again, it finds the answer.

* `World.awaken`, `wakeAny_on`: what a wake comes to before the shutdown;
* `completeSlot_on`, `pollSlot_on`: a slot is filled, and asked for its answer;
* `stepWaiting_guards`: a task that waits has left its waker;
* `completeSlot_notifies`: whoever waits at a slot that is filled is notified;
* `stepWaiting_done`: and finds the answer.
-/

namespace ResumeOnce.Scheduler.Board

variable {b : Board} {t : Nat} {origin : Option Nat}

/-- A task that is woken is notified. -/
theorem isNotified_wake (ht : t < b.entries.size) : (b.wake origin t).isNotified t = true := by
  rw [wake, notify]
  by_cases hn : b.isNotified t = true
  · rw [if_pos hn]
    exact hn
  · rw [if_neg hn]
    simp [isNotified, queue, ht, Array.getElem_modify]

end ResumeOnce.Scheduler.Board

namespace ResumeOnce.Reactor

variable {env : Env} {w w' : World} {n t : Nat} {r : Reply} {hold : Hold}

/-! ## Slots in the world -/

/-- The slot of a number. -/
def World.slot (w : World) (n : Nat) : Slot Waker Parcel := (w.slots.getD n default).slot

/-- The world with another slot in place. -/
def World.withSlot (w : World) (n : Nat) (slot : Slot Waker Parcel) : World :=
  { w with slots := w.slots.modify n fun r => { r with slot } }

/-- The world in which somebody has been woken, if there was anybody. -/
def World.awaken (w : World) : Option Waker → World
  | some (.counter name) => { w with woken := name :: w.woken }
  | some (.task t) => { w with board := w.board.wake w.circumstances.worker t }
  | _ => w

@[simp]
theorem slot_awaken (w : World) (k : Option Waker) : (w.awaken k).slot n = w.slot n := by
  rcases k with _ | _ | _ | _ | _ <;> rfl

theorem slot_withSlot (hn : n < w.slots.size) (slot : Slot Waker Parcel) :
    (w.withSlot n slot).slot n = slot := by
  simp [World.slot, World.withSlot, Array.getElem_modify, hn]

/-! ## What becomes of the world -/

theorem schedule_on (hw : w.circumstances.isShutdown = false) (t : Nat) :
    (schedule env t).on w =
      (.ok (), { w with board := w.board.queue w.circumstances.worker t }) := by
  change (if w.circumstances.isShutdown then env.abandon t
    else set { w with board := w.board.queue w.circumstances.worker t } : Act Unit).on w = _
  rw [hw]
  rfl

/-- Before the shutdown, whoever is woken is notified, and queued if that is news. -/
theorem wakeAny_on (hw : w.circumstances.isShutdown = false) (k : Option Waker) :
    (wakeAny env k).on w = (.ok (), w.awaken k) := by
  rcases k with _ | _ | t | _ | _
  · rfl
  · rfl
  · change (if (w.board.notify t).1 then schedule env t else pure () : Act Unit).on
      { w with board := (w.board.notify t).2 } = _
    rw [World.awaken, Scheduler.Board.wake]
    rcases w.board.notify t with ⟨_ | _, b⟩
    · rfl
    · exact schedule_on (by exact hw) t
  · rfl
  · rfl

theorem completeSlot_on (hw : w.circumstances.isShutdown = false) (n : Nat) (r : Reply) :
    (completeSlot env n r).on w =
      (.ok (), (w.withSlot n ((w.slot n).complete r).1).awaken ((w.slot n).complete r).2) := by
  change (wakeAny env ((w.slot n).complete r).2).on (w.withSlot n ((w.slot n).complete r).1) = _
  exact wakeAny_on (by exact hw) _

theorem pollSlot_on (hw : w.circumstances.isShutdown = false) (n : Nat) (k : Waker) :
    (pollSlot env n k).on w = (.ok ((w.slot n).poll k).2.2,
      (w.withSlot n ((w.slot n).poll k).1).awaken ((w.slot n).poll k).2.1) := by
  change (wakeAny env ((w.slot n).poll k).2.1 >>= fun _ => pure ((w.slot n).poll k).2.2).on
    (w.withSlot n ((w.slot n).poll k).1) = _
  rw [on_bind, wakeAny_on (by exact hw)]
  rfl

/-! ## Waiting at a slot -/

/-- A task that waits at a slot has left its waker there. -/
theorem stepWaiting_guards (hw : w.circumstances.isShutdown = false) (hn : n < w.slots.size)
    {self : Frame} {held : Bool}
    (h : (stepWaiting env t n hold).on w = (.ok (.wait self held), w')) :
    self = .waiting n hold ∧ held = true ∧ (w'.slot n).Guards (.task t) := by
  rw [stepWaiting, on_bind, pollSlot_on hw] at h
  rcases (w.slot n).poll_cases (.task t) with ⟨s', k, hp⟩ | ⟨s', k, o, hp⟩
  · rw [hp] at h
    cases h
    rw [slot_awaken, slot_withSlot hn]
    exact ⟨rfl, rfl, (Slot.poll_pending hp).2⟩
  · rw [hp] at h
    obtain ⟨_, _, _, h⟩ := on_bind_ok h
    cases h

/-- When a slot is filled, the task that waits at it is notified, and its answer is there. -/
theorem completeSlot_notifies (hw : w.circumstances.isShutdown = false)
    (hn : n < w.slots.size) (ht : t < w.board.entries.size)
    (hg : (w.slot n).Guards (.task t)) (r : Reply) :
    ∃ w', (completeSlot env n r).on w = (.ok (), w') ∧
      w'.board.isNotified t = true ∧ w'.slot n = ⟨some r, false, none⟩ := by
  refine ⟨_, completeSlot_on hw n r, ?_⟩
  rw [hg.complete]
  refine ⟨Scheduler.Board.isNotified_wake ht, ?_⟩
  rw [slot_awaken, slot_withSlot hn]

/-- A task that is polled again after its slot was filled ends with the answer. -/
theorem stepWaiting_done (hw : w.circumstances.isShutdown = false)
    (hr : (w.slot n).result = some r) {stepped : Stepped}
    (h : (stepWaiting env t n hold).on w = (.ok stepped, w')) : stepped = .done r := by
  rw [stepWaiting, on_bind, pollSlot_on hw, Slot.poll, hr] at h
  obtain ⟨_, _, _, h⟩ := on_bind_ok h
  cases h
  rfl

end ResumeOnce.Reactor
