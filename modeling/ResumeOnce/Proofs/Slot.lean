import Mathlib.Logic.Function.Basic
import ResumeOnce.Slot

/-!
# Who waits at a slot

A party that finds nothing in a slot leaves its waker there; whoever fills the slot takes
the waker out. So a party that sleeps at a slot is woken when its answer comes.

* `Slot.Guards`: a party sleeps at a slot;
* `Slot.poll_pending`, `Slot.poll_ready`: what a poll comes to;
* `Slot.Guards.complete`: whoever sleeps at a slot is woken when it is filled.
-/

namespace ResumeOnce.Slot

variable {ω : Type u} {α : Type v} {s s' : Slot ω α} {a : ω} {w : Option ω} {o : Outcome α}

/-- Nothing is in the slot, and its waker is there: whoever left it sleeps at the slot. -/
structure Guards (s : Slot ω α) (a : ω) : Prop where
  result : s.result = none
  taken : s.taken = false
  waker : s.waker = some a

/-- Whoever finds nothing leaves its waker. -/
theorem poll_pending (h : s.poll a = (s', w, .pending)) : s.result = none ∧ s'.Guards a := by
  rw [poll] at h
  split at h
  · cases h
  · rename_i hr
    split at h
    · cases h
    · rename_i ht
      cases h
      exact ⟨hr, hr, by simpa using ht, rfl⟩

/-- Whoever finds the answer takes it. -/
theorem poll_ready (h : s.poll a = (s', w, .ready o)) (ht : s.taken = false) :
    s.result = some o ∧ s' = ⟨none, true, none⟩ := by
  rw [poll] at h
  split at h
  · rename_i hr
    cases h
    exact ⟨hr, rfl⟩
  · rw [if_neg (by simp [ht])] at h
    cases h

/-- A poll finds the answer or leaves a waker. -/
theorem poll_cases (s : Slot ω α) (a : ω) :
    (∃ s' w, s.poll a = (s', w, .pending)) ∨ ∃ s' w o, s.poll a = (s', w, .ready o) := by
  rcases s.poll a with ⟨s', w, _ | o⟩
  · exact .inl ⟨s', w, rfl⟩
  · exact .inr ⟨s', w, o, rfl⟩

/-- A poll does not fill a slot, nor does it make forget that it was filled. -/
theorem isComplete_poll {p : Poll (Outcome α)} (h : s.poll a = (s', w, p)) :
    s'.isComplete = s.isComplete := by
  rw [poll] at h
  split at h
  · rename_i hr
    cases h
    rw [isComplete, isComplete, hr]
    rfl
  · split at h
    · cases h
      rfl
    · cases h
      rfl

/-- Whoever finds an answer finds the slot filled. -/
theorem isComplete_ready (h : s.poll a = (s', w, .ready o)) : s.isComplete = true := by
  rw [poll] at h
  split at h
  · rename_i hr
    rw [isComplete, hr]
    rfl
  · split at h
    · rename_i ht
      rw [isComplete, ht, Bool.or_true]
    · cases h

theorem isComplete_complete (s : Slot ω α) (o : Outcome α) :
    (s.complete o).1.isComplete = true := by
  rw [complete, takeWaker, isComplete]
  rcases s.result with _ | o' <;> rfl

/-- Whichever slot of some is changed so that it stays filled, those that are filled stay so. -/
theorem isComplete_update {ι : Type w} [DecidableEq ι] {slots : ι → Slot ω α} {i : ι}
    {slot : Slot ω α} (h : (slots i).isComplete = true → slot.isComplete = true) {j : ι}
    (hj : (slots j).isComplete = true) : (Function.update slots i slot j).isComplete = true := by
  by_cases hi : j = i
  · subst hi
    rw [Function.update_self]
    exact h hj
  · rwa [Function.update_of_ne hi]

theorem Guards.isComplete (h : s.Guards a) : s.isComplete = false := by
  rw [Slot.isComplete, h.result, h.taken]
  rfl

/-- Whoever sleeps at a slot is woken when the answer comes. -/
theorem Guards.complete (h : s.Guards a) (o : Outcome α) :
    s.complete o = (⟨some o, false, none⟩, some a) := by
  rw [Slot.complete, takeWaker, h.result, h.taken, h.waker]
  rfl

end ResumeOnce.Slot
