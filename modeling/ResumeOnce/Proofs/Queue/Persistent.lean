import ResumeOnce.Queue.Persistent

/-!
# Persistent queues as lists

A persistent queue is *balanced* when the sizes that it keeps are those of its two
lists and the rear is no longer than the front. The empty queue is balanced, and
every operation keeps the balance and acts on the contents as a list operation:

* adding puts a value behind the others (`toList_enqueue`);
* removing takes the first value, and fails only on the empty queue
  (`Balanced.dequeue?_cases`): a front without values has no values behind it;
* a walk meets the values in order (`Balanced.walked_fst`).
-/

namespace ResumeOnce

namespace SizedList

/-- The size beside the list is the size of the list. -/
def Sized (l : SizedList α) : Prop := l.size = l.items.length

theorem sized_empty : (empty : SizedList α).Sized := rfl

theorem Sized.push {l : SizedList α} (h : l.Sized) (a : α) : (l.push a).Sized :=
  congrArg (· + 1) h

theorem Sized.rest {l : SizedList α} (h : l.Sized) : l.rest.Sized := by
  obtain ⟨_ | ⟨a, items⟩, size⟩ := l
  · exact sized_empty
  · simp only [Sized, List.length_cons] at h
    simp [SizedList.rest, Sized, h]

theorem rest_items (l : SizedList α) : l.rest.items = l.items.tail := by
  obtain ⟨_ | ⟨a, items⟩, size⟩ := l <;> rfl

theorem pushAll_items (l : SizedList α) (values : List α) :
    (l.pushAll values).items = values.reverse ++ l.items := by
  induction values generalizing l with
  | nil => rfl
  | cons a values ih => simpa [pushAll, push] using ih (l.push a)

theorem Sized.pushAll {l : SizedList α} (h : l.Sized) (values : List α) :
    (l.pushAll values).Sized := by
  induction values generalizing l with
  | nil => exact h
  | cons a values ih => exact ih (h.push a)

end SizedList

namespace PersistentQueue

/-- The sizes are those of the lists, and the rear is no longer than the front. -/
structure Balanced (q : PersistentQueue α) : Prop where
  front_sized : q.front.Sized
  rear_sized : q.rear.Sized
  rear_le : q.rear.size ≤ q.front.size

theorem balanced_empty : (empty : PersistentQueue α).Balanced :=
  ⟨SizedList.sized_empty, SizedList.sized_empty, Nat.le_refl _⟩

@[simp]
theorem toList_empty : (empty : PersistentQueue α).toList = [] := rfl

/-- Moving the rear behind the front keeps the contents. -/
theorem toList_balanced (front rear : SizedList α) :
    (balanced front rear).toList = front.items ++ rear.items.reverse := by
  unfold balanced
  split
  · rfl
  · simp [toList, SizedList.pushAll_items, SizedList.empty]

theorem balanced_balanced {front rear : SizedList α} (hf : front.Sized) (hr : rear.Sized) :
    (balanced front rear).Balanced := by
  unfold balanced
  split
  · exact ⟨hf, hr, ‹_›⟩
  · exact ⟨(SizedList.sized_empty.pushAll _).pushAll _, SizedList.sized_empty, Nat.zero_le _⟩

@[simp]
theorem toList_enqueue (q : PersistentQueue α) (a : α) :
    (q.enqueue a).toList = q.toList ++ [a] := by
  rw [enqueue, toList_balanced]
  simp [toList, SizedList.push]

theorem Balanced.enqueue {q : PersistentQueue α} (h : q.Balanced) (a : α) :
    (q.enqueue a).Balanced :=
  balanced_balanced h.front_sized (h.rear_sized.push a)

/-- A balanced queue without a front has no rear either. -/
theorem Balanced.toList_eq_nil {q : PersistentQueue α} (h : q.Balanced)
    (hf : q.front.items = []) : q.toList = [] := by
  have hle := h.rear_le
  rw [h.front_sized, h.rear_sized, hf, List.length_nil, Nat.le_zero, List.length_eq_zero_iff] at hle
  simp [toList, hf, hle]

/-- Removal fails on the empty queue and takes the first value of any other. -/
theorem Balanced.dequeue?_cases {q : PersistentQueue α} (h : q.Balanced) :
    (q.toList = [] ∧ q.dequeue? = none) ∨
      ∃ a q', q.dequeue? = some (a, q') ∧ q.toList = a :: q'.toList ∧ q'.Balanced := by
  rcases hf : q.front.items with _ | ⟨a, items⟩
  · exact .inl ⟨h.toList_eq_nil hf, by simp [dequeue?, hf]⟩
  · refine .inr ⟨a, balanced q.front.rest q.rear, by simp [dequeue?, hf], ?_,
      balanced_balanced h.front_sized.rest h.rear_sized⟩
    rw [toList_balanced, SizedList.rest_items, toList, hf]
    rfl

theorem Balanced.size_eq {q : PersistentQueue α} (h : q.Balanced) : q.size = q.toList.length := by
  rw [size, h.front_sized, h.rear_sized, toList, List.length_append, List.length_reverse]

/-- The values left on a walk are all met if the walk is long enough. -/
theorem Walk.finish_fst (w : Walk α) {n : Nat} (hn : w.front.length + w.rear.length ≤ n) :
    (w.finish n).1 = w.front ++ w.rear := by
  induction n generalizing w with
  | zero =>
    have hf : w.front = [] := List.length_eq_zero_iff.1 (by omega)
    have hr : w.rear = [] := List.length_eq_zero_iff.1 (by omega)
    rw [hf, hr]
    rfl
  | succ n ih =>
    obtain ⟨_ | ⟨a, front⟩, rear⟩ := w
    · rcases rear with _ | ⟨a, rear⟩
      · rfl
      · have := ih ⟨[], rear⟩ (by simp at hn ⊢; omega)
        simpa [finish, next] using this
    · have := ih ⟨front, rear⟩ (by simp at hn ⊢; omega)
      simpa [finish, next] using this

/-- A walk over a balanced queue meets its contents in order. -/
theorem Balanced.walked_fst {q : PersistentQueue α} (h : q.Balanced) : q.walked.1 = q.toList := by
  refine (Walk.finish_fst q.walk ?_).trans rfl
  rw [size, h.front_sized, h.rear_sized, walk, List.length_reverse]
  exact Nat.le_succ _

end PersistentQueue

end ResumeOnce
