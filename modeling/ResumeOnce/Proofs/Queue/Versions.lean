import Mathlib.Data.List.Forall2
import ResumeOnce.Proofs.Queue.Persistent

/-!
# Versions of a persistent queue

Versions are made one after another: anew, out of a list, or from any version made before, which
stays what it is. The operations that make them are those of a queue, and a plain list has them as
well; so every version has a list beside it, to which the same was done along the same branch.

* `Fifo`, `Fifo.versions`: the operations of a queue, and the versions that they make;
* `Shows`: a queue lets nobody see anything but a list;
* `Balanced.shows`: a balanced queue shows its contents, also to a walk, which stays at its end;
* `versions_show`: every version shows the list beside it.
-/

namespace ResumeOnce

/-! ## Versions -/

/-- How a version is made. Versions made before have numbers, from zero on. -/
inductive Making (α : Type u) where
  | new
  | ofList (values : List α)
  | clone (version : Nat)
  | enqueue (version : Nat) (a : α)
  | dequeue (version : Nat)

/-- The operations of a first-in first-out queue. -/
structure Fifo (α : Type u) (σ : Type v) where
  empty : σ
  ofList : List α → σ
  enqueue : σ → α → σ
  dequeue? : σ → Option (α × σ)

namespace Fifo

variable {α : Type u} {σ : Type v} (f : Fifo α σ)

/-- The version that is made; none from a version that is not there or has nothing to remove. -/
def make? (versions : List σ) : Making α → Option σ
  | .new => some f.empty
  | .ofList values => some (f.ofList values)
  | .clone v => versions[v]?
  | .enqueue v a => versions[v]?.bind fun q => some (f.enqueue q a)
  | .dequeue v => versions[v]?.bind fun q => (f.dequeue? q).map Prod.snd

/-- The versions that are made, one after another. -/
def versions (ms : List (Making α)) : List σ :=
  ms.foldl (fun versions m => versions ++ (f.make? versions m).toList) []

/-- A persistent queue. -/
def persistent : Fifo α (PersistentQueue α) := ⟨.empty, .ofList, .enqueue, PersistentQueue.dequeue?⟩

/-- A plain list, whose first value is the oldest. -/
def plain : Fifo α (List α) := ⟨[], id, fun l a => l ++ [a], fun l => l.head?.map (·, l.tail)⟩

end Fifo

namespace PersistentQueue

variable {α : Type u} {q q' : PersistentQueue α} {l : List α} {a : α}

/-! ## Walks -/

namespace Walk

/-- The values that a walk has still to meet. -/
def left (w : Walk α) : List α := w.front ++ w.rear

/-- A walk, a number of steps later. -/
def after (w : Walk α) : Nat → Walk α
  | 0 => w
  | n + 1 => w.next.2.after n

theorem next_eq (w : Walk α) : w.next.1 = w.left.head? ∧ w.next.2.left = w.left.tail := by
  obtain ⟨_ | ⟨a, front⟩, _ | ⟨b, rear⟩⟩ := w <;> exact ⟨rfl, rfl⟩

/-- A walk meets the values in order, and then nothing any more. -/
theorem next_after (w : Walk α) (n : Nat) : (w.after n).next.1 = w.left[n]? := by
  induction n generalizing w with
  | zero => rw [after, w.next_eq.1, List.head?_eq_getElem?]
  | succ n ih => rw [after, ih, w.next_eq.2, List.getElem?_tail]

end Walk

/-! ## What a queue shows -/

/-- A queue shows a list: whatever is asked of it, the answer is that of the list. -/
structure Shows (q : PersistentQueue α) (l : List α) : Prop where
  balanced : q.Balanced
  contents : q.toList = l
  size : q.size = l.length
  isEmpty : q.isEmpty = l.isEmpty
  peek : q.peek? = l.head?
  walk : ∀ n, (q.walk.after n).next.1 = l[n]?
  dequeue : q.dequeue?.map (fun (a, q') => (a, q'.toList)) = l.head?.map (·, l.tail)
  dequeue_none : q.dequeue? = none ↔ l = []

theorem Balanced.shows (h : q.Balanced) : q.Shows q.toList where
  balanced := h
  contents := rfl
  size := h.size_eq
  isEmpty := by
    rw [isEmpty, h.size_eq]
    cases q.toList <;> rfl
  peek := by
    rcases h.dequeue?_cases with ⟨hnil, hnone⟩ | ⟨a, q', hsome, hcons, -⟩
    · rw [hnil]
      exact Option.map_eq_none_iff.1 hnone
    · obtain ⟨b, hb, hq⟩ := Option.map_eq_some_iff.1 hsome
      rw [hcons, peek?, hb, (Prod.mk.inj hq).1]
      rfl
  walk := q.walk.next_after
  dequeue := by
    rcases h.dequeue?_cases with ⟨hnil, hnone⟩ | ⟨a, q', hsome, hcons, -⟩
    · rw [hnil, hnone]
      rfl
    · rw [hcons, hsome]
      rfl
  dequeue_none := by
    rcases h.dequeue?_cases with ⟨hnil, hnone⟩ | ⟨a, q', hsome, hcons, -⟩
    · exact iff_of_true hnone hnil
    · exact iff_of_false (by simp [hsome]) (by simp [hcons])

/-- A balanced queue shows what it contains. -/
theorem Balanced.shows_of_eq (h : q.Balanced) (hl : q.toList = l) : q.Shows l := hl ▸ h.shows

theorem Shows.enqueueAll (h : q.Shows l) (values : List α) :
    (q.enqueueAll values).Shows (l ++ values) := by
  induction values generalizing q l with
  | nil => rwa [List.append_nil]
  | cons a values ih =>
    have ha : (q.enqueue a).Shows (l ++ [a]) :=
      (h.balanced.enqueue a).shows_of_eq (by rw [toList_enqueue, h.contents])
    rw [List.append_cons]
    exact ih ha

/-- What is removed from a queue is the first of its list, and the rest shows the rest. -/
theorem Shows.dequeue?_rel (h : q.Shows l) :
    Option.Rel Shows (q.dequeue?.map Prod.snd) ((Fifo.plain.dequeue? l).map Prod.snd) := by
  have hl := h.contents
  rcases h.balanced.dequeue?_cases with ⟨hnil, hnone⟩ | ⟨a, q', hsome, hcons, hq'⟩
  · obtain rfl : l = [] := hl.symm.trans hnil
    rw [hnone]
    exact .none
  · obtain rfl : l = a :: q'.toList := hl.symm.trans hcons
    rw [hsome]
    exact .some hq'.shows

/-! ## Every version -/

section Related

variable {β : Type v} {γ : Type w} {δ : Type x} {r : α → β → Prop}

theorem getElem?_rel {as : List α} {bs : List β} (h : List.Forall₂ r as bs) (n : Nat) :
    Option.Rel r as[n]? bs[n]? := by
  induction h generalizing n with
  | nil => exact .none
  | cons hab _ ih =>
    cases n with
    | zero => exact .some hab
    | succ n => exact ih n

theorem bind_rel {s : γ → δ → Prop} {a : Option α} {b : Option β} (h : Option.Rel r a b)
    {f : α → Option γ} {g : β → Option δ} (hfg : ∀ {x y}, r x y → Option.Rel s (f x) (g y)) :
    Option.Rel s (a.bind f) (b.bind g) := by
  cases h with
  | none => exact .none
  | some hab => exact hfg hab

theorem toList_rel {a : Option α} {b : Option β} (h : Option.Rel r a b) :
    List.Forall₂ r a.toList b.toList := by
  cases h with
  | none => exact .nil
  | some hab => exact .cons hab .nil

end Related

/-- Where versions show lists, so does the one that is made next. -/
theorem make_rel {versions : List (PersistentQueue α)} {lists : List (List α)}
    (h : List.Forall₂ Shows versions lists) (m : Making α) :
    Option.Rel Shows (Fifo.persistent.make? versions m) (Fifo.plain.make? lists m) := by
  have hempty : (empty : PersistentQueue α).Shows [] := balanced_empty.shows
  cases m with
  | new => exact .some hempty
  | ofList values => exact .some (hempty.enqueueAll values)
  | clone v => exact getElem?_rel h v
  | enqueue v a => exact bind_rel (getElem?_rel h v) fun hv => .some (hv.enqueueAll [a])
  | dequeue v => exact bind_rel (getElem?_rel h v) Shows.dequeue?_rel

/-- Every version, whatever it was made from and whatever was made from it since, shows the list
    to which the same was done. -/
theorem versions_show (ms : List (Making α)) :
    List.Forall₂ Shows (Fifo.persistent.versions ms) (Fifo.plain.versions ms) := by
  -- The versions that are there already come along, and stay what they are.
  suffices h : ∀ {versions : List (PersistentQueue α)} {lists : List (List α)},
      List.Forall₂ Shows versions lists →
        List.Forall₂ Shows
          (ms.foldl (fun vs m => vs ++ (Fifo.persistent.make? vs m).toList) versions)
          (ms.foldl (fun vs m => vs ++ (Fifo.plain.make? vs m).toList) lists) from h .nil
  induction ms with
  | nil => exact id
  | cons m ms ih =>
    intro versions lists h
    exact ih (List.rel_append h (toList_rel (make_rel h m)))

end PersistentQueue

end ResumeOnce
