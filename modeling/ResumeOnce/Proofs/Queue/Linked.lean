import ResumeOnce.Proofs.Queue.Chain

/-!
# Linked queues as lists

Whoever uses a linked queue whose nodes are well linked, wherever its tail is, finds the list of
its contents: what is put in comes out in order, also by a drain that stops early, and what is
left goes with the queue.

* `Path.unlink`, `Chained.release`: the end of a queue lets go each value once;
* `WellLinked.serves`: calls are answered, one after another, as by the list;
* `serve_conserved`: what a list is given, it hands out or keeps, in order;
* `acts_as_list`: a queue acts as the list of its contents.
-/

namespace ResumeOnce.LinkedQueue

variable {α : Type u} {q : LinkedQueue α} {i j : Nat} {next : Option Nat} {l chain : List Nat}

/-! ## The end of a queue -/

theorem value?_takeValues {nodes : List Nat} :
    (q.takeValues nodes).2.value? j = if j ∈ nodes then none else q.value? j := by
  induction nodes generalizing q with
  | nil => rw [if_neg List.not_mem_nil, takeValues]
  | cons i nodes ih =>
    change ((q.takeValue i).2.takeValues nodes).2.value? j = _
    rw [ih, value?_takeValue]
    by_cases hj : j = i <;> by_cases hm : j ∈ nodes <;> simp [hj, hm]

section Loosened

@[simp]
theorem tail_loosen : (q.loosen i).2.tail = q.tail := by
  rw [loosen]
  split <;> rfl

@[simp]
theorem size_loosen : (q.loosen i).2.nodes.size = q.nodes.size := by
  rw [loosen]
  split
  · exact size_setNext
  · exact size_takeValue.trans size_setNext

theorem next?_loosen (hi : i < q.nodes.size) (hj : j ≠ i) :
    (q.loosen i).2.next? j = q.next? j := by
  have hn : (q.setNext i none).next? j = q.next? j := by rw [next?_setNext hi, if_neg hj]
  rw [loosen]
  split
  · exact hn
  · exact next?_takeValue.trans hn

theorem value?_loosen :
    (q.loosen i).2.value? j = if j = i ∧ j ≠ q.tail then none else q.value? j := by
  rw [loosen]
  split
  · rename_i hi
    rw [if_neg (by rintro ⟨rfl, ht⟩; exact ht hi), value?_setNext]
  · rename_i hi
    refine value?_takeValue.trans ?_
    rw [value?_setNext]
    by_cases hj : j = i
    · subst hj
      rw [if_pos rfl, if_pos ⟨rfl, hi⟩]
    · rw [if_neg hj, if_neg (fun h => hj h.1)]

theorem loosen_fst : (q.loosen i).1 = if i = q.tail then [] else (q.value? i).toList := by
  rw [loosen]
  split
  · rfl
  · exact congrArg Option.toList (congrFun value?_setNext i)

end Loosened

/-- What is unlinked goes with its value, all but the tail. -/
theorem Path.unlink {n : Nat} (h : q.Path next l) (hn : l.length ≤ n) :
    (q.unlink n next).1 = (l.filter (· != q.tail)).filterMap q.value? ∧
      ∀ j, (q.unlink n next).2.value? j = if j ∈ l ∧ j ≠ q.tail then none else q.value? j := by
  induction l generalizing q next n with
  | nil =>
    rw [h.next_eq_none]
    cases n <;> exact ⟨rfl, fun j => by simp [LinkedQueue.unlink]⟩
  | cons i l ih =>
    obtain ⟨n, rfl⟩ := Nat.exists_eq_add_of_le' (Nat.le_of_add_left_le hn)
    obtain ⟨hil, -⟩ := List.nodup_cons.1 h.nodup
    cases h with
    | cons hi hl =>
      have hrest : (q.loosen i).2.Path (q.next? i) l :=
        hl.congr (Nat.le_of_eq size_loosen.symm) fun j hj =>
          next?_loosen hi (ne_of_mem_of_not_mem hj hil)
      obtain ⟨hvalues, hbare⟩ := ih (n := n) hrest (by simpa using hn)
      -- What was loosened is not met again.
      have hsame : ∀ j ∈ l, (q.loosen i).2.value? j = q.value? j := fun j hj => by
        rw [value?_loosen]
        exact if_neg fun ⟨he, _⟩ => hil (he ▸ hj)
      constructor
      · change (q.loosen i).1 ++ ((q.loosen i).2.unlink n (q.next? i)).1 = _
        rw [hvalues, tail_loosen, loosen_fst,
          List.filterMap_congr fun j hj => hsame j (List.mem_of_mem_filter hj), List.filter_cons]
        by_cases ht : i = q.tail
        · simp [ht]
        · rw [if_neg ht, if_pos (by simpa using ht), List.filterMap_cons]
          cases q.value? i <;> rfl
      · intro j
        change ((q.loosen i).2.unlink n (q.next? i)).2.value? j = _
        rw [hbare, tail_loosen, value?_loosen]
        by_cases hj : j = i
        · subst hj
          simp [hil]
        · simp [hj]

/-- A node that is not of the chain has no value. -/
theorem Chained.value?_eq_none (h : q.Chained chain) (hj : j ∉ chain) : q.value? j = none := by
  rw [← Option.not_isSome_iff_eq_none, h.valued]
  exact hj

/-- What is left of a queue behind the unlinking of the chain: the tail's value. -/
theorem Chained.unlinked (h : q.Chained chain) :
    ((q.setNext q.head none).unlink q.nodes.size (q.next? q.head)).1 =
        (chain.erase q.tail).filterMap q.value? ∧
      ((q.setNext q.head none).unlink q.nodes.size (q.next? q.head)).2.value? =
        fun j => if j = q.tail then q.value? j else none := by
  have hhead : q.head ∉ chain := (List.nodup_cons.1 h.nodup).1
  have hpath : (q.setNext q.head none).Path (q.next? q.head) chain := by
    refine h.path_next.congr (Nat.le_of_eq size_setNext.symm) fun j hj => ?_
    rw [next?_setNext h.head_lt, if_neg (ne_of_mem_of_not_mem hj hhead)]
  obtain ⟨hvalues, hbare⟩ := hpath.unlink h.path_next.length_le
  rw [value?_setNext] at hvalues hbare
  constructor
  · rw [hvalues, h.path_next.nodup.erase_eq_filter]
    rfl
  · funext j
    rw [hbare]
    by_cases hj : j ∈ chain
    · by_cases ht : j = q.tail <;> simp [hj, ht, setNext]
    · simp [hj, h.value?_eq_none hj]

/-- The end of a queue: the values go in order, but for the one that the tail holds, which goes
    last; and no value is left. -/
theorem Chained.release (h : q.Chained chain) : q.release.1.Perm q.contents ∧
    ∀ j, q.release.2.value? j = none := by
  obtain ⟨hvalues, hbare⟩ := h.unlinked
  have hhead : q.value? q.head = none := h.value?_eq_none (List.nodup_cons.1 h.nodup).1
  have hmarker : q.value? q.marker = none :=
    h.value?_eq_none fun hm => h.marker_apart (List.mem_cons_of_mem _ hm)
  rw [LinkedQueue.release]
  generalize (q.setNext q.head none).unlink q.nodes.size (q.next? q.head) = u at hvalues hbare ⊢
  have hlast : (u.2.takeValues [q.head, q.tail, q.marker]).1 = (q.value? q.tail).toList := by
    change (u.2.value? q.head).toList ++ ((value? (u.2.takeValue q.head).2 q.tail).toList ++
      ((value? ((u.2.takeValue q.head).2.takeValue q.tail).2 q.marker).toList ++ [])) = _
    simp only [value?_takeValue, hbare]
    by_cases ht : q.tail = q.head
    · simp [ht, hhead, hmarker]
    · simp [ht, hhead, hmarker]
  constructor
  · change (u.1 ++ (u.2.takeValues [q.head, q.tail, q.marker]).1).Perm _
    rw [hvalues, hlast, h.filterMap_value?]
    by_cases ht : q.tail ∈ chain
    · have hsplit := (List.perm_cons_erase ht).filterMap q.value?
      refine List.perm_append_comm.trans (List.Perm.trans ?_ hsplit.symm)
      rw [List.filterMap_cons]
      cases q.value? q.tail <;> exact .refl _
    · rw [List.erase_of_not_mem ht, h.value?_eq_none ht]
      exact .of_eq (List.append_nil _)
  · intro j
    change value? (u.2.takeValues [q.head, q.tail, q.marker]).2 j = none
    rw [value?_takeValues, hbare]
    by_cases hj : j = q.tail <;> simp [hj]

/-! ## Queues among their users -/

/-- What is asked of a queue. A drain may stop early. -/
inductive Call (α : Type u) where
  | enqueue (a : α)
  | dequeue
  | isEmpty
  | drain (limit : Option Nat)

/-- What a queue answers. -/
inductive Answer (α : Type u) where
  | nothing
  | found (a : Option α)
  | flag (b : Bool)
  | values (as : List α)

/-- The value that a call puts in. -/
def Call.given : Call α → List α
  | enqueue a => [a]
  | _ => []

/-- The values that an answer hands out. -/
def Answer.yielded : Answer α → List α
  | found a => a.toList
  | values as => as
  | _ => []

/-- What a queue answers to a call, and the queue behind it. -/
def answer (q : LinkedQueue α) : Call α → Answer α × LinkedQueue α
  | .enqueue a => (.nothing, q.enqueue a)
  | .dequeue => (.found q.dequeue.1, q.dequeue.2)
  | .isEmpty => (.flag q.isEmpty, q)
  | .drain none => (.values q.drain.1, q.drain.2)
  | .drain (some n) => (.values (q.drainUpTo n).1, (q.drainUpTo n).2)

/-- What a list of values answers to a call, and the list behind it. -/
def Call.onList (values : List α) : Call α → Answer α × List α
  | enqueue a => (.nothing, values ++ [a])
  | dequeue => (.found values.head?, values.tail)
  | isEmpty => (.flag values.isEmpty, values)
  | drain none => (.values values, [])
  | drain (some n) => (.values (values.take n), values.drop n)

/-- The answers to calls, one after another, and what is left. -/
def serve {σ : Type u} (answer : σ → Call α → Answer α × σ) :
    σ → List (Call α) → List (Answer α) × σ
  | s, [] => ([], s)
  | s, c :: cs => ((answer s c).1 :: (serve answer (answer s c).2 cs).1,
      (serve answer (answer s c).2 cs).2)

/-- A drain takes the oldest values, as many as it is allowed. -/
theorem Chained.drainUpTo (h : q.Chained chain) (n : Nat) :
    (q.drainUpTo n).1 = q.contents.take n ∧ (q.drainUpTo n).2.WellLinked ∧
      (q.drainUpTo n).2.contents = q.contents.drop n := by
  induction n generalizing q chain with
  | zero => exact ⟨rfl, ⟨chain, h⟩, rfl⟩
  | succ n ih =>
    obtain ⟨-, hchain, hvalue, hrest, hsame⟩ := h.dequeue
    rw [LinkedQueue.drainUpTo]
    generalize q.dequeue = d at hchain hvalue hrest hsame
    obtain ⟨value, q'⟩ := d
    cases value with
    | none =>
      have hnil : q.contents = [] := List.head?_eq_none_iff.1 hvalue.symm
      obtain rfl : q' = q := hsame rfl
      exact ⟨by rw [hnil]; rfl, ⟨chain, h⟩, by rw [hnil]; rfl⟩
    | some a =>
      obtain ⟨hvalues, hlinked, hleft⟩ := ih hchain
      have hcons : q.contents = a :: q'.contents := by
        have hrest : q'.contents = q.contents.tail := hrest
        rw [hrest]
        exact (List.cons_head?_tail hvalue.symm).symm
      rw [hcons]
      exact ⟨congrArg (a :: ·) hvalues, hlinked, hleft⟩

/-- A queue answers a call as its contents do. -/
theorem WellLinked.answers (h : q.WellLinked) (c : Call α) :
    (q.answer c).1 = (c.onList q.contents).1 ∧ (q.answer c).2.WellLinked ∧
      (q.answer c).2.contents = (c.onList q.contents).2 := by
  obtain ⟨chain, h⟩ := h
  match c with
  | .enqueue a =>
    obtain ⟨-, hchain, hvalues⟩ := h.enqueue a
    exact ⟨rfl, ⟨_, hchain⟩, hvalues⟩
  | .dequeue =>
    obtain ⟨-, hchain, hvalue, hvalues, -⟩ := h.dequeue
    exact ⟨congrArg Answer.found hvalue, ⟨_, hchain⟩, hvalues⟩
  | .isEmpty => exact ⟨congrArg Answer.flag h.isEmpty.2, ⟨chain, h⟩, rfl⟩
  | .drain (some n) =>
    obtain ⟨hvalues, hlinked, hleft⟩ := h.drainUpTo n
    exact ⟨congrArg Answer.values hvalues, hlinked, hleft⟩
  | .drain none =>
    -- There are no more values than nodes.
    have hle : q.contents.length ≤ q.nodes.size := by
      have hlen := congrArg List.length h.map_value?
      rw [List.length_map, List.length_map] at hlen
      exact hlen ▸ h.path_next.length_le
    obtain ⟨hvalues, hlinked, hleft⟩ := h.drainUpTo q.nodes.size
    rw [List.take_of_length_le hle] at hvalues
    rw [List.drop_of_length_le hle] at hleft
    exact ⟨congrArg Answer.values hvalues, hlinked, hleft⟩

/-- So does it answer calls one after another. -/
theorem WellLinked.serves (h : q.WellLinked) (cs : List (Call α)) :
    (serve answer q cs).1 = (serve Call.onList q.contents cs).1 ∧
      (serve answer q cs).2.WellLinked ∧
      (serve answer q cs).2.contents = (serve Call.onList q.contents cs).2 := by
  induction cs generalizing q with
  | nil => exact ⟨rfl, h, rfl⟩
  | cons c cs ih =>
    obtain ⟨hanswer, hlinked, hcontents⟩ := h.answers c
    obtain ⟨hanswers, hlast, hleft⟩ := ih hlinked
    rw [hcontents] at hanswers hleft
    exact ⟨congrArg₂ List.cons hanswer hanswers, hlast, hleft⟩

/-- What a list hands out and what is left of it is what was there and what was put in. -/
theorem Call.conserved (values : List α) (c : Call α) :
    (c.onList values).1.yielded ++ (c.onList values).2 = values ++ c.given := by
  match c with
  | enqueue a => rfl
  | dequeue => cases values <;> simp [onList, Answer.yielded, given]
  | isEmpty => exact (List.append_nil _).symm
  | drain none => rfl
  | drain (some n) => exact (List.take_append_drop n values).trans (List.append_nil _).symm

theorem serve_conserved (values : List α) (cs : List (Call α)) :
    (serve Call.onList values cs).1.flatMap Answer.yielded ++ (serve Call.onList values cs).2 =
      values ++ cs.flatMap Call.given := by
  induction cs generalizing values with
  | nil => exact (List.append_nil _).symm
  | cons c cs ih =>
    rw [serve, List.flatMap_cons, List.flatMap_cons, List.append_assoc, ih, ← List.append_assoc,
      Call.conserved, List.append_assoc]

/-- A queue is to its users what the list of its contents is. -/
structure ActsAsList (q : LinkedQueue α) : Prop where
  /-- Adding comes to an end, and puts the value behind the others. -/
  enqueue : ∀ a, (∃ n, Ends (enqueuePass · q.nodes.size) n (q.allocate a) (q.enqueue a) ⟨⟩) ∧
    (q.enqueue a).WellLinked ∧ (q.enqueue a).contents = q.contents ++ [a]
  /-- Removing comes to an end, and takes the first value; without a value, nothing changes. -/
  dequeue : (∃ n, Ends dequeuePass n q q.dequeue.2 q.dequeue.1) ∧ q.dequeue.2.WellLinked ∧
    q.dequeue.1 = q.contents.head? ∧ q.dequeue.2.contents = q.contents.tail ∧
    (q.dequeue.1 = none → q.dequeue.2 = q)
  /-- So does the question whether there is a value. -/
  isEmpty : (∃ n, Ends isEmptyPass n q q ⟨q.isEmpty⟩) ∧ q.isEmpty = q.contents.isEmpty
  /-- The tail was not taken off. -/
  tail : q.next? q.tail ≠ some q.marker
  /-- Calls are answered one after another as by the list. -/
  calls : ∀ cs, (serve answer q cs).1 = (serve Call.onList q.contents cs).1 ∧
    (serve answer q cs).2.WellLinked ∧
    (serve answer q cs).2.contents = (serve Call.onList q.contents cs).2
  /-- What was there and what was put in comes out in order, up to a rest that goes with the
      queue, each value once. -/
  conserves : ∀ cs, ∃ rest, (serve answer q cs).1.flatMap Answer.yielded ++ rest =
      q.contents ++ cs.flatMap Call.given ∧ (serve answer q cs).2.release.1.Perm rest ∧
    ∀ i, (serve answer q cs).2.release.2.value? i = none

/-- Whoever finds the nodes well linked, with the tail as far behind as may be, finds a list: the
    empty one in a new queue. -/
theorem acts_as_list :
    ((empty : LinkedQueue α).WellLinked ∧ (empty : LinkedQueue α).contents = []) ∧
    ∀ q : LinkedQueue α, q.WellLinked → q.ActsAsList := by
  refine ⟨⟨⟨[], chained_empty⟩, rfl⟩, fun q h => ?_⟩
  obtain ⟨chain, hchain⟩ := id h
  obtain ⟨hends, htaken, hdequeue⟩ := hchain.dequeue
  constructor
  · intro a
    obtain ⟨⟨n, -, hn⟩, hlinked, hvalues⟩ := hchain.enqueue a
    exact ⟨⟨n, hn⟩, ⟨_, hlinked⟩, hvalues⟩
  · exact ⟨⟨1, hends⟩, ⟨_, htaken⟩, hdequeue⟩
  · exact ⟨⟨1, hchain.isEmpty.1⟩, hchain.isEmpty.2⟩
  · exact hchain.tail_next
  · exact h.serves
  · intro cs
    obtain ⟨hanswers, ⟨last, hlast⟩, hleft⟩ := h.serves cs
    obtain ⟨hperm, hgone⟩ := hlast.release
    refine ⟨_, ?_, hperm, hgone⟩
    rw [hanswers, hleft, serve_conserved]

/-- A queue from which two values were taken, with two values left, and a tail that two others
    have still to help forward. -/
def lagging : LinkedQueue String :=
  { nodes := #[⟨none, some 1⟩, ⟨none, none⟩, ⟨none, some 1⟩, ⟨none, some 4⟩, ⟨some "a", some 5⟩,
      ⟨some "b", none⟩]
    head := 3
    tail := 3
    marker := 1 }

theorem wellLinked_lagging : lagging.WellLinked := by
  refine ⟨[4, 5], .cons (by decide) (.cons (by decide) (.cons (by decide) .nil)), by decide,
    by decide, rfl, by decide, by decide, fun i => ?_⟩
  match i with
  | 0 | 1 | 2 | 3 | 4 | 5 => simp [lagging, value?]
  | i + 6 => simp [lagging, value?]

/-- A queue whose tail lags behind answers as the list of its two values. -/
theorem acts_as_list_lagging : lagging.WellLinked ∧ lagging.ActsAsList ∧
    (serve answer lagging [.enqueue "c", .dequeue, .drain (some 1), .isEmpty]).1 =
      [.nothing, .found (some "a"), .values ["b"], .flag false] :=
  have h := acts_as_list.2 lagging wellLinked_lagging
  ⟨wellLinked_lagging, h, (h.calls _).1.trans rfl⟩

end ResumeOnce.LinkedQueue
