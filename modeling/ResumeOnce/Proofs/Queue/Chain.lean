import Mathlib.Data.List.Nodup
import Mathlib.Data.List.Perm.Subperm
import ResumeOnce.Queue.Linked

/-!
# Chains of nodes

The nodes of a linked queue are well linked when the links lead from the head through a chain of
nodes with values to the last one, the tail is somewhere on this way, and every node that was
taken off leads to the marker, which leads nowhere. The tail may lag as far behind as it likes.
From such nodes the passes of an operation come to an end, and leave the nodes well linked.

* `Ends`: passes come to an end, one of them being the last;
* `Path`: the nodes that are met from a link on;
* `Chained`, `WellLinked`: the nodes are well linked;
* `Chained.enqueue`: the passes that add a value help the tail over the rest of the chain;
* `Chained.dequeue`, `Chained.isEmpty`: one pass removes a value, or tells that there is none.
-/

namespace ResumeOnce.LinkedQueue

variable {α β : Type u} {q q' : LinkedQueue α} {i j : Nat} {next : Option Nat} {a : α}
  {l chain : List Nat}

/-! ## Passes -/

/-- A number of passes, of which the last leaves a queue and an answer. -/
inductive Ends (pass : LinkedQueue α → Pass α β) : Nat → LinkedQueue α → LinkedQueue α → β → Prop
  | last {q q' : LinkedQueue α} {b : β} (h : pass q = .done q' b) : Ends pass 1 q q' b
  | again {q q₁ q' : LinkedQueue α} {b : β} {n : Nat} (h : pass q = .again q₁)
      (hn : Ends pass n q₁ q' b) : Ends pass (n + 1) q q' b

/-- What passes come to does not depend on the bound, if it is large enough. -/
theorem Ends.repeatPass {pass : LinkedQueue α → Pass α β} {b : β} {n m : Nat}
    (h : Ends pass n q q' b) (hm : n ≤ m) : repeatPass pass m q = (q', some b) := by
  induction h generalizing m with
  | last h =>
    obtain ⟨m, rfl⟩ := Nat.exists_eq_add_of_le' hm
    rw [LinkedQueue.repeatPass, h]
  | again h _ ih =>
    obtain ⟨m, rfl⟩ := Nat.exists_eq_add_of_le' (Nat.le_of_add_left_le hm)
    rw [LinkedQueue.repeatPass, h]
    exact ih (by omega)

/-! ## Links and values -/

/-- The value of a node. -/
def value? (q : LinkedQueue α) (i : Nat) : Option α := q.nodes[i]?.bind Node.value

@[simp]
theorem size_setNext : (q.setNext i next).nodes.size = q.nodes.size := Array.size_modify

@[simp]
theorem size_takeValue : (q.takeValue i).2.nodes.size = q.nodes.size := Array.size_modify

@[simp]
theorem size_allocate : (q.allocate a).nodes.size = q.nodes.size + 1 := Array.size_push ..

theorem next?_setNext (hi : i < q.nodes.size) :
    (q.setNext i next).next? j = if j = i then next else q.next? j := by
  rw [next?, setNext, Array.getElem?_modify]
  by_cases h : j = i
  · subst h
    simp [hi]
  · rw [if_neg (Ne.symm h), if_neg h, next?]

@[simp]
theorem value?_setNext : (q.setNext i next).value? = q.value? := by
  funext j
  rw [value?, setNext, Array.getElem?_modify]
  split
  · rw [value?]
    cases q.nodes[j]? <;> rfl
  · rfl

@[simp]
theorem next?_takeValue : (q.takeValue i).2.next? j = q.next? j := by
  rw [next?, takeValue, Array.getElem?_modify]
  split
  · rw [next?]
    cases q.nodes[j]? <;> rfl
  · rfl

theorem value?_takeValue : (q.takeValue i).2.value? j = if j = i then none else q.value? j := by
  rw [value?, takeValue, Array.getElem?_modify]
  by_cases h : j = i
  · subst h
    rw [if_pos rfl, if_pos rfl]
    cases q.nodes[j]? <;> rfl
  · rw [if_neg (Ne.symm h), if_neg h, value?]

theorem next?_allocate : (q.allocate a).next? j = q.next? j := by
  rw [next?, allocate, Array.getElem?_push, next?]
  split
  · rename_i h
    rw [Array.getElem?_eq_none (Nat.le_of_eq h.symm)]
    rfl
  · rfl

theorem value?_allocate :
    (q.allocate a).value? j = if j = q.nodes.size then some a else q.value? j := by
  rw [value?, allocate, Array.getElem?_push]
  split <;> rfl

/-! ## Paths -/

/-- The nodes that are met from a link on, up to one that leads nowhere. -/
inductive Path (q : LinkedQueue α) : Option Nat → List Nat → Prop
  | nil : Path q none []
  | cons {i : Nat} {l : List Nat} (hi : i < q.nodes.size) (hl : Path q (q.next? i) l) :
      Path q (some i) (i :: l)

namespace Path

theorem lt_size (h : q.Path next l) : ∀ i ∈ l, i < q.nodes.size := by
  induction h with
  | nil => exact fun _ hi => absurd hi List.not_mem_nil
  | cons hi _ ih => exact List.forall_mem_cons.2 ⟨hi, ih⟩

theorem eq_nil (h : q.Path none l) : l = [] := by cases h; rfl

theorem next_eq (h : q.Path next (i :: l)) : next = some i := by cases h; rfl

theorem next_eq_none (h : q.Path next []) : next = none := by cases h; rfl

theorem eq_cons (h : q.Path (some i) l) : ∃ l', l = i :: l' ∧ i < q.nodes.size ∧
    q.Path (q.next? i) l' := by
  cases h with
  | cons hi hl => exact ⟨_, rfl, hi, hl⟩

/-- A link leads one way only. -/
theorem unique {l' : List Nat} (h : q.Path next l) (h' : q.Path next l') : l = l' := by
  induction h generalizing l' with
  | nil => exact h'.eq_nil.symm
  | cons _ _ ih =>
    obtain ⟨l₁, rfl, -, h₁⟩ := h'.eq_cons
    rw [ih h₁]

/-- What is met behind a node of a path is what its own link leads to. -/
theorem behind {l₁ l₂ : List Nat} (h : q.Path next (l₁ ++ i :: l₂)) :
    i < q.nodes.size ∧ q.Path (q.next? i) l₂ := by
  induction l₁ generalizing next with
  | nil =>
    cases h with
    | cons hi hl => exact ⟨hi, hl⟩
  | cons j l₁ ih =>
    cases h with
    | cons _ hl => exact ih hl

/-- A path that comes to an end does not come back to a node. -/
theorem nodup (h : q.Path next l) : l.Nodup := by
  induction h with
  | nil => exact List.nodup_nil
  | @cons i l hi hl ih =>
    refine List.nodup_cons.2 ⟨fun hm => ?_, ih⟩
    obtain ⟨l₁, l₂, rfl⟩ := List.append_of_mem hm
    -- Behind the second visit there is as much to come as behind the first.
    have hlen := congrArg List.length (hl.unique hl.behind.2)
    simp only [List.length_append, List.length_cons] at hlen
    omega

theorem length_le (h : q.Path next l) : l.length ≤ q.nodes.size := by
  have hs : l ⊆ List.range q.nodes.size := fun i hi => List.mem_range.2 (h.lt_size i hi)
  simpa using (List.subperm_of_subset h.nodup hs).length_le

/-- Where the links are the same, so is the path. -/
theorem congr (h : q.Path next l) (hs : q.nodes.size ≤ q'.nodes.size)
    (hn : ∀ i ∈ l, q'.next? i = q.next? i) : q'.Path next l := by
  induction h with
  | nil => exact .nil
  | cons hi _ ih =>
    rw [List.forall_mem_cons] at hn
    exact .cons (Nat.lt_of_lt_of_le hi hs) (hn.1 ▸ ih hn.2)

/-- A path goes on to a new node when the last one is linked to it. -/
theorem snoc {new : Nat} (h : q.Path next (l ++ [i])) (hs : q.nodes.size ≤ q'.nodes.size)
    (hl : ∀ j ∈ l, q'.next? j = q.next? j) (hi : q'.next? i = some new)
    (hnew : new < q'.nodes.size) (hend : q'.next? new = none) :
    q'.Path next (l ++ [i, new]) := by
  induction l generalizing next with
  | nil =>
    cases h with
    | cons hi' _ => exact .cons (Nat.lt_of_lt_of_le hi' hs) (hi ▸ .cons hnew (hend ▸ .nil))
  | cons j l ih =>
    cases h with
    | cons hj h =>
      rw [List.forall_mem_cons] at hl
      exact .cons (Nat.lt_of_lt_of_le hj hs) (hl.1 ▸ ih h hl.2)

/-- The values that are met on a path. -/
theorem valuesFrom (h : q.Path next l) {n : Nat} (hn : l.length ≤ n) :
    q.valuesFrom n next = l.filterMap q.value? := by
  induction h generalizing n with
  | nil => cases n <;> rfl
  | @cons i l hi _ ih =>
    obtain ⟨n, rfl⟩ := Nat.exists_eq_add_of_le' (Nat.le_of_add_left_le hn)
    have hnode : q.nodes[i]? = some q.nodes[i] := Array.getElem?_eq_getElem hi
    have hrest := ih (n := n) (by simpa using hn)
    rw [next?, hnode] at hrest
    rw [LinkedQueue.valuesFrom, hnode, List.filterMap_cons, value?, hnode]
    change q.nodes[i].value.toList ++ q.valuesFrom n q.nodes[i].next = _
    rw [show q.nodes[i].next = (some q.nodes[i]).bind Node.next from rfl, hrest, Option.bind_some]
    cases q.nodes[i].value <;> rfl

end Path

/-! ## Well linked nodes -/

/-- The nodes are well linked: the head leads through the chain to the last node, the tail is one
    of these, and whatever else there is was taken off and leads to the marker. The nodes of the
    chain are those with a value. -/
structure Chained (q : LinkedQueue α) (chain : List Nat) : Prop where
  path : q.Path (some q.head) (q.head :: chain)
  tail_mem : q.tail ∈ q.head :: chain
  marker_lt : q.marker < q.nodes.size
  marker_next : q.next? q.marker = none
  marker_apart : q.marker ∉ q.head :: chain
  retired : ∀ i < q.nodes.size, i ≠ q.marker → i ∉ q.head :: chain → q.next? i = some q.marker
  valued : ∀ i, (q.value? i).isSome ↔ i ∈ chain

/-- The nodes are well linked by some chain. -/
def WellLinked (q : LinkedQueue α) : Prop := ∃ chain, q.Chained chain

theorem chained_empty : (empty : LinkedQueue α).Chained [] where
  path := .cons Nat.zero_lt_two .nil
  tail_mem := List.mem_singleton_self _
  marker_lt := Nat.one_lt_two
  marker_next := rfl
  marker_apart := List.not_mem_cons_of_ne_of_not_mem Nat.one_ne_zero List.not_mem_nil
  retired i hi hm hc := by
    have hi : i < 2 := hi
    have hm : i ≠ 1 := hm
    have hc : i ≠ 0 := fun h => hc (List.mem_singleton.2 h)
    omega
  valued i := by
    match i with
    | 0 | 1 => simp [value?, empty]
    | i + 2 => simp [value?, empty]

namespace Chained

variable {n : Nat}

theorem head_lt (h : q.Chained chain) : q.head < q.nodes.size :=
  h.path.lt_size _ List.mem_cons_self

theorem ne_marker (h : q.Chained chain) (hi : i ∈ chain) : i ≠ q.marker := by
  rintro rfl
  exact h.marker_apart (List.mem_cons_of_mem _ hi)

theorem nodup (h : q.Chained chain) : (q.head :: chain).Nodup := h.path.nodup

theorem path_next (h : q.Chained chain) : q.Path (q.next? q.head) chain := by
  cases h.path with
  | cons _ hl => exact hl

theorem filterMap_value? (h : q.Chained chain) : q.contents = chain.filterMap q.value? :=
  h.path_next.valuesFrom h.path_next.length_le

/-- The nodes of the chain hold the contents, in order. -/
theorem map_value? (h : q.Chained chain) : chain.map q.value? = q.contents.map some := by
  rw [h.filterMap_value?]
  have hall : ∀ i ∈ chain, (q.value? i).isSome := fun i hi => (h.valued i).2 hi
  clear h
  induction chain with
  | nil => rfl
  | cons i chain ih =>
    rw [List.forall_mem_cons] at hall
    obtain ⟨a, ha⟩ := Option.isSome_iff_exists.1 hall.1
    rw [List.map_cons, List.filterMap_cons, ha, ih hall.2]
    rfl

theorem contents_eq (h : q.Chained chain) {values : List α}
    (hv : chain.map q.value? = values.map some) : q.contents = values :=
  List.map_injective_iff.2 (fun _ _ => Option.some.inj) (h.map_value?.symm.trans hv)

/-- The tail was not taken off. -/
theorem tail_next (h : q.Chained chain) : q.next? q.tail ≠ some q.marker := by
  obtain ⟨l₁, l₂, hl⟩ := List.append_of_mem h.tail_mem
  have hp := (hl ▸ h.path : q.Path (some q.head) (l₁ ++ q.tail :: l₂)).behind.2
  intro hm
  rw [hm] at hp
  obtain ⟨l', rfl, -, -⟩ := hp.eq_cons
  exact h.marker_apart (hl ▸ by simp)

end Chained

/-! ## Adding -/

/-- The passes that add a node help the tail to the last node, and then link the new one behind
    it. -/
theorem enqueue_ends {last new : Nat} (h : q.Path (some q.tail) (l ++ [last]))
    (hm : q.marker ∉ l ++ [last]) :
    Ends (enqueuePass · new) (l.length + 1) q
      { q.setNext last (some new) with tail := new } ⟨⟩ := by
  induction l generalizing q with
  | nil =>
    cases h with
    | cons _ hl =>
      cases hn : q.next? q.tail with
      | some j => rw [hn] at hl; cases hl
      | none => exact .last (by simp only [enqueuePass, hn])
  | cons j l ih =>
    obtain ⟨l', hl', -, hp⟩ := h.eq_cons
    obtain ⟨rfl, rfl⟩ := List.cons.inj hl'
    cases hn : q.next? q.tail with
    | none =>
      rw [hn] at hp
      exact absurd hp.eq_nil (by simp)
    | some next =>
      rw [hn] at hp
      have hne : next ≠ q.marker := by
        obtain ⟨l', hl', -, -⟩ := hp.eq_cons
        rintro rfl
        exact hm (List.mem_cons_of_mem _ (hl' ▸ List.mem_cons_self))
      have hpass : q.enqueuePass new = .again { q with tail := next } := by
        simp only [enqueuePass, hn, if_neg hne]
      exact .again hpass <| ih (hp.congr (Nat.le_refl _) fun _ _ => rfl)
        fun hmem => hm (List.mem_cons_of_mem _ hmem)

/-- The queue with a new node linked behind one that was the last. -/
def linked (q : LinkedQueue α) (a : α) (last : Nat) : LinkedQueue α :=
  { (q.allocate a).setNext last (some q.nodes.size) with tail := q.nodes.size }

section Linked

variable {last : Nat}

theorem size_linked : (q.linked a last).nodes.size = q.nodes.size + 1 := by
  rw [linked]
  exact size_setNext.trans size_allocate

theorem next?_linked (hl : last < q.nodes.size) :
    (q.linked a last).next? j = if j = last then some q.nodes.size else q.next? j := by
  have hl' : last < (q.allocate a).nodes.size := by
    rw [size_allocate]
    exact Nat.lt_succ_of_lt hl
  exact (next?_setNext hl').trans (by rw [next?_allocate])

theorem value?_linked :
    (q.linked a last).value? j = if j = q.nodes.size then some a else q.value? j :=
  (congrFun value?_setNext j).trans value?_allocate

/-- A node is linked behind the chain. -/
theorem Chained.linked (h : q.Chained chain) (hl : q.head :: chain = l ++ [last]) :
    (q.linked a last).Chained (chain ++ [q.nodes.size]) := by
  have hpath := hl ▸ h.path
  have hlast : last < q.nodes.size := hpath.behind.1
  have hnew : ∀ i ∈ q.head :: chain, i ≠ q.nodes.size :=
    fun i hi => Nat.ne_of_lt (h.path.lt_size i hi)
  have hall : (q.linked a last).head :: (chain ++ [q.nodes.size]) = l ++ [last, q.nodes.size] := by
    rw [← List.cons_append]
    exact (congrArg (· ++ [q.nodes.size]) hl).trans (by simp)
  have hmem (i : Nat) : i ∈ (q.linked a last).head :: (chain ++ [q.nodes.size]) ↔
      i ∈ q.head :: chain ∨ i = q.nodes.size := by
    rw [← List.cons_append, List.mem_append, List.mem_singleton]
    rfl
  have hend : q.next? q.nodes.size = none := by
    rw [next?, Array.getElem?_eq_none (Nat.le_refl _)]
    rfl
  constructor
  · rw [hall]
    refine hpath.snoc (by rw [size_linked]; omega) (fun j hj => ?_) ?_
      (by rw [size_linked]; omega) ?_
    · have hne : j ≠ last := by
        rintro rfl
        exact (List.nodup_append.1 (hl ▸ h.nodup)).2.2 j hj j (List.mem_singleton_self _) rfl
      rw [next?_linked hlast, if_neg hne]
    · rw [next?_linked hlast, if_pos rfl]
    · rw [next?_linked hlast, if_neg (Nat.ne_of_gt hlast), hend]
  · exact (hmem _).2 (.inr rfl)
  · rw [size_linked]
    exact Nat.lt_succ_of_lt h.marker_lt
  · have hne : q.marker ≠ last := fun hm => h.marker_apart (hl ▸ hm ▸ by simp)
    exact (next?_linked hlast).trans ((if_neg hne).trans h.marker_next)
  · intro hm
    rcases (hmem _).1 hm with hm | hm
    · exact h.marker_apart hm
    · exact Nat.ne_of_lt h.marker_lt hm
  · intro i hi hm hc
    rw [hmem, not_or] at hc
    have hne : i ≠ last := fun he => hc.1 (hl ▸ he ▸ by simp)
    rw [size_linked] at hi
    rw [next?_linked hlast, if_neg hne]
    exact h.retired i (by omega) hm hc.1
  · intro i
    rw [value?_linked, List.mem_append, List.mem_singleton]
    split
    · simp [*]
    · simp [*, h.valued]

end Linked

/-- Adding comes to an end, and puts the value behind the others. -/
theorem Chained.enqueue (h : q.Chained chain) (a : α) :
    (∃ n ≤ q.passes, Ends (enqueuePass · q.nodes.size) n (q.allocate a) (q.enqueue a) ⟨⟩) ∧
      (q.enqueue a).Chained (chain ++ [q.nodes.size]) ∧
      (q.enqueue a).contents = q.contents ++ [a] := by
  obtain ⟨l₁, l₂, hl⟩ := List.append_of_mem h.tail_mem
  obtain ⟨l, last, hlast⟩ : ∃ l last, q.tail :: l₂ = l ++ [last] :=
    ⟨_, _, (List.dropLast_append_getLast (List.cons_ne_nil q.tail l₂)).symm⟩
  have hpath : q.Path (some q.tail) (l ++ [last]) := by
    obtain ⟨ht, hp⟩ := (hl ▸ h.path).behind
    exact hlast ▸ .cons ht hp
  have hends : Ends (enqueuePass · q.nodes.size) (l.length + 1) (q.allocate a)
      (q.linked a last) ⟨⟩ := by
    refine enqueue_ends (q := q.allocate a) (hpath.congr ?_ fun _ _ => next?_allocate) ?_
    · rw [size_allocate]
      omega
    · intro hm
      exact h.marker_apart (hl ▸ List.mem_append_right _ (hlast ▸ hm))
  have hle : l.length + 1 ≤ q.passes := by
    have := hpath.length_le
    rw [List.length_append, List.length_singleton] at this
    exact Nat.le_succ_of_le this
  have heq : q.enqueue a = q.linked a last := by
    rw [LinkedQueue.enqueue, hends.repeatPass hle]
  have hsplit : q.head :: chain = l₁ ++ l ++ [last] := by rw [hl, hlast, List.append_assoc]
  have hchain : (q.linked a last).Chained (chain ++ [q.nodes.size]) := h.linked hsplit
  rw [heq]
  refine ⟨⟨_, hle, hends⟩, hchain, hchain.contents_eq ?_⟩
  rw [List.map_append, List.map_append, ← h.map_value?, List.map_singleton, List.map_singleton,
    value?_linked, if_pos rfl]
  refine congrArg (· ++ [some a]) (List.map_congr_left fun i hi => ?_)
  rw [value?_linked, if_neg (Nat.ne_of_lt (h.path.lt_size i (List.mem_cons_of_mem _ hi)))]

/-! ## Removing -/

/-- The queue whose head has moved on to the next node, with that node's value taken and the old
    head linked to the marker. -/
def advanced (q : LinkedQueue α) (i : Nat) : LinkedQueue α :=
  { ((q.setNext q.head (some q.marker)).takeValue i).2 with
    head := i
    tail := if q.head = q.tail then i else q.tail }

section Advanced

theorem size_advanced : (q.advanced i).nodes.size = q.nodes.size :=
  size_takeValue.trans size_setNext

theorem next?_advanced (hq : q.head < q.nodes.size) :
    (q.advanced i).next? j = if j = q.head then some q.marker else q.next? j :=
  next?_takeValue.trans (next?_setNext hq)

theorem value?_advanced : (q.advanced i).value? j = if j = i then none else q.value? j :=
  value?_takeValue.trans (by rw [value?_setNext])

theorem dequeuePass_of_next (hn : q.next? q.head = some i) (hm : i ≠ q.marker) :
    q.dequeuePass = .done (q.advanced i) (q.value? i) := by
  have hv : (q.setNext q.head (some q.marker)).value? i = q.value? i := by rw [value?_setNext]
  simp only [dequeuePass, hn, if_neg hm, advanced, ← hv]
  split <;> rfl

/-- The head moves on to the first node of the chain. -/
theorem Chained.advanced (h : q.Chained (i :: chain)) : (q.advanced i).Chained chain := by
  have hpath := h.path_next
  have hhead : q.head ∉ i :: chain := (List.nodup_cons.1 h.nodup).1
  constructor
  · rw [hpath.next_eq] at hpath
    refine hpath.congr (Nat.le_of_eq size_advanced.symm) fun j hj => ?_
    rw [next?_advanced h.head_lt, if_neg (ne_of_mem_of_not_mem hj hhead)]
  · change (if q.head = q.tail then i else q.tail) ∈ i :: chain
    split
    · exact List.mem_cons_self
    · rename_i hne
      exact (List.mem_cons.1 h.tail_mem).resolve_left (Ne.symm hne)
  · rw [size_advanced]
    exact h.marker_lt
  · have hne : q.marker ≠ q.head := (List.ne_and_not_mem_of_not_mem_cons h.marker_apart).1
    exact (next?_advanced h.head_lt).trans ((if_neg hne).trans h.marker_next)
  · exact fun hm => h.marker_apart (List.mem_cons_of_mem _ hm)
  · intro j hj hm hc
    rw [size_advanced] at hj
    rw [next?_advanced h.head_lt]
    split
    · rfl
    · rename_i hne
      exact h.retired j hj hm fun hm' => (List.mem_cons.1 hm').elim hne hc
  · intro j
    have hi : i ∉ chain := (List.nodup_cons.1 hpath.nodup).1
    rw [value?_advanced]
    split
    · simp [*]
    · simp [*, h.valued]

end Advanced

/-- Where the head leads. -/
theorem Chained.next_head (h : q.Chained chain) : q.next? q.head = chain.head? := by
  cases chain with
  | nil => exact h.path_next.next_eq_none
  | cons i chain => exact h.path_next.next_eq

/-- Removing takes one pass. It finds a value if there is one, and does nothing otherwise. -/
theorem Chained.dequeue (h : q.Chained chain) :
    Ends dequeuePass 1 q q.dequeue.2 q.dequeue.1 ∧ q.dequeue.2.Chained chain.tail ∧
      q.dequeue.1 = q.contents.head? ∧ q.dequeue.2.contents = q.contents.tail ∧
      (q.dequeue.1 = none → q.dequeue.2 = q) := by
  have hone : 1 ≤ q.passes := Nat.le_add_left ..
  cases chain with
  | nil =>
    have hends : Ends dequeuePass 1 q q none :=
      .last (by simp only [dequeuePass, h.next_head, List.head?_nil])
    have heq : q.dequeue = (none, q) := by rw [LinkedQueue.dequeue, hends.repeatPass hone]; rfl
    have hc : q.contents = [] := h.contents_eq rfl
    rw [heq, hc]
    exact ⟨hends, h, rfl, rfl, fun _ => rfl⟩
  | cons i chain =>
    have hne := h.ne_marker List.mem_cons_self
    have hends : Ends dequeuePass 1 q (q.advanced i) (q.value? i) :=
      .last (dequeuePass_of_next h.next_head hne)
    have heq : q.dequeue = (q.value? i, q.advanced i) := by
      rw [LinkedQueue.dequeue, hends.repeatPass hone]
      rfl
    have hmap := h.map_value?
    rw [heq]
    cases hc : q.contents with
    | nil => simp [hc] at hmap
    | cons a values =>
      rw [hc, List.map_cons, List.map_cons] at hmap
      obtain ⟨hv, hmap⟩ := List.cons.inj hmap
      refine ⟨hends, h.advanced, hv, h.advanced.contents_eq ?_, fun hn => by simp [hv] at hn⟩
      rw [List.tail_cons, ← hmap]
      refine List.map_congr_left fun j hj => ?_
      rw [value?_advanced, if_neg (ne_of_mem_of_not_mem hj (List.nodup_cons.1 h.path_next.nodup).1)]

/-- So does asking whether there is a value. -/
theorem Chained.isEmpty (h : q.Chained chain) :
    Ends isEmptyPass 1 q q ⟨q.isEmpty⟩ ∧ q.isEmpty = q.contents.isEmpty := by
  have hone : 1 ≤ q.passes := Nat.le_add_left ..
  have hends : Ends isEmptyPass 1 q q ⟨chain.isEmpty⟩ := by
    refine .last ?_
    cases chain with
    | nil => simp [isEmptyPass, h.next_head]
    | cons i chain =>
      have hne := h.ne_marker List.mem_cons_self
      simp [isEmptyPass, h.next_head, hne]
  have heq : q.isEmpty = chain.isEmpty := by
    rw [LinkedQueue.isEmpty, hends.repeatPass hone]
    rfl
  rw [heq]
  refine ⟨hends, ?_⟩
  have hlen := congrArg List.length h.map_value?
  rw [List.length_map, List.length_map] at hlen
  rw [Bool.eq_iff_iff, List.isEmpty_iff_length_eq_zero, List.isEmpty_iff_length_eq_zero, hlen]

end ResumeOnce.LinkedQueue
