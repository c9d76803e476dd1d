import Mathlib.Data.Fintype.Card
import Mathlib.Logic.Function.Basic

/-!
# Rights to answer

Feeders send events one at a time, each with the right to answer it, which is known by
the feeder and the number of the event. Every right that was given out is used, or still
owed, and never both; and of each feeder at most one is owed.

* `Rights`: that all of this holds;
* `Rights.send`, `Rights.answer`: a right is given out, rights are used;
* `Rights.room`, `Rights.free`: a feeder waits for nothing if and only if less rights are
  owed than there are feeders.
-/

namespace ResumeOnce.Streams

variable {ι : Type} [DecidableEq ι] {used owed : List (ι × Nat)} {sent : ι → Nat}
  {unanswered : ι → Option (ι × Nat)}

/-- The rights that were given out are used or owed, and each feeder waits for the answer to
    the event whose right is owed. -/
structure Rights (used owed : List (ι × Nat)) (sent : ι → Nat)
    (unanswered : ι → Option (ι × Nat)) : Prop where
  nodup : (used ++ owed).Nodup
  given : ∀ r, r ∈ used ++ owed ↔ r.2 < sent r.1
  waits : ∀ i r, r ∈ owed ∧ r.1 = i ↔ unanswered i = some r

namespace Rights

omit [DecidableEq ι] in
theorem new : Rights ([] : List (ι × Nat)) [] (fun _ => 0) fun _ => none where
  nodup := List.nodup_nil
  given _ := by simp
  waits _ _ := by simp

omit [DecidableEq ι] in
/-- It does not matter where the rights are. -/
theorem perm (h : Rights used owed sent unanswered) {owed' : List (ι × Nat)}
    (hp : owed'.Perm owed) : Rights used owed' sent unanswered where
  nodup := (hp.append_left used).nodup_iff.2 h.nodup
  given r := by rw [(hp.append_left used).mem_iff, h.given]
  waits i r := by rw [hp.mem_iff, h.waits]

/-- A feeder that waits for nothing sends an event. -/
theorem send (h : Rights used owed sent unanswered) {i : ι} (hi : unanswered i = none) :
    Rights used ((i, sent i) :: owed) (Function.update sent i (sent i + 1))
      (Function.update unanswered i (some (i, sent i))) where
  nodup := by
    -- The number of the event is new.
    have hn : (i, sent i) ∉ used ++ owed := by
      rw [h.given]
      exact Nat.lt_irrefl _
    exact List.perm_middle.nodup_iff.2 (List.nodup_cons.2 ⟨hn, h.nodup⟩)
  given r := by
    obtain ⟨j, k⟩ := r
    rw [List.perm_middle.mem_iff, List.mem_cons, h.given]
    by_cases hj : j = i
    · subst hj
      simp
      omega
    · simp [hj]
  waits j r := by
    rw [List.mem_cons, or_and_right, h.waits]
    by_cases hj : j = i
    · subst hj
      rw [Function.update_self, hi, Option.some.injEq]
      constructor
      · rintro (⟨rfl, -⟩ | hr)
        · rfl
        · cases hr
      · rintro rfl
        exact .inl ⟨rfl, rfl⟩
    · rw [Function.update_of_ne hj]
      refine ⟨fun hr => hr.resolve_left ?_, .inr⟩
      rintro ⟨rfl, hr⟩
      exact hj hr.symm

/-- Some rights are used. -/
theorem answer {l : List (ι × Nat)} (h : Rights used (l ++ owed) sent unanswered) :
    Rights (used ++ l) owed sent fun i => (unanswered i).filter (· ∉ l) where
  nodup := by
    rw [List.append_assoc]
    exact h.nodup
  given r := by rw [List.append_assoc, h.given]
  waits i r := by
    -- A right is not among those that are used and those that stay, so the filter keeps it.
    have hn : (l ++ owed).Nodup := (List.nodup_append.1 h.nodup).2.1
    constructor
    · rintro ⟨hr, hi⟩
      have hu := (h.waits i r).1 ⟨List.mem_append_right _ hr, hi⟩
      have ha : r ∉ l := by
        intro ha
        exact (List.nodup_append.1 hn).2.2 r ha r hr rfl
      simp [hu, ha]
    · intro hr
      obtain ⟨hu, ha⟩ := Option.filter_eq_some_iff.1 hr
      obtain ⟨hm, hi⟩ := (h.waits i r).2 hu
      exact ⟨(List.mem_append.1 hm).resolve_left (by simpa using ha), hi⟩

omit [DecidableEq ι] in
/-- Each feeder is owed at most one answer. -/
theorem feeders_nodup (h : Rights used owed sent unanswered) : (owed.map Prod.fst).Nodup := by
  refine List.Nodup.map_on ?_ (List.nodup_append.1 h.nodup).2.1
  intro r hr q hq he
  have hu := (h.waits r.1 r).1 ⟨hr, rfl⟩
  rw [(h.waits r.1 q).1 ⟨hq, he.symm⟩] at hu
  exact (Option.some.inj hu).symm

omit [DecidableEq ι] in
/-- There is room for the event of a feeder that waits for nothing. -/
theorem room [Fintype ι] (h : Rights used owed sent unanswered) {i : ι}
    (hi : unanswered i = none) : owed.length < Fintype.card ι := by
  have hn : i ∉ owed.map Prod.fst := by
    intro hm
    obtain ⟨r, hr, he⟩ := List.mem_map.1 hm
    have hu := (h.waits i r).1 ⟨hr, he⟩
    simp [hi] at hu
  have hl := (List.nodup_cons.2 ⟨hn, h.feeders_nodup⟩).length_le_card
  rw [List.length_cons, List.length_map] at hl
  exact hl

/-- As long as less is owed than there are feeders, some feeder waits for nothing. -/
theorem free [Fintype ι] (h : Rights used owed sent unanswered)
    (hl : owed.length < Fintype.card ι) : ∃ i, unanswered i = none := by
  have hc : (owed.map Prod.fst).toFinset.card < Fintype.card ι := by
    refine Nat.lt_of_le_of_lt (List.toFinset_card_le _) ?_
    rwa [List.length_map]
  -- The feeders that are owed an answer are too few to be all of them.
  obtain ⟨i, -, hi⟩ := Finset.exists_mem_notMem_of_card_lt_card (t := Finset.univ) hc
  refine ⟨i, Option.eq_none_iff_forall_ne_some.2 fun r hr => hi ?_⟩
  obtain ⟨hm, rfl⟩ := (h.waits i r).2 hr
  exact List.mem_toFinset.2 (List.mem_map_of_mem hm)

end Rights

end ResumeOnce.Streams
