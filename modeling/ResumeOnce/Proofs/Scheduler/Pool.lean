import Mathlib.Data.List.Count
import ResumeOnce.Scheduler.Pool

/-!
# Where the jobs of a pool are

A job that is added to a pool is in one of its queues until a worker takes it. A worker takes
a job from its own deque, from the common queue, or out of what it steals from a sibling; the
rest of what it steals only moves from deque to deque.

* `Pool.Gives`: what a worker can take out of a pool, and what it leaves;
* `Pool.Gives.count`: taking a job takes one job, and leaves all others;
* `Pool.gives_of_take?`: what a worker that looks for a job takes is one of these;
* `Pool.count_add`: adding a job adds one job.
-/

namespace ResumeOnce.Scheduler

variable {α β : Type*}

/-- When one of some things is replaced, what it had is gone, and what the other has is there. -/
theorem count_flatMap_set [DecidableEq β] (f : α → List β) {l : List α} {i : Nat}
    (hi : i < l.length) (a : α)
    (b : β) :
    ((l.set i a).flatMap f).count b + (f l[i]).count b = (l.flatMap f).count b + (f a).count b := by
  have hl : l = l.take i ++ l[i] :: l.drop (i + 1) := by
    rw [← List.drop_eq_getElem_cons hi, List.take_append_drop]
  conv_rhs => rw [hl]
  rw [List.set_eq_take_cons_drop a hi]
  simp only [List.flatMap_append, List.flatMap_cons, List.count_append]
  omega

namespace Deque

variable {d victim thief thief' rest : Deque β} {job : β}

theorem count_push [DecidableEq β] (d : Deque β) (job b : β) :
    (d.push job).jobs.count b = d.jobs.count b + [job].count b := List.count_append

/-- The newest job is the last one. -/
theorem pop?_eq_some (h : d.pop? = some (job, rest)) : d.jobs = rest.jobs ++ [job] := by
  obtain ⟨j, hj, he⟩ := Option.map_eq_some_iff.1 h
  cases he
  obtain ⟨l, hl⟩ := List.getLast?_eq_some_iff.1 hj
  rw [hl, List.dropLast_concat]

/-- Half of the victim's jobs go to the thief, the oldest into its hands. -/
theorem stealHalf_eq_some (h : victim.stealHalf thief = some (job, thief', rest)) :
    ∃ others, victim.jobs = job :: others ++ rest.jobs ∧ thief'.jobs = thief.jobs ++ others := by
  unfold stealHalf at h
  split at h
  · cases h
  · rename_i first others ht
    cases h
    exact ⟨others, by rw [← ht, List.take_append_drop], rfl⟩

end Deque

namespace Pool

variable {p p' : Pool β} {w v : Nat} {job b : β}

/-- The pool with another deque for a worker. -/
def setDeque (p : Pool β) (w : Nat) (d : Deque β) : Pool β := { p with deques := p.deques.set w d }

/-- What a worker can take out of a pool: the newest job of its own deque, the oldest of the
    common queue, or the oldest of a sibling, of whose older half the others come along. -/
inductive Gives (p : Pool β) (w : Nat) (job : β) : Pool β → Prop
  | own {rest : Deque β} (h : (p.deque w).pop? = some (job, rest)) :
      Gives p w job (p.setDeque w rest)
  | common {rest : List β} (h : p.common = job :: rest) :
      Gives p w job { p with common := rest }
  | stolen {thief rest : Deque β} {v : Nat} (randomness : List Randomness)
      (hv : v < p.deques.length) (hne : v ≠ w)
      (h : (p.deque v).stealHalf (p.deque w) = some (job, thief, rest)) :
      Gives p w job { (p.setDeque v rest).setDeque w thief with randomness }

theorem deque_eq (hw : w < p.deques.length) : p.deque w = p.deques[w] := by
  rw [deque, List.getD_eq_getElem?_getD, List.getElem?_eq_getElem hw, Option.getD_some]

@[simp]
theorem length_setDeque (p : Pool β) (w : Nat) (d : Deque β) :
    (p.setDeque w d).deques.length = p.deques.length := List.length_set

theorem deque_setDeque_of_ne (h : v ≠ w) (d : Deque β) : (p.setDeque v d).deque w = p.deque w := by
  rw [deque, deque, setDeque, List.getD_eq_getElem?_getD, List.getElem?_set_ne h,
    ← List.getD_eq_getElem?_getD]

theorem Gives.length (h : p.Gives w job p') : p'.deques.length = p.deques.length := by
  cases h with
  | own h => exact length_setDeque ..
  | common h => rfl
  | stolen randomness hv hne h => exact (length_setDeque ..).trans (length_setDeque ..)

@[simp]
theorem length_add (p : Pool β) (origin : Option Nat) (job : β) :
    (p.add origin job).deques.length = p.deques.length := by
  cases origin with
  | none => rfl
  | some w => exact List.length_set

/-! ## Counting jobs -/

section Counting

variable [DecidableEq β]

theorem count_jobs (p : Pool β) (b : β) :
    p.jobs.count b = (p.deques.flatMap Deque.jobs).count b + p.common.count b := List.count_append

/-- With another deque for a worker, the jobs of the old one are gone and those of the new one
    are there. -/
theorem count_setDeque (hw : w < p.deques.length) (d : Deque β) (b : β) :
    (p.setDeque w d).jobs.count b + (p.deque w).jobs.count b = p.jobs.count b + d.jobs.count b := by
  have h := count_flatMap_set Deque.jobs hw d b
  rw [deque_eq hw, count_jobs, count_jobs, setDeque]
  simp only
  omega

/-- A worker that takes a job takes it once, and nothing else. -/
theorem Gives.count (h : p.Gives w job p') (hw : w < p.deques.length) (b : β) :
    p'.jobs.count b + [job].count b = p.jobs.count b := by
  cases h with
  | own h =>
    have hc := count_setDeque hw ‹_› b
    rw [Deque.pop?_eq_some h, List.count_append] at hc
    omega
  | @common rest h =>
    have hc : p.common.count b = [job].count b + rest.count b := by
      rw [h, ← List.singleton_append, List.count_append]
    rw [count_jobs, count_jobs, hc]
    dsimp only
    omega
  | @stolen thief rest v randomness hv hne h =>
    -- The victim loses the older half, of which all but the oldest job go to the thief.
    obtain ⟨others, hvictim, hthief⟩ := Deque.stealHalf_eq_some h
    have h₁ := count_setDeque hv rest b
    have h₂ := count_setDeque (p := p.setDeque v rest) (w := w) (by rwa [length_setDeque]) thief b
    rw [deque_setDeque_of_ne hne] at h₂
    rw [hvictim, List.count_append, List.count_cons] at h₁
    rw [hthief, List.count_append] at h₂
    change ((p.setDeque v rest).setDeque w thief).jobs.count b + _ = _
    rw [List.count_singleton]
    omega

/-- A job that is added by a worker, or from elsewhere, is there once more. -/
theorem count_add {origin : Option Nat} (ho : ∀ w, origin = some w → w < p.deques.length)
    (job b : β) : (p.add origin job).jobs.count b = p.jobs.count b + [job].count b := by
  cases origin with
  | none =>
    rw [count_jobs, count_jobs, add]
    simp only [List.count_append]
    omega
  | some w =>
    have hc := count_setDeque (ho w rfl) ((p.deque w).push job) b
    rw [Deque.count_push] at hc
    change (p.setDeque w _).jobs.count b = _
    omega

end Counting

/-! ## What a worker takes when it looks for a job -/

theorem stealFrom?_eq_some {victims victims' : List (Deque β)} {thief thief' : Deque β}
    {order : List Nat} (h : stealFrom? victims thief order = some (job, thief', victims')) :
    ∃ i rest, ∃ hi : i < victims.length,
      victims[i].stealHalf thief = some (job, thief', rest) ∧ victims' = victims.set i rest := by
  induction order with
  | nil => cases h
  | cons i order ih =>
    rw [stealFrom?] at h
    split at h
    · rename_i hs
      cases h
      obtain ⟨d, hd, hs⟩ := Option.bind_eq_some_iff.1 hs
      obtain ⟨hi, rfl⟩ := List.getElem?_eq_some_iff.1 hd
      exact ⟨i, _, hi, hs, rfl⟩
    · exact ih h

/-- A round of a thief takes from one of its victims. -/
theorem steal_eq_some {victims : List (Deque β)} {thief : Deque β} {r : Randomness}
    (h : (steal victims thief r).job = some job) :
    ∃ i rest, ∃ hi : i < victims.length,
      victims[i].stealHalf thief = some (job, (steal victims thief r).thief, rest) ∧
        (steal victims thief r).victims = victims.set i rest := by
  unfold steal at h ⊢
  split at h
  · cases h
  · rename_i he
    rw [if_neg he]
    dsimp only at h ⊢
    generalize hs : stealFrom? victims thief _ = s at h ⊢
    cases s with
    | none => cases h
    | some s =>
      cases h
      exact stealFrom?_eq_some hs

/-- Among the deques without the thief's, each sibling has the place that it has among all of
    them, or the one before. -/
theorem insertIdx_set_eraseIdx {l : List α} {w i : Nat} (hw : w < l.length)
    (hi : i < (l.eraseIdx w).length) (a b : α) : ∃ v, ∃ hv : v < l.length, v ≠ w ∧
      (l.eraseIdx w)[i] = l[v] ∧ ((l.eraseIdx w).set i a).insertIdx w b = (l.set v a).set w b := by
  have hlen : (l.eraseIdx w).length = l.length - 1 := List.length_eraseIdx_of_lt hw
  refine ⟨if i < w then i else i + 1, by split <;> omega, by split <;> omega, ?_, ?_⟩
  · rw [List.getElem_eraseIdx]
    split <;> rfl
  · refine List.ext_getElem? fun j => ?_
    simp only [List.getElem?_insertIdx, List.getElem?_set, List.getElem?_eraseIdx,
      List.length_set, hlen]
    grind

/-- Whatever a worker that looks for a job takes is something that it can take. -/
theorem gives_of_take? (hw : w < p.deques.length) (h : p.take? w = some (job, p')) :
    p.Gives w job p' := by
  unfold take? at h
  split at h
  · rename_i hp
    cases h
    exact .own hp
  · split at h
    · rename_i hc
      cases h
      exact .common hc
    · obtain ⟨j, hj, he⟩ := Option.map_eq_some_iff.1 h
      cases he
      obtain ⟨i, rest, hi, hs, hv⟩ := steal_eq_some hj
      obtain ⟨v, hvl, hne, hd, hset⟩ := insertIdx_set_eraseIdx hw hi rest
        (steal (p.deques.eraseIdx w) (p.deque w) (p.randomness.getD w (.ofSeed 1))).thief
      rw [hd, ← deque_eq hvl] at hs
      simp only [hv, hset]
      exact .stolen _ hvl hne hs

end Pool

end ResumeOnce.Scheduler
