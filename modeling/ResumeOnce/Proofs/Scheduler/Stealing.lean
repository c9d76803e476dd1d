import Mathlib.Data.List.Rotate
import ResumeOnce.Proofs.Scheduler.Pool

/-!
# Rounds of a thief

A thief goes round its victims, from a random one on, until one of them has jobs. It takes the
older half of them into its hands and only then puts all but the oldest onto its own deque, so
for a moment those jobs are in no deque. Every look and every hand-over is a step of its own here.

* `steal_of_job_eq_some`, `job_steal_eq_none_iff`: what is stolen, and when nothing is;
* `Round`, `Round.step`, `Round.look_step`: a thief in its round, and what its next look can show;
* `Round.jobs_iterate`: at no moment is a job lost or there twice, with those in hand;
* `Round.sound_iterate`: the victims are looked at in the order of the round;
* `Round.ends_after`: step by step, a thief comes to what `steal` tells at once;
* `Orderly`, `steal_orderly`: what every round is like, and what it comes to.
-/

namespace ResumeOnce.Scheduler

variable {α : Type*}

/-! ## The order of a round -/

/-- A round goes through the victims as they stand, but begins somewhere else. -/
theorem roundFrom_eq_rotate (start count : Nat) :
    roundFrom start count = (List.range count).rotate start := by
  refine List.ext_getElem (by simp [roundFrom]) fun i _ _ => ?_
  rw [List.getElem_rotate]
  simp [roundFrom, Nat.add_comm]

theorem length_roundFrom (start count : Nat) : (roundFrom start count).length = count := by
  rw [roundFrom_eq_rotate, List.length_rotate, List.length_range]

theorem nodup_roundFrom (start count : Nat) : (roundFrom start count).Nodup := by
  rw [roundFrom_eq_rotate]
  exact List.nodup_rotate.2 List.nodup_range

theorem mem_roundFrom {start count v : Nat} : v ∈ roundFrom start count ↔ v < count := by
  rw [roundFrom_eq_rotate, List.mem_rotate, List.mem_range]

/-! ## What is taken from one victim -/

namespace Deque

variable {victim thief thief' rest : Deque α} {job : α}

/-- Only a deque without jobs has nothing to give. -/
theorem stealHalf_eq_none_iff : victim.stealHalf thief = none ↔ victim.jobs = [] := by
  have ht : victim.jobs.take victim.half = [] ↔ victim.jobs = [] := by
    rw [List.take_eq_nil_iff, half]
    exact ⟨fun h => h.elim (fun h => List.eq_nil_of_length_eq_zero (by omega)) id, Or.inr⟩
  rw [← ht, stealHalf]
  split
  · rename_i h
    exact iff_of_true rfl h
  · rename_i first others h
    exact iff_of_false nofun (h ▸ List.cons_ne_nil first others)

/-- Half of the jobs, rounded down, are left to the victim. -/
theorem length_of_stealHalf (h : victim.stealHalf thief = some (job, thief', rest)) :
    rest.jobs.length = victim.jobs.length / 2 := by
  unfold stealHalf at h
  split at h
  · cases h
  · cases h
    rw [List.length_drop, half]
    omega

end Deque

/-! ## What is stolen in a round -/

section Steal

variable {victims : List (Deque α)} {thief : Deque α} {r : Randomness}

/-- Nothing is stolen only if no victim of the order has anything to give. -/
theorem stealFrom?_eq_none_iff {order : List Nat} : stealFrom? victims thief order = none ↔
    ∀ v ∈ order, victims[v]?.bind (·.stealHalf thief) = none := by
  induction order with
  | nil => simp [stealFrom?]
  | cons v order ih =>
    rw [stealFrom?, List.forall_mem_cons]
    split
    · rename_i h
      simp [h]
    · rename_i h
      simp [h, ih]

/-- A round among some victims is a search from a random one on, and draws one word for it. -/
theorem steal_of_ne_nil (h : victims ≠ []) : steal victims thief r =
    (stealFrom? victims thief (roundFrom (r.below victims.length).1 victims.length)).elim
      ⟨none, victims, thief, r.next.2⟩
      fun (job, thief', victims') => ⟨some job, victims', thief', r.next.2⟩ := by
  rw [steal, if_neg (by simpa using h)]
  dsimp only
  generalize stealFrom? victims thief _ = found
  cases found <;> rfl

/-- Nothing is stolen exactly if there is nothing to steal. -/
theorem job_steal_eq_none_iff : (steal victims thief r).job = none ↔ ∀ d ∈ victims, d.jobs = [] := by
  by_cases h : victims = []
  · subst h
    simp [steal]
  · have hs : (steal victims thief r).job = none ↔
        stealFrom? victims thief (roundFrom (r.below victims.length).1 victims.length) = none := by
      rw [steal_of_ne_nil h]
      cases stealFrom? victims thief _ <;> simp
    simp only [hs, stealFrom?_eq_none_iff, mem_roundFrom]
    rw [List.forall_mem_iff_getElem]
    refine forall₂_congr fun v hv => ?_
    rw [List.getElem?_eq_getElem hv, Option.bind_some, Deque.stealHalf_eq_none_iff]

/-- Where nothing is stolen, every deque is as it was. -/
theorem steal_of_job_eq_none (h : (steal victims thief r).job = none) :
    (steal victims thief r).victims = victims ∧ (steal victims thief r).thief = thief := by
  by_cases hne : victims = []
  · subst hne
    exact ⟨rfl, rfl⟩
  · rw [steal_of_ne_nil hne] at h ⊢
    generalize stealFrom? victims thief _ = found at h ⊢
    cases found with
    | none => exact ⟨rfl, rfl⟩
    | some s => cases h

/-- What is stolen is the older half of one victim's jobs, rounded up. -/
theorem steal_of_job_eq_some {job : α} (h : (steal victims thief r).job = some job) :
    ∃ (v : Nat) (others newer : List α) (hv : v < victims.length),
      victims[v].jobs = job :: others ++ newer ∧
      (job :: others).length = (victims[v].jobs.length + 1) / 2 ∧
      (steal victims thief r).thief.jobs = thief.jobs ++ others ∧
      (steal victims thief r).victims = victims.set v ⟨newer⟩ := by
  obtain ⟨v, rest, hv, hs, hset⟩ := Pool.steal_eq_some h
  obtain ⟨others, hjobs, hthief⟩ := Deque.stealHalf_eq_some hs
  refine ⟨v, others, rest.jobs, hv, hjobs, ?_, hthief, hset⟩
  have hlen := congrArg List.length hjobs
  have hrest := Deque.length_of_stealHalf hs
  rw [List.length_append] at hlen
  omega

/-- A round draws one word, or none if there is nobody to steal from. -/
theorem randomness_steal :
    (steal victims thief r).randomness = if victims = [] then r else r.next.2 := by
  split
  · rename_i h
    rw [h]
    rfl
  · rename_i h
    rw [steal_of_ne_nil h]
    cases stealFrom? victims thief _ <;> rfl

end Steal

/-! ## A thief in its round -/

/-- Where a thief is in its round. -/
inductive Round.Stage (α : Type u) where
  /-- It still has victims to look at, in this order. -/
  | seeking (order : List Nat)
  /-- It has jobs of a victim in its hands: the oldest, and those that it puts onto its deque. -/
  | laden (job : α) (others : List α)
  /-- It is through, perhaps with a job to run. -/
  | through (job : Option α)
  /-- It has looked for a victim where there is none. -/
  | astray

namespace Round.Stage

/-- The victims that are still to be looked at. -/
def ahead : Stage α → List Nat
  | seeking order => order
  | _ => []

/-- The jobs in the hands of the thief. -/
def hands : Stage α → List α
  | laden job others => job :: others
  | through job => job.toList
  | _ => []

end Round.Stage

/-- A thief in its round: the deques of the victims and its own, and the victims that it has
    looked at so far. -/
structure Round (α : Type u) where
  victims : List (Deque α)
  thief : Deque α
  visited : List Nat
  stage : Round.Stage α

namespace Round

variable {victims : List (Deque α)} {thief : Deque α} {visited order : List Nat} {v count : Nat}
  {s : Round α}

open scoped List

/-- The begin of a round. No word is drawn if there is nobody to steal from. -/
def begin (victims : List (Deque α)) (thief : Deque α) (r : Randomness) : Round α :=
  if victims.isEmpty then ⟨victims, thief, [], .through none⟩
  else ⟨victims, thief, [], .seeking (roundFrom (r.below victims.length).1 victims.length)⟩

/-- What a thief does next: it looks at a victim and takes the older half of its jobs, if there are
    any, or it puts onto its own deque what it does not run. -/
def step : Round α → Round α
  | ⟨victims, thief, visited, .seeking []⟩ => ⟨victims, thief, visited, .through none⟩
  | ⟨victims, thief, visited, .seeking (v :: order)⟩ =>
    match victims[v]? with
    | none => ⟨victims, thief, visited ++ [v], .astray⟩
    | some d =>
      match d.jobs.take d.half with
      | [] => ⟨victims, thief, visited ++ [v], .seeking order⟩
      | job :: others =>
        ⟨victims.set v ⟨d.jobs.drop d.half⟩, thief, visited ++ [v], .laden job others⟩
  | ⟨victims, thief, visited, .laden job others⟩ =>
    ⟨victims, ⟨thief.jobs ++ others⟩, visited, .through (some job)⟩
  | s => s

/-- A round behind some steps. -/
def after (victims : List (Deque α)) (thief : Deque α) (r : Randomness) (k : Nat) : Round α :=
  step^[k] (begin victims thief r)

/-- All jobs: those in the thief's hands, of its deque, and of the victims. -/
def jobs (s : Round α) : List α := s.stage.hands ++ s.thief.jobs ++ s.victims.flatMap Deque.jobs

/-- The round is over, and has come to this. -/
structure Ends (s : Round α) (o : Stolen α) : Prop where
  stage : s.stage = .through o.job
  victims : s.victims = o.victims
  thief : s.thief = o.thief

/-- What a look at the next victim can come to. -/
inductive Look (victims : List (Deque α)) (thief : Deque α) (visited : List Nat) (v : Nat)
    (order : List Nat) : Round α → Prop
  | nowhere (hv : victims.length ≤ v) :
      Look victims thief visited v order ⟨victims, thief, visited ++ [v], .astray⟩
  | vain (hv : v < victims.length) (h : victims[v].stealHalf thief = none) :
      Look victims thief visited v order ⟨victims, thief, visited ++ [v], .seeking order⟩
  | robs {job : α} {others : List α} {rest : Deque α} (hv : v < victims.length)
      (h : victims[v].stealHalf thief = some (job, ⟨thief.jobs ++ others⟩, rest)) :
      Look victims thief visited v order
        ⟨victims.set v rest, thief, visited ++ [v], .laden job others⟩

theorem look_step (victims : List (Deque α)) (thief : Deque α) (visited : List Nat) (v : Nat)
    (order : List Nat) :
    Look victims thief visited v order (step ⟨victims, thief, visited, .seeking (v :: order)⟩) := by
  rw [step]
  split
  · rename_i hv
    exact .nowhere (List.getElem?_eq_none_iff.1 hv)
  · rename_i d hd
    obtain ⟨hv, rfl⟩ := List.getElem?_eq_some_iff.1 hd
    split
    · rename_i ht
      exact .vain hv (by rw [Deque.stealHalf, ht])
    · rename_i job others ht
      exact .robs hv (by rw [Deque.stealHalf, ht])

/-! ## No job is lost, and none is there twice -/

/-- What is taken from one victim, and what is then left to all of them, is what they had. -/
theorem perm_flatMap_set {rest : Deque α} {taken : List α} (hv : v < victims.length)
    (h : victims[v].jobs = taken ++ rest.jobs) :
    (taken ++ (victims.set v rest).flatMap Deque.jobs).Perm (victims.flatMap Deque.jobs) := by
  classical
  refine List.perm_iff_count.2 fun b => ?_
  have hc := count_flatMap_set Deque.jobs hv rest b
  rw [h, List.count_append] at hc
  rw [List.count_append]
  omega

theorem jobs_step (s : Round α) : s.step.jobs.Perm s.jobs := by
  obtain ⟨victims, thief, visited, stage⟩ := s
  cases stage with
  | seeking order =>
    cases order with
    | nil => rfl
    | cons v order =>
      have hl := look_step victims thief visited v order
      generalize step _ = s at hl ⊢
      cases hl with
      | nowhere hv => rfl
      | vain hv h => rfl
      | @robs job others rest hv h =>
        -- What was the victim's is in the thief's hands now.
        obtain ⟨others', hvictim, hthief⟩ := Deque.stealHalf_eq_some h
        cases List.append_cancel_left hthief
        calc (job :: others) ++ thief.jobs ++ (victims.set v rest).flatMap Deque.jobs
          _ ~ thief.jobs ++ (job :: others) ++ (victims.set v rest).flatMap Deque.jobs :=
            List.perm_append_comm.append_right _
          _ = thief.jobs ++ ((job :: others) ++ (victims.set v rest).flatMap Deque.jobs) :=
            List.append_assoc ..
          _ ~ thief.jobs ++ victims.flatMap Deque.jobs := (perm_flatMap_set hv hvictim).append_left _
  | laden job others =>
    -- All but one of the jobs go from the thief's hands onto its deque.
    have hp : thief.jobs ++ others ~ others ++ thief.jobs := List.perm_append_comm
    exact (hp.cons job).append_right _
  | through job => rfl
  | astray => rfl

/-- At every moment of a round all jobs are there once, in a deque or in the thief's hands. -/
theorem jobs_iterate (s : Round α) (k : Nat) : (step^[k] s).jobs.Perm s.jobs := by
  induction k with
  | zero => rfl
  | succ k ih =>
    rw [Function.iterate_succ_apply']
    exact (jobs_step _).trans ih

theorem jobs_after (victims : List (Deque α)) (thief : Deque α) (r : Randomness) (k : Nat) :
    (after victims thief r k).jobs.Perm (thief.jobs ++ victims.flatMap Deque.jobs) := by
  refine (jobs_iterate _ k).trans ?_
  rw [begin]
  split <;> rfl

/-! ## Where a thief looks -/

/-- The thief has looked at the first few victims of an order, and at no others. -/
structure Sound (count : Nat) (order : List Nat) (s : Round α) : Prop where
  course : s.visited ++ s.stage.ahead <+: order
  length : s.victims.length = count
  present : s.stage ≠ .astray

theorem Sound.step (hin : ∀ v ∈ order, v < count) (h : s.Sound count order) :
    s.step.Sound count order := by
  obtain ⟨victims, thief, visited, stage⟩ := s
  cases stage with
  | seeking ahead =>
    cases ahead with
    | nil => exact ⟨h.course, h.length, nofun⟩
    | cons v ahead =>
      have hc : visited ++ [v] ++ ahead <+: order := by
        rw [List.append_assoc]
        exact h.course
      have hl := look_step victims thief visited v ahead
      generalize Round.step _ = s at hl ⊢
      cases hl with
      | nowhere hv =>
        -- There is such a victim, as it is one of the order.
        have hlt : v < victims.length := h.length.symm ▸ hin v (hc.subset (by simp))
        omega
      | vain hv hs => exact ⟨hc, h.length, nofun⟩
      | robs hv hs =>
        refine ⟨?_, List.length_set.trans h.length, nofun⟩
        exact (List.append_nil _).symm ▸ (List.prefix_append _ ahead).trans hc
  | laden job others => exact ⟨h.course, h.length, nofun⟩
  | through job => exact h
  | astray => exact h

theorem sound_iterate (hin : ∀ v ∈ order, v < count) (h : s.Sound count order) (k : Nat) :
    (Round.step^[k] s).Sound count order := by
  induction k with
  | zero => exact h
  | succ k ih =>
    rw [Function.iterate_succ_apply']
    exact ih.step hin

theorem sound_begin (victims : List (Deque α)) (thief : Deque α) (r : Randomness) :
    (begin victims thief r).Sound victims.length
      (roundFrom (r.below victims.length).1 victims.length) := by
  rw [begin]
  split
  · exact ⟨List.nil_prefix, rfl, nofun⟩
  · exact ⟨List.prefix_rfl, rfl, nofun⟩

theorem sound_after (victims : List (Deque α)) (thief : Deque α) (r : Randomness) (k : Nat) :
    (after victims thief r k).Sound victims.length
      (roundFrom (r.below victims.length).1 victims.length) :=
  sound_iterate (fun _ => mem_roundFrom.1) (sound_begin victims thief r) k

/-! ## How a round ends -/

/-- The end of a round in which this was stolen. -/
def outcome (victims : List (Deque α)) (thief : Deque α) (visited : List Nat) :
    Option (α × Deque α × List (Deque α)) → Round α
  | none => ⟨victims, thief, visited, .through none⟩
  | some (job, thief, victims) => ⟨victims, thief, visited, .through (some job)⟩

/-- A thief that goes through victims that are there comes to what `stealFrom?` says, at the latest
    one step behind the last of them. -/
theorem iterate_seeking (thief : Deque α) (visited : List Nat)
    (hin : ∀ v ∈ order, v < victims.length) : ∃ visited',
    step^[order.length + 1] ⟨victims, thief, visited, .seeking order⟩ =
      outcome victims thief visited' (stealFrom? victims thief order) := by
  induction order generalizing visited with
  | nil => exact ⟨visited, rfl⟩
  | cons v order ih =>
    have hv := hin v List.mem_cons_self
    have hl := look_step victims thief visited v order
    rw [List.length_cons, Function.iterate_succ_apply, stealFrom?, List.getElem?_eq_getElem hv,
      Option.bind_some]
    generalize step _ = s at hl ⊢
    cases hl with
    | nowhere hle => omega
    | vain _ h =>
      rw [h]
      exact ih _ fun w hw => hin w (List.mem_cons_of_mem v hw)
    | robs _ h =>
      -- Behind the hand-over the round is over, whatever steps are left.
      rw [h, Function.iterate_succ_apply, step, Function.iterate_fixed rfl]
      exact ⟨_, rfl⟩

theorem step_outcome (visited : List Nat) (o : Option (α × Deque α × List (Deque α))) :
    step (outcome victims thief visited o) = outcome victims thief visited o := by
  cases o <;> rfl

/-- Behind a step for each victim and one more the round is over. -/
theorem ends_after (victims : List (Deque α)) (thief : Deque α) (r : Randomness) {k : Nat}
    (hk : victims.length < k) : (after victims thief r k).Ends (steal victims thief r) := by
  by_cases h : victims = []
  · subst h
    rw [after, begin, if_pos List.isEmpty_nil, Function.iterate_fixed rfl]
    exact ⟨rfl, rfl, rfl⟩
  · obtain ⟨visited, he⟩ := iterate_seeking thief []
      fun v (hv : v ∈ roundFrom (r.below victims.length).1 victims.length) => mem_roundFrom.1 hv
    rw [length_roundFrom] at he
    rw [after, begin, if_neg (by simpa using h), ← Nat.sub_add_cancel hk,
      Function.iterate_add_apply, he, Function.iterate_fixed (step_outcome ..), steal_of_ne_nil h]
    cases stealFrom? victims thief _ <;> exact ⟨rfl, rfl, rfl⟩

end Round

/-- What a round is like, and what it comes to. -/
structure Orderly (victims : List (Deque α)) (thief : Deque α) (r : Randomness) : Prop where
  /-- No victim is looked at twice. -/
  once : ∀ k, (Round.after victims thief r k).visited.Nodup
  /-- The thief looks for victims only where there is one. -/
  within : ∀ k, (Round.after victims thief r k).stage ≠ .astray ∧
    ∀ v ∈ (Round.after victims thief r k).visited, v < victims.length
  /-- At every moment all jobs are there once, in a deque or in the thief's hands. -/
  kept : ∀ k, (Round.after victims thief r k).jobs.Perm (thief.jobs ++ victims.flatMap Deque.jobs)
  /-- Behind a step for each victim and one more the round is over, and has come to `steal`. -/
  ends : ∀ k, victims.length < k → (Round.after victims thief r k).Ends (steal victims thief r)
  /-- Nothing is stolen exactly if there is nothing to steal. -/
  none_iff : (steal victims thief r).job = none ↔ ∀ d ∈ victims, d.jobs = []
  /-- Then every deque is as it was. -/
  unchanged : (steal victims thief r).job = none →
    (steal victims thief r).victims = victims ∧ (steal victims thief r).thief = thief
  /-- Otherwise one victim has lost the older half of its jobs, rounded up: the oldest is to be
      run, and the others are the newest of the thief's, in their order. -/
  taken : ∀ job, (steal victims thief r).job = some job →
    ∃ (v : Nat) (others newer : List α) (hv : v < victims.length),
      victims[v].jobs = job :: others ++ newer ∧
      (job :: others).length = (victims[v].jobs.length + 1) / 2 ∧
      (steal victims thief r).thief.jobs = thief.jobs ++ others ∧
      (steal victims thief r).victims = victims.set v ⟨newer⟩
  /-- The jobs of all deques, with the one that is to be run, are those that there were. -/
  conserved : ((steal victims thief r).job.toList ++ (steal victims thief r).thief.jobs ++
    (steal victims thief r).victims.flatMap Deque.jobs).Perm
      (thief.jobs ++ victims.flatMap Deque.jobs)
  /-- One word is drawn for a round, and none if there is nobody to steal from. -/
  drawn : (steal victims thief r).randomness = if victims = [] then r else r.next.2

/-- However many victims there are, whatever jobs they and the thief have and wherever the round
    begins, it goes once around at most, and no job is lost or doubled in it. -/
theorem steal_orderly (victims : List (Deque α)) (thief : Deque α) (r : Randomness) :
    Orderly victims thief r where
  once k :=
    have hc := (Round.sound_after victims thief r k).course
    ((List.prefix_append ..).trans hc).sublist.nodup (nodup_roundFrom ..)
  within k :=
    have hs := Round.sound_after victims thief r k
    ⟨hs.present, fun _ hv =>
      mem_roundFrom.1 (((List.prefix_append ..).trans hs.course).subset hv)⟩
  kept := Round.jobs_after victims thief r
  ends _ := Round.ends_after victims thief r
  none_iff := job_steal_eq_none_iff
  unchanged := steal_of_job_eq_none
  taken _ := steal_of_job_eq_some
  conserved := by
    -- A round that is over has in its hands what is to be run.
    have he := Round.ends_after victims thief r (Nat.lt_succ_self _)
    have hk := Round.jobs_after victims thief r (victims.length + 1)
    rwa [Round.jobs, he.stage, he.thief, he.victims] at hk
  drawn := randomness_steal

/-- The round begins at the second victim, which has no jobs, and goes on at the first. -/
example : (Round.after [⟨[1, 2, 3]⟩, ⟨[]⟩] ⟨[9]⟩ (.ofSeed 1) 4).visited = [1, 0] ∧
    (steal [⟨[1, 2, 3]⟩, ⟨[]⟩] ⟨[9]⟩ (.ofSeed 1)).job = some 1 ∧
    (steal [⟨[1, 2, 3]⟩, ⟨[]⟩] ⟨[9]⟩ (.ofSeed 1)).thief = ⟨[9, 2]⟩ ∧
    (steal [⟨[1, 2, 3]⟩, ⟨[]⟩] ⟨[9]⟩ (.ofSeed 1)).victims = [⟨[3]⟩, ⟨[]⟩] := by decide

end ResumeOnce.Scheduler
