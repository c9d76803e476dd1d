import ResumeOnce.Proofs.Run
import ResumeOnce.Proofs.Scheduler.Pool
import ResumeOnce.Scheduler.Board

/-!
# Workers at a board

Any number of workers take tasks out of the queues and poll them, while tasks are spawned and
woken by the workers and from elsewhere. A worker that has taken a task holds it until it gets
hold of the task's future, which only one worker at a time can have; then it begins to poll.

* `Floor`, `Floor.Step`: the board and what each worker is at; what can happen next;
* `Floor.step_of_take?`: what a worker finds when it looks for a task, it can take;
* `Floor.Sound`, `Floor.sound_run`: a task is in a queue or in a worker's hand exactly if it was
  notified, and then in one place only;
* `Floor.Kept`, `Floor.queued_once`: what every run comes to.
-/

namespace ResumeOnce.Scheduler

/-! ## Entries of the board -/

namespace Board

variable {b : Board} {k t : Nat} {origin : Option Nat}

theorem isNotified_modify (f : Entry → Entry) (p : Pool Nat) :
    isNotified ⟨p, b.entries.modify t f⟩ k =
      if t = k then (b.entries[k]?).any fun e => (f e).notified else b.isNotified k := by
  rw [isNotified, Array.getElem?_modify]
  split
  · exact Option.any_map ..
  · rfl

theorem phase_modify (f : Entry → Entry) (p : Pool Nat) :
    phase ⟨p, b.entries.modify t f⟩ k =
      if t = k then (b.entries[k]?).elim .over fun e => (f e).phase else b.phase k := by
  rw [phase, Array.getElem?_modify]
  split
  · cases b.entries[k]? <;> rfl
  · rfl

theorem lt_of_isNotified (h : b.isNotified k = true) : k < b.entries.size := by
  by_contra hk
  rw [isNotified, Array.getElem?_eq_none (by omega)] at h
  cases h

theorem lt_of_phase (h : b.phase k ≠ .over) : k < b.entries.size := by
  by_contra hk
  rw [phase, Array.getElem?_eq_none (by omega)] at h
  exact h rfl

/-- A new task is notified, and the others are as they were. -/
theorem isNotified_spawn :
    (b.spawn origin).2.isNotified k = (decide (k = b.entries.size) || b.isNotified k) := by
  change ((b.entries.push ⟨true, .resting⟩)[k]?).any Entry.notified = _
  rw [Array.getElem?_push]
  by_cases hk : k = b.entries.size
  · simp [hk]
  · simp [hk, isNotified]

theorem phase_spawn (hk : k < b.entries.size) : (b.spawn origin).2.phase k = b.phase k := by
  change ((b.entries.push ⟨true, .resting⟩)[k]?).elim .over Entry.phase = _
  rw [Array.getElem?_push, if_neg (by omega), phase]

/-- A task that was notified before is not queued again. -/
theorem wake_of_notified (h : b.isNotified t = true) : b.wake origin t = b := by
  simp [wake, notify, h]

theorem wake_of_unnotified (h : b.isNotified t = false) : b.wake origin t =
    ⟨b.pool.add origin t, b.entries.modify t fun e => { e with notified := true }⟩ := by
  simp [wake, notify, h, queue]

theorem isNotified_wake_eq (ht : t < b.entries.size) :
    (b.wake origin t).isNotified k = (decide (k = t) || b.isNotified k) := by
  cases h : b.isNotified t with
  | true =>
    rw [wake_of_notified h]
    by_cases hk : k = t
    · simp [hk, h]
    · simp [hk]
  | false =>
    rw [wake_of_unnotified h, isNotified_modify]
    by_cases hk : k = t
    · simp [hk, ht]
    · simp [hk, Ne.symm hk]

theorem phase_wake : (b.wake origin t).phase k = b.phase k := by
  cases h : b.isNotified t with
  | true => rw [wake_of_notified h]
  | false =>
    rw [wake_of_unnotified h, phase_modify, phase]
    split <;> rfl

/-- The begin of a poll takes the notice away. -/
theorem isNotified_begin : (b.begin t).isNotified k = (decide (k ≠ t) && b.isNotified k) := by
  rw [begin, isNotified_modify]
  by_cases hk : k = t
  · simp [hk]
  · simp [hk, Ne.symm hk]

theorem phase_begin : (b.begin t).phase k =
    if k = t ∧ b.phase k ≠ .over then .polled else b.phase k := by
  rw [begin, phase_modify]
  by_cases hk : k = t
  · subst hk
    rw [if_pos rfl, phase]
    cases b.entries[k]? with
    | none => simp
    | some e => by_cases he : e.phase = .over <;> simp [he]
  · simp [hk, Ne.symm hk]

theorem isNotified_setPhase (p : Phase) : (b.setPhase t p).isNotified k = b.isNotified k := by
  rw [setPhase, isNotified_modify, isNotified]
  split <;> rfl

theorem phase_setPhase_of_ne (hk : k ≠ t) (p : Phase) : (b.setPhase t p).phase k = b.phase k := by
  rw [setPhase, phase_modify, if_neg (Ne.symm hk)]

theorem phase_retire : (b.retire t).phase t = .over := by
  rw [retire, setPhase, phase_modify, if_pos rfl]
  cases b.entries[t]? <;> rfl

end Board

/-! ## The floor -/

/-- What a worker is at: nothing, a task that it has taken out of the queues, or one that it
    polls. -/
inductive Activity where
  | idle
  | holds (t : Nat)
  | polls (t : Nat)

/-- The task that a worker has taken, and has not yet begun to poll. -/
def Activity.hand : Activity → List Nat
  | holds t => [t]
  | _ => []

/-- The board, and what each worker is at. -/
structure Floor where
  board : Board
  workers : List Activity

namespace Floor

/-- What happens: a worker that takes up a task begins to poll it, or finds it over. -/
inductive Event where
  | spawned (t : Nat)
  | woken (t : Nat)
  | taken (w t : Nat)
  | begun (w t : Nat)
  | passed (w t : Nat)
  | paused (w t : Nat)
  | finished (w t : Nat)

/-- The task that a worker takes up. -/
def Event.takenUp? : Event → Option Nat
  | begun _ t => some t
  | passed _ t => some t
  | _ => none

/-- Some workers, and no task. -/
def new (n : Nat) : Floor := ⟨.new n, List.replicate n .idle⟩

/-- The tasks in the queues and in the hands of workers. -/
def places (s : Floor) : List Nat := s.board.pool.jobs ++ s.workers.flatMap Activity.hand

/-- Where a task can be spawned or woken: on the thread of a worker, or elsewhere. -/
def Hosts (s : Floor) (origin : Option Nat) : Prop := ∀ w, origin = some w → w < s.workers.length

/-- Nobody has hold of the future of a task. -/
def Free (s : Floor) (t : Nat) : Prop := ∀ w : Nat, s.workers[w]? ≠ some (Activity.polls t)

/-- The floor with another board, and with a worker at something else. -/
def advance (s : Floor) (b : Board) (w : Nat) (a : Activity) : Floor := ⟨b, s.workers.set w a⟩

/-- What can happen before the shutdown. A poll ends with the task waiting, or with the task
    over: its future returned, it panicked, or nothing is left that could wake it. -/
inductive Step : Floor → Event → Floor → Prop
  | spawn {s : Floor} {origin : Option Nat} (ho : s.Hosts origin) :
      Step s (.spawned (s.board.spawn origin).1) { s with board := (s.board.spawn origin).2 }
  | wake {s : Floor} {origin : Option Nat} {t : Nat} (ho : s.Hosts origin)
      (ht : t < s.board.entries.size) :
      Step s (.woken t) { s with board := s.board.wake origin t }
  | take {s : Floor} {w t : Nat} {pool : Pool Nat} (hw : s.workers[w]? = some .idle)
      (hg : s.board.pool.Gives w t pool) :
      Step s (.taken w t) (s.advance { s.board with pool } w (.holds t))
  | begin {s : Floor} {w t : Nat} (hw : s.workers[w]? = some (.holds t)) (hf : s.Free t)
      (hp : s.board.phase t ≠ .over) :
      Step s (.begun w t) (s.advance (s.board.begin t) w (.polls t))
  | pass {s : Floor} {w t : Nat} (hw : s.workers[w]? = some (.holds t)) (hf : s.Free t)
      (hp : s.board.phase t = .over) :
      Step s (.passed w t) (s.advance (s.board.begin t) w .idle)
  | pause {s : Floor} {w t : Nat} (hw : s.workers[w]? = some (.polls t)) :
      Step s (.paused w t) (s.advance (s.board.pause t) w .idle)
  | finish {s : Floor} {w t : Nat} (hw : s.workers[w]? = some (.polls t)) :
      Step s (.finished w t) (s.advance (s.board.retire t) w .idle)

variable {s s' : Floor} {e : Event} {τ : List Event} {n k w : Nat}

/-- What a worker finds when it looks for a task, it can take. -/
theorem step_of_take? {t : Nat} {b : Board} (hw : s.workers[w]? = some .idle)
    (hd : w < s.board.pool.deques.length) (h : s.board.take? w = some (t, b)) :
    Step s (.taken w t) (s.advance b w (.holds t)) := by
  obtain ⟨⟨t', pool⟩, hp, he⟩ := Option.map_eq_some_iff.1 h
  cases he
  exact .take hw (Pool.gives_of_take? hd hp)

/-! ## What every state keeps -/

/-- The books are in order: who is notified is in one place, and nobody else is in any. -/
structure Sound (s : Floor) : Prop where
  deques : s.board.pool.deques.length = s.workers.length
  places : ∀ k, s.places.count k = if s.board.isNotified k then 1 else 0
  polled : ∀ (w k : Nat), s.workers[w]? = some (Activity.polls k) → s.board.phase k = .polled
  single : ∀ v w k : Nat, s.workers[v]? = some (Activity.polls k) →
    s.workers[w]? = some (Activity.polls k) → v = w

theorem count_places (s : Floor) (k : Nat) : s.places.count k =
    s.board.pool.jobs.count k + (s.workers.flatMap Activity.hand).count k := List.count_append

/-- Whoever polls after a worker got to something else is that worker, or polled before. -/
theorem polls_set {a : Activity} {v w : Nat} (h : (s.workers.set w a)[v]? = some (.polls k)) :
    (v = w ∧ a = .polls k) ∨ (v ≠ w ∧ s.workers[v]? = some (.polls k)) := by
  by_cases hv : v = w
  · subst hv
    obtain ⟨hl, he⟩ := List.getElem?_eq_some_iff.1 h
    exact .inl ⟨rfl, by simpa using he⟩
  · rw [List.getElem?_set_ne (Ne.symm hv)] at h
    exact .inr ⟨hv, h⟩

namespace Sound

theorem new (n : Nat) : (Floor.new n).Sound where
  deques := by simp [Floor.new, Board.new, Pool.idle]
  places k := by
    have hp : (Floor.new n).places = [] := by
      simp [Floor.places, Floor.new, Board.new, Pool.idle, Pool.jobs, Deque.empty, Activity.hand]
    rw [hp]
    rfl
  polled w k h := by
    rw [Floor.new, List.getElem?_replicate] at h
    split at h <;> cases h
  single v w k h := by
    rw [Floor.new, List.getElem?_replicate] at h
    split at h <;> cases h

/-- The books stay in order if a worker gets to something else, the queues and its hand together
    lose and win what the notices say, and it polls nothing but what was free. -/
theorem advance (h : s.Sound) {b : Board} {a a' : Activity} (hw : s.workers[w]? = some a)
    (hd : b.pool.deques.length = s.board.pool.deques.length)
    (hc : ∀ k, b.pool.jobs.count k + a'.hand.count k + (if s.board.isNotified k then 1 else 0) =
      s.board.pool.jobs.count k + a.hand.count k + (if b.isNotified k then 1 else 0))
    (hf : ∀ k, a' = .polls k → s.Free k ∧ b.phase k = .polled)
    (ho : ∀ v k, v ≠ w → s.workers[v]? = some (Activity.polls k) → b.phase k = .polled) :
    (s.advance b w a').Sound where
  deques := by
    rw [Floor.advance, List.length_set, hd]
    exact h.deques
  places k := by
    obtain ⟨hl, rfl⟩ := List.getElem?_eq_some_iff.1 hw
    have hk := h.places k
    have hs := count_flatMap_set Activity.hand hl a' k
    have hb := hc k
    rw [count_places] at hk ⊢
    change b.pool.jobs.count k + ((s.workers.set w a').flatMap Activity.hand).count k =
      if b.isNotified k then 1 else 0
    omega
  polled v k hv := by
    rcases polls_set hv with ⟨-, ha⟩ | ⟨hne, hv⟩
    · exact (hf k ha).2
    · exact ho v k hne hv
  single v u k hv hu := by
    rcases polls_set hv with ⟨rfl, ha⟩ | ⟨-, hv'⟩ <;> rcases polls_set hu with ⟨rfl, hb⟩ | ⟨-, hu'⟩
    · rfl
    · exact absurd hu' ((hf k ha).1 u)
    · exact absurd hv' ((hf k hb).1 v)
    · exact h.single v u k hv' hu'

theorem spawn (h : s.Sound) {origin : Option Nat} (ho : s.Hosts origin) :
    ({ s with board := (s.board.spawn origin).2 } : Floor).Sound where
  deques := (Pool.length_add _ _ _).trans h.deques
  places k := by
    have hk := h.places k
    rw [count_places] at hk ⊢
    rw [Board.isNotified_spawn]
    change (s.board.pool.add origin s.board.entries.size).jobs.count k + _ = _
    rw [Pool.count_add fun w hw => h.deques ▸ ho w hw, List.count_singleton]
    by_cases hs : k = s.board.entries.size
    · -- The number of the new task was in no place before.
      have hn : s.board.isNotified k = false :=
        Bool.eq_false_iff.2 fun hn => absurd (Board.lt_of_isNotified hn) (by omega)
      simp_all
    · simp_all [Ne.symm hs]
  polled w k hw := by
    have hp := h.polled w k hw
    rwa [Board.phase_spawn (Board.lt_of_phase (by simp [hp]))]
  single := h.single

theorem wake (h : s.Sound) {origin : Option Nat} {t : Nat} (ho : s.Hosts origin)
    (ht : t < s.board.entries.size) :
    ({ s with board := s.board.wake origin t } : Floor).Sound where
  deques := by
    cases hn : s.board.isNotified t with
    | true => simpa [Board.wake_of_notified hn] using h.deques
    | false => simpa [Board.wake_of_unnotified hn] using h.deques
  places k := by
    have hk := h.places k
    rw [count_places] at hk ⊢
    rw [Board.isNotified_wake_eq ht]
    cases hn : s.board.isNotified t with
    | true =>
      -- It has its place already, and the wake changes nothing.
      simp only [Board.wake_of_notified hn, hk]
      by_cases hkt : k = t
      · simp [hkt, hn]
      · simp [hkt]
    | false =>
      simp only [Board.wake_of_unnotified hn]
      rw [Pool.count_add fun w hw => h.deques ▸ ho w hw, List.count_singleton]
      by_cases hkt : k = t
      · simp_all
      · simp_all [Ne.symm hkt]
  polled w k hw := by
    simp only [Board.phase_wake]
    exact h.polled w k hw
  single := h.single

/-- What the queues lose the worker has in its hand. -/
theorem take (h : s.Sound) {t : Nat} {pool : Pool Nat} (hw : s.workers[w]? = some .idle)
    (hg : s.board.pool.Gives w t pool) :
    (s.advance { s.board with pool } w (.holds t)).Sound := by
  have hl := (List.getElem?_eq_some_iff.1 hw).1
  refine h.advance hw hg.length (fun k => ?_) (fun k hk => by cases hk) fun v k _ => h.polled v k
  have hq := hg.count (h.deques ▸ hl) k
  change pool.jobs.count k + [t].count k + (if s.board.isNotified k then 1 else 0) =
    _ + ([] : List Nat).count k + (if s.board.isNotified k then 1 else 0)
  rw [List.count_nil]
  omega

/-- A task that a worker takes up leaves its hand, and its notice is taken away. -/
theorem takeUp (h : s.Sound) {t : Nat} {a : Activity} (hw : s.workers[w]? = some (.holds t))
    (hf : s.Free t) (ha : a.hand = []) (hp : ∀ k, a = .polls k → k = t ∧ s.board.phase t ≠ .over) :
    (s.advance (s.board.begin t) w a).Sound := by
  refine h.advance hw rfl (fun k => ?_) (fun k hk => ?_) fun v k _ hv => ?_
  · -- It was in this hand, hence notified.
    have ht : s.board.isNotified t = true := by
      by_contra hn
      have hmem : t ∈ s.places := List.mem_append_right _
        (List.mem_flatMap.2 ⟨_, List.mem_of_getElem? hw, List.mem_singleton_self t⟩)
      have hc := h.places t
      rw [if_neg hn] at hc
      exact absurd hmem (List.count_eq_zero.1 hc)
    change _ + a.hand.count k + _ = _ + [t].count k + _
    rw [ha, Board.isNotified_begin, List.count_singleton]
    by_cases hk : k = t
    · subst hk
      simp [ht]
      rfl
    · simp [hk, Ne.symm hk]
      rfl
  · obtain ⟨rfl, hne⟩ := hp k hk
    exact ⟨hf, by rw [Board.phase_begin, if_pos ⟨rfl, hne⟩]⟩
  · have hk : k ≠ t := fun hk => hf v (hk ▸ hv)
    rw [Board.phase_begin, if_neg fun h => hk h.1]
    exact h.polled v k hv

/-- The end of a poll changes the phase of its task alone. -/
theorem endPoll (h : s.Sound) {t : Nat} (hw : s.workers[w]? = some (.polls t)) (p : Phase) :
    (s.advance (s.board.setPhase t p) w .idle).Sound := by
  refine h.advance hw rfl (fun k => ?_) (fun k hk => by cases hk) fun v k hne hv => ?_
  · rw [Board.isNotified_setPhase]
    rfl
  · have hk : k ≠ t := fun hk => hne (h.single v w t (hk ▸ hv) hw)
    rw [Board.phase_setPhase_of_ne hk]
    exact h.polled v k hv

theorem step (h : s.Sound) (he : Step s e s') : s'.Sound := by
  cases he with
  | spawn ho => exact h.spawn ho
  | wake ho ht => exact h.wake ho ht
  | take hw hg => exact h.take hw hg
  | begin hw hf hp => exact h.takeUp hw hf rfl fun k hk => by cases hk; exact ⟨rfl, hp⟩
  | pass hw hf hp => exact h.takeUp hw hf rfl fun k hk => by cases hk
  | pause hw => exact h.endPoll hw .resting
  | finish hw => exact h.endPoll hw .over

end Sound

theorem sound_run (h : Run Step (.new n) τ s) : s.Sound :=
  h.invariant (P := fun _ s => s.Sound) (.new n) fun h he => h.step he

/-! ## What every run comes to -/

/-- Until it is taken up, a task that is notified stays so. -/
theorem Step.isNotified (he : Step s e s') (hu : e.takenUp? ≠ some k)
    (hk : s.board.isNotified k = true) : s'.board.isNotified k = true := by
  cases he with
  | spawn ho => exact Board.isNotified_spawn.trans (by simp [hk])
  | wake ho ht => exact (Board.isNotified_wake_eq ht).trans (by simp [hk])
  | take hw hg => exact hk
  | @begin w t hw hf hp =>
    refine Board.isNotified_begin.trans ?_
    have hkt : k ≠ t := fun h => hu (congrArg some h.symm)
    simp [hk, hkt]
  | @pass w t hw hf hp =>
    refine Board.isNotified_begin.trans ?_
    have hkt : k ≠ t := fun h => hu (congrArg some h.symm)
    simp [hk, hkt]
  | pause hw => exact (Board.isNotified_setPhase _).trans hk
  | finish hw => exact (Board.isNotified_setPhase _).trans hk

theorem Step.size_le (he : Step s e s') : s.board.entries.size ≤ s'.board.entries.size := by
  cases he with
  | spawn ho => exact Nat.le_trans (Nat.le_succ _) (Nat.le_of_eq (Array.size_push _).symm)
  | @wake origin t ho ht =>
    cases hn : s.board.isNotified t with
    | true => simp [Board.wake_of_notified hn]
    | false => simp [Board.wake_of_unnotified hn]
  | take hw hg => exact Nat.le_refl _
  | begin hw hf hp => exact Nat.le_of_eq Array.size_modify.symm
  | pass hw hf hp => exact Nat.le_of_eq Array.size_modify.symm
  | pause hw => exact Nat.le_of_eq Array.size_modify.symm
  | finish hw => exact Nat.le_of_eq Array.size_modify.symm

/-- What is over stays so. -/
theorem Step.over (he : Step s e s') (h : s.Sound) (hlt : k < s.board.entries.size)
    (hk : s.board.phase k = .over) : s'.board.phase k = .over := by
  cases he with
  | spawn ho => exact (Board.phase_spawn hlt).trans hk
  | wake ho ht => exact Board.phase_wake.trans hk
  | take hw hg => exact hk
  | begin hw hf hp => exact Board.phase_begin.trans (by rw [if_neg fun h => h.2 hk, hk])
  | pass hw hf hp => exact Board.phase_begin.trans (by rw [if_neg fun h => h.2 hk, hk])
  | @pause w t hw =>
    -- A task that is polled is not over, so this is another one.
    refine (Board.phase_setPhase_of_ne (fun hkt => ?_) _).trans hk
    cases hk.symm.trans (h.polled w k (hkt ▸ hw))
  | @finish w t hw =>
    refine (Board.phase_setPhase_of_ne (fun hkt => ?_) _).trans hk
    cases hk.symm.trans (h.polled w k (hkt ▸ hw))

/-- What is over is not polled. -/
theorem Step.ne_begun (he : Step s e s') (hk : s.board.phase k = .over) (w : Nat) :
    e ≠ .begun w k := by
  rintro rfl
  cases he with
  | begin hw hf hp => exact hp hk

/-- The books behind what has happened. -/
structure Kept (τ : List Event) (s : Floor) : Prop where
  /-- A task that was notified is in one place, once; any other is in none. -/
  places : ∀ k, s.places.count k = if s.board.isNotified k then 1 else 0
  /-- A task that was woken, however often, and was not taken up since, is in one place. -/
  woken : ∀ k τ₁ τ₂, τ = τ₁ ++ .woken k :: τ₂ → (∀ e ∈ τ₂, e.takenUp? ≠ some k) →
    s.places.count k = 1
  /-- No two workers poll a task. -/
  single : ∀ v w k : Nat, s.workers[v]? = some (Activity.polls k) →
    s.workers[w]? = some (Activity.polls k) → v = w
  /-- No poll begins of a task that is over. -/
  finished : ∀ w k τ₁ τ₂, τ = τ₁ ++ .finished w k :: τ₂ → ∀ v, Event.begun v k ∉ τ₂

/-- Whatever is spawned, woken, taken and polled by whomever, no wake is lost, no task is queued
    twice or polled by two at a time, and none is polled when it is over. -/
theorem queued_once (h : Run Step (.new n) τ s) : Kept τ s where
  places := (sound_run h).places
  single := (sound_run h).single
  woken k τ₁ τ₂ hτ hu := by
    obtain ⟨s₁, s₂, h₁, he, h₂⟩ := h.split hτ
    have hk : s₂.board.isNotified k = true := by
      cases he with
      | wake ho ht => exact (Board.isNotified_wake_eq ht).trans (by simp)
    -- From the wake on, the notice stays as long as nobody takes up the task.
    have hs : (∀ e ∈ τ₂, e.takenUp? ≠ some k) → s.board.isNotified k = true :=
      h₂.invariant (P := fun τ s => (∀ e ∈ τ, e.takenUp? ≠ some k) → s.board.isNotified k = true)
        (fun _ => hk) fun ih he hu =>
          he.isNotified (hu _ (by simp)) (ih fun e hm => hu e (by simp [hm]))
    rw [(sound_run h).places, if_pos (hs hu)]
  finished w k τ₁ τ₂ hτ v := by
    obtain ⟨s₁, s₂, h₁, he, h₂⟩ := h.split hτ
    have hs : s₂.Sound := sound_run (h₁.snoc he)
    have hk : k < s₂.board.entries.size ∧ s₂.board.phase k = .over := by
      have hle := he.size_le
      cases he with
      | finish hw =>
        have hp := (sound_run h₁).polled w k hw
        exact ⟨Nat.lt_of_lt_of_le (Board.lt_of_phase (by simp [hp])) hle, Board.phase_retire⟩
    have hi := h₂.invariant (P := fun τ s => s.Sound ∧ (k < s.board.entries.size ∧
        s.board.phase k = .over) ∧ Event.begun v k ∉ τ) ⟨hs, hk, List.not_mem_nil⟩
      fun ⟨hs, ⟨hlt, hk⟩, hv⟩ he => by
        refine ⟨hs.step he, ⟨Nat.lt_of_lt_of_le hlt he.size_le, he.over hs hlt hk⟩, fun hm => ?_⟩
        rcases List.mem_append.1 hm with hm | hm
        · exact hv hm
        · exact he.ne_begun hk v (List.mem_singleton.1 hm).symm
    exact hi.2.2

/-- A task is woken twice while it is polled, by its own worker and from elsewhere; its place is
    then in the hand of a thief, who has to wait for the end of the poll. -/
theorem queued_once_stolen : ∃ (τ : List Event) (s : Floor), Run Step (.new 2) τ s ∧ Kept τ s ∧
    s.workers = [.polls 0, .holds 0] ∧ s.places = [0] := by
  have elsewhere (s : Floor) : s.Hosts none := fun w h => by cases h
  have own {s : Floor} (hs : 0 < s.workers.length) : s.Hosts (some 0) := fun w h => by
    cases h
    exact hs
  have new : Run Step (.new 2) [] _ := .nil
  have begun := new.snoc (.spawn (elsewhere _)) |>.snoc (.take (w := 0) (t := 0) rfl (.common rfl))
    |>.snoc (.begin (w := 0) (t := 0) rfl
      (fun w => by rcases w with _ | _ | w <;> exact fun h => by cases h) (by decide))
  have woken := begun
    |>.snoc (.wake (t := 0) (own (by decide)) (by decide))
    |>.snoc (.wake (t := 0) (elsewhere _) (by decide))
  have run := woken.snoc
    (.take (w := 1) (t := 0) rfl (.stolen (v := 0) [] (by decide) (by decide) rfl))
  exact ⟨_, _, run, queued_once run, rfl, rfl⟩

end Floor

end ResumeOnce.Scheduler
