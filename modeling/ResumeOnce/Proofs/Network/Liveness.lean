import ResumeOnce.Proofs.Network.Conduct

/-!
# Combinations are never stuck

A task that is runnable takes a step. As long as the fold goes on, it is runnable, or waits for
the downstream, or for an event, and then some feeder goes on; when it has ended, the drive is
runnable, or waits for the downstream, or for a feeder that goes on.

* `Node.Kept.fold_runs`, `Node.Kept.drive_runs`: a task that is runnable takes a step;
* `Node.Kept.live`: a combination whose tasks sleep waits for its downstream, or for a feeder
  that goes on;
* `lively_combine`: a combination of lively streams is lively.
-/

namespace ResumeOnce.Network

open Streams

variable {C : Combiner} {S : (i : C.Feeder) → System (C.Input i)} {order : List C.Feeder}

namespace Node

variable {x : Standing} {s s' : Node C S} {m : Move C.Output}

namespace Kept

/-- A fold that is runnable takes a step. -/
theorem fold_runs (h : Kept order x s) (ha : s.Runs .fold) : ∃ m s', Step order s m s' := by
  obtain ⟨t, hr⟩ := h.fed.reached
  have hk := (Combination.kept_run hr).held
  by_cases hc : ∃ c, s.fold.consumer.turn = .stop c
  · obtain ⟨c, hc⟩ := hc
    exact ⟨_, _, .stop ha hc⟩
  · rcases hk.live fun c hc' => hc ⟨c, hc'⟩ with hw | ⟨⟨d, as⟩, f, hs, ho⟩
    · obtain ⟨p, hp⟩ := Fold.Consumer.exists_awaited hw.consumer.parked
      exact ⟨_, _, .park ha hp⟩
    · cases d with
      | sent | cancelled | closed => cases ho
      | reduced | finalized | disposed | tacit => exact ⟨_, _, .fold ha hs trivial⟩
      | pushed v ps =>
        have hn : s.outlet = none := by
          rcases hn : s.outlet with _ | ⟨a, slot⟩
          · rfl
          · obtain rfl := h.outlet_fold ha.2.1 hn
            have hd := h.carried.2 ⟨slot, hn⟩
            simp [hs.pushed.1] at hd
        exact ⟨_, _, .push ha hn hs⟩
      | replied v ps o =>
        obtain ⟨ht, hd, -⟩ := hs.replied
        obtain ⟨slot, hn⟩ := h.carried.1 (by simp [hd])
        rcases slot.poll_cases .fold with ⟨slot', w, hp⟩ | ⟨slot', w, o, hp⟩
        · exact ⟨_, _, .wait ha ha.1 hn hp⟩
        · exact ⟨_, _, .reply ha hn hp (.reply o ht hd)⟩

/-- A drive that is runnable takes a step. -/
theorem drive_runs (h : Kept order x s) (ha : s.Runs .drive) (hs : s.started = true) :
    ∃ m s', Step order s m s' := by
  have hp := h.place
  cases hd : s.drive with
  | awaitFold =>
    rcases s.final.poll_cases .drive with ⟨slot, w, hf⟩ | ⟨slot, w, o, hf⟩
    · exact ⟨_, _, .attend ha hs hd hf⟩
    · exact ⟨_, _, .learn ha hs hd hf⟩
  | cancelFeeder | awaitCancelled =>
    rw [hd] at hp
    cases hp
  | push c =>
    rw [hd] at hp
    rcases ho : s.outlet with _ | ⟨a, slot⟩
    · exact ⟨_, _, .complete ha hs hd ho⟩
    · obtain rfl := h.outlet_drive hp.2 ho
      rcases slot.poll_cases .drive with ⟨slot', w, hq⟩ | ⟨slot', w, o, hq⟩
      · exact ⟨_, _, .wait ha hs ho hq⟩
      · exact ⟨_, _, .completed ha hs hd ho hq⟩
  | awaitFeeder k o c =>
    rw [hd] at hp
    have hk : s.drive.awaits = some k := by rw [hd]; rfl
    obtain ⟨i, hi⟩ : ∃ i, order[k]? = some i := ⟨_, List.getElem?_eq_getElem hp.1⟩
    rcases (s.result i).poll_cases .drive with ⟨slot, w, hq⟩ | ⟨slot, w, o, hq⟩
    · exact ⟨_, _, .linger ha hs hk hi hq⟩
    · exact ⟨_, _, .leave ha hs hk hi hq⟩
  | settled r => exact ⟨_, _, .finish ha hs hd⟩

/-- When a feeder takes a step, so does the combination. -/
theorem feeder_runs (order : List C.Feeder) (hs : s.started = true) {i : C.Feeder}
    (hf : ∃ m state, (S i).Step (s.feeder i) m state) : ∃ m s', Step order s m s' := by
  obtain ⟨m, state, hf⟩ := hf
  cases m with
  | tacit => exact ⟨_, _, .feeder hs hf⟩
  | calls e => exact ⟨_, _, .receive hs hf⟩
  | ends r => exact ⟨_, _, .release hs hf⟩

/-- A combination is over, or waits for its downstream, or takes a step. -/
theorem live [Nonempty C.Feeder] (h : Kept order x s) (T : Tally C) (hl : ∀ i, Lively (S i)) :
    x.finished = true ∨ x.calling = true ∨ ∃ m s', Step order s m s' := by
  rcases hs : s.started with _ | _
  · rcases ho : s.finished with _ | _
    · exact .inr (.inr ⟨_, _, .launch ⟨ho, h.fresh hs .drive⟩ hs⟩)
    · exact .inl (h.finished.trans ho)
  -- Whoever sleeps at its call waits for the downstream.
  have hc : ∀ {a slot}, s.outlet = some (a, slot) → slot.Guards a → x.calling = true := by
    intro a slot ho hg
    have hk := h.called
    rw [ho] at hk
    exact hk.guarded hg
  rcases hf : s.final.isComplete with _ | _
  · -- The fold goes on, or sleeps; and then some feeder goes on.
    rcases h.sleeps .fold with hw | hr
    · exact .inr (.inr (h.fold_runs ⟨hs, hf, hw⟩))
    · cases hr with
      | called ho hg => exact .inr (.inl (hc ho hg))
      | stopped hn => exact absurd (hf.symm.trans hn) (by simp)
      | parked hp hw =>
        obtain ⟨p, hp⟩ := Fold.Consumer.exists_awaited hw
        obtain ⟨i, hi⟩ := h.fed.speaks T hl hp
        exact .inr (.inr (feeder_runs order hs hi))
  · -- The fold has ended. The drive goes on, or sleeps; and then the feeder that it awaits goes on.
    rcases ho : s.finished with _ | _
    · rcases h.sleeps .drive with hw | hr
      · exact .inr (.inr (h.drive_runs ⟨ho, hw⟩ hs))
      · cases hr with
        | called ho hg => exact .inr (.inl (hc ho hg))
        | finished hn => exact absurd (ho.symm.trans hn) (by simp)
        | attending hd hg => exact absurd (hf.symm.trans hg.isComplete) (by simp)
        | lingering hd hi hg =>
          obtain ⟨c, ht⟩ := h.stopped hf
          exact .inr (.inr (feeder_runs order hs (h.fed.rests hl ht hg.isComplete)))
    · exact .inl (h.finished.trans ho)

/-- A combination calls its downstream with one event at a time, and with one completion. -/
theorem calls (h : Kept order x s) {e : Event C.Output} (hs : Step order s (.calls e) s') :
    x.calling = false ∧ x.finished = false ∧ (isCompletion e = true → x.ended = false) := by
  have idle : s.outlet = none → x.calling = false := fun ho => h.called.idle (by rw [ho]; rfl)
  cases hs with
  | push ha ho hs =>
    refine ⟨idle ho, ?_, fun hn => nomatch hn⟩
    rw [h.finished]
    by_contra hn
    exact absurd (ha.2.1.symm.trans (h.last (by simpa using hn))) (by simp)
  | complete ha hs hd ho =>
    have hp := h.place
    rw [hd, ho] at hp
    exact ⟨idle ho, h.finished.trans ha.1, fun _ => hp.1⟩

/-- A combination is over when it has pushed its completion, or was told to stop. -/
theorem ends (h : Kept order x s) {r : Outcome Demand} (hs : Step order s (.ends r) s') :
    x.calling = false ∧ x.finished = false ∧ (x.ended = true ∨ x.dismissed = true) := by
  cases hs with
  | finish ha hs hd =>
    have hp := h.place
    rw [hd] at hp
    have ho := h.silent hp.2 (by simp [hd])
    exact ⟨h.called.idle (by rw [ho]; rfl), h.finished.trans ha.1, hp.1⟩

end Kept

/-- Only who is runnable takes a step. -/
theorem Step.runs (hl : ∀ i, Lively (S i)) (hs : Step order s m s') :
    (System.combine C S order).Runnable s := by
  cases hs with
  | feeder hs hf | receive hs hf | release hs hf => exact .inr ⟨hs, _, (hl _).runs hf⟩
  | _ => exact .inl ⟨_, by assumption⟩

end Node

/-- A combination of streams that are never stuck is never stuck. -/
theorem lively_combine [Nonempty C.Feeder] (T : Tally C) (hC : C.Remembers)
    (hl : ∀ i, Lively (S i)) (order : List C.Feeder) : Lively (System.combine C S order) where
  runs := Node.Step.runs hl
  calls hr hs := (Node.Kept.kept_reaches hC (fun i => (hl i).polite) hr).calls hs
  ends hr hs := (Node.Kept.kept_reaches hC (fun i => (hl i).polite) hr).ends hs
  live hr := (Node.Kept.kept_reaches hC (fun i => (hl i).polite) hr).live T hl

end ResumeOnce.Network
