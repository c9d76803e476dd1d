import ResumeOnce.Proofs.Streams.Pairing

/-!
# Which feeders are done

A machine counts the feeders whose completions it has seen. Its count is right all along
a run, and so a combination that waits for an event does not wait in vain: some feeder has
not sent its completion, and all its events are answered.

* `Done`: the completion of a feeder was reduced;
* `Completions`: a feeder sends at most one;
* `Tally`: how a machine counts, and `Tally.zip`, `Tally.merging`, `Plain.tally`;
* `Counted`, `Counted.step`: the count is right;
* `Coming`, `Coming.step`: whoever has ended comes to be counted;
* `Tallied.speaks`: somebody can still send an event.
-/

namespace ResumeOnce.Streams

open Fold (Consumer Turn Effect)

variable {C : Combiner} {t : List (Seen C)} {e : Seen C} {s s' : Combination C}

/-- The completion of a feeder was reduced. -/
def Done (t : List (Seen C)) (i : C.Feeder) (c : Completion) : Prop :=
  ∃ k effect, .reduced (C.inlet i (.completion c) k) effect ∈ deeds t

theorem Done.snoc {i : C.Feeder} {c : Completion} (h : Done t i c) (e : Seen C) :
    Done (t ++ [e]) i c := by
  obtain ⟨k, effect, hd⟩ := h
  exact ⟨k, effect, mem_deeds_snoc hd e⟩

/-- Nobody is done by what is not a reduction. -/
theorem done_snoc {i : C.Feeder} {c : Completion} (he : ∀ x effect, e.deed ≠ .reduced x effect) :
    Done (t ++ [e]) i c ↔ Done t i c := by
  refine ⟨?_, (·.snoc e)⟩
  rintro ⟨k, effect, hd⟩
  rw [deeds_snoc, List.mem_append, List.mem_singleton] at hd
  exact ⟨k, effect, hd.resolve_right (he _ _).symm⟩

/-! ## Completions -/

/-- A feeder sends at most one completion, and then it has ended. -/
structure Completions (t : List (Seen C)) (s : Combination C) : Prop where
  ended : ∀ i c k f, .sent i (.completion c) k f ∈ deeds t → s.ended i = true
  once : ∀ i c c' k k' f f', .sent i (.completion c) k f ∈ deeds t →
    .sent i (.completion c') k' f' ∈ deeds t → k = k'

namespace Completions

theorem sends (h : Completions t s) {i : C.Feeder} {x : Event (C.Input i)} {k : Nat}
    {f : Option Fault} {as : Answers C.Right} (hx : isCompletion x = true → s.ended i = false)
    (hn : s'.ended = (s.count i x).ended) : Completions (t ++ [⟨.sent i x k f, as⟩]) s' := by
  -- A feeder that sends its completion has sent none before.
  have hnew : ∀ {c l g}, isCompletion x = true → .sent i (.completion c) l g ∉ deeds t :=
    fun hc hm => absurd (h.ended _ _ _ _ hm) (by simp [hx hc])
  refine ⟨?_, ?_⟩
  · intro j c l g hm
    rw [hn]
    rw [deeds_snoc, List.mem_append, List.mem_singleton] at hm
    rcases hm with hm | hm
    · simp [Combination.count, h.ended j c l g hm]
    · cases hm
      simp [Combination.count, isCompletion]
  · intro j c c' l l' g g' hm hm'
    rw [deeds_snoc, List.mem_append, List.mem_singleton] at hm hm'
    rcases hm with hm | hm <;> rcases hm' with hm' | hm'
    · exact h.once j c c' l l' g g' hm hm'
    · cases hm'
      exact absurd hm (hnew rfl)
    · cases hm
      exact absurd hm' (hnew rfl)
    · cases hm
      cases hm'
      rfl

theorem keep (h : Completions t s) (hn : s'.ended = s.ended)
    (he : ∀ i x k f, e.deed ≠ .sent i x k f) : Completions (t ++ [e]) s' := by
  have hm : ∀ {i x k f}, .sent i x k f ∈ deeds (t ++ [e]) → .sent i x k f ∈ deeds t := by
    intro i x k f hm
    rw [deeds_snoc, List.mem_append, List.mem_singleton] at hm
    exact hm.resolve_right (he i x k f).symm
  refine ⟨?_, ?_⟩
  · intro i c k f hd
    rw [hn]
    exact h.ended i c k f (hm hd)
  · intro i c c' k k' f f' hd hd'
    exact h.once i c c' k k' f f' (hm hd) (hm hd')

theorem step (h : Completions t s) (hs : Combination.Step s e s') : Completions (t ++ [e]) s' := by
  cases hs with
  | send i x hi hx =>
    rw [Combination.send]
    split
    · exact h.sends hx rfl
    · exact h.sends hx rfl
  | _ => exact h.keep rfl (by simp)

end Completions

theorem completions_run (h : Run Combination.Step (.new C) t s) : Completions t s := by
  refine h.invariant ⟨?_, ?_⟩ Completions.step
  · simp [deeds]
  · simp [deeds]

/-! ## Counting -/

/-- How the machine of a combiner counts the feeders whose completions it has seen. -/
structure Tally (C : Combiner) where
  /-- Whether a state counts some feeders. -/
  Counts : C.State → Finset C.Feeder → Prop
  /-- An action tells whether it is a completion. -/
  telling : ∀ {i e c k}, C.inlet i e k = C.inlet i (.completion c) k → e = .completion c
  initial : Nonempty C.Feeder → Counts C.initial ∅
  value : ∀ {s D i a k r}, Counts s D → C.reduce s (C.inlet i (.value a) k) = .ok r →
    Counts r.current D
  passed : ∀ {s D i c k r}, Counts s D → i ∉ D →
    C.reduce s (C.inlet i (.completion c) k) = .ok r → r.effect = .none →
    Counts r.current (insert i D)
  emission : ∀ {s D m}, Counts s D → C.emission? s = some m → Counts m.current D
  /-- As long as the machine is ready, it waits for some feeder. -/
  silent : ∀ {s D}, C.Ready s → Counts s D →
    ∃ i, i ∉ D ∧ i ∉ (C.pending s).map (C.sender · |>.1)

/-- An action that is a completion is nothing else. -/
theorem Tally.completion (T : Tally C) {i j : C.Feeder} {x : Event (C.Input i)} {c : Completion}
    {k l : Nat} (h : C.inlet i x k = C.inlet j (.completion c) l) :
    j = i ∧ l = k ∧ x = .completion c := by
  have hs := congrArg C.sender h
  rw [C.sender_inlet, C.sender_inlet] at hs
  obtain ⟨rfl, rfl⟩ := Prod.mk.inj hs
  exact ⟨rfl, rfl, T.telling h⟩

/-- A reduction of a completion is what makes its feeder done. -/
theorem Tally.done_reduced (T : Tally C) {i j : C.Feeder} {x : Event (C.Input i)} {c : Completion}
    {k : Nat} {effect : Effect} {as : Answers C.Right} :
    Done (t ++ [⟨.reduced (C.inlet i x k) effect, as⟩]) j c ↔
      Done t j c ∨ j = i ∧ x = .completion c := by
  constructor
  · rintro ⟨l, effect', hd⟩
    rw [deeds_snoc, List.mem_append, List.mem_singleton] at hd
    rcases hd with hd | hd
    · exact .inl ⟨l, effect', hd⟩
    · obtain ⟨rfl, -, rfl⟩ := T.completion (Deed.reduced.inj hd).1.symm
      exact .inr ⟨rfl, rfl⟩
  · rintro (hd | ⟨rfl, rfl⟩)
    · exact hd.snoc _
    · exact ⟨k, effect, by simp⟩

namespace Tally

/-- A zip counts nobody: the first completion ends it. -/
def zip (α β : Type) : Tally (Combiner.zip α β) where
  Counts _ D := D = ∅
  telling {i e c k} h := by
    cases i with
    | left =>
      obtain ⟨rfl, -⟩ := Zip.Action.left.inj h
      rfl
    | right =>
      obtain ⟨rfl, -⟩ := Zip.Action.right.inj h
      rfl
  initial _ := rfl
  value hD _ := hD
  passed _ _ hr he := by
    rw [Pairing.effect_completion hr] at he
    cases he
  emission hD _ := hD
  silent {s D} hr hD := by
    subst hD
    cases s with
    | nothing => exact ⟨Side.left, Finset.notMem_empty _, List.not_mem_nil⟩
    | hasLeft a r =>
      have hs : Side.left = r.1 := hr
      refine ⟨Side.right, Finset.notMem_empty _, fun hm => ?_⟩
      cases (List.mem_singleton.1 hm).trans hs.symm
    | hasRight b r =>
      have hs : Side.right = r.1 := hr
      refine ⟨Side.left, Finset.notMem_empty _, fun hm => ?_⟩
      cases (List.mem_singleton.1 hm).trans hs.symm
    | hasBoth | finished | errored => cases hr

section Merging

variable {ι ν : Type}

/-- The number of feeders that are running, as a merge counts them. -/
def running? : Merge ν (ι × Nat) → Option Nat
  | .nothing running | .ready _ _ running => some running
  | _ => none

/-- The last feeder that finishes ends a merge, and no other one. -/
theorem reduce_finished (running : Nat) {q : ι × Nat} {r : Reduced (Merge ν (ι × Nat)) (ι × Nat)}
    (hr : Merge.reduce (.nothing running) ⟨.completion .finished, q⟩ = .ok r) :
    (running - 1 = 0 ∧ r = ⟨.finished, [(q, .ok .done)], .completion .finished⟩) ∨
      (running - 1 ≠ 0 ∧ r = ⟨.nothing (running - 1), [(q, .ok .done)], .none⟩) := by
  rw [Merge.reduce] at hr
  split at hr
  · exact .inl ⟨‹_›, (Except.ok.inj hr).symm⟩
  · exact .inr ⟨‹_›, (Except.ok.inj hr).symm⟩

/-- A merge counts the feeders that are running. -/
def merging (ι : Type) [DecidableEq ι] [Fintype ι] (Input : ι → Type) (ν : Type)
    (tag : (i : ι) → Input i → ν) (limit : Nat) (hl : Fintype.card ι ≤ limit) :
    Tally (Combiner.merging ι Input ν tag limit hl) where
  Counts m D := running? m = some (Fintype.card ι - D.card) ∧ D ≠ Finset.univ
  telling {i e c k} h := by
    have he : e.map (tag i) = .completion c := (Merge.Action.mk.inj h).1
    cases e with
    | value a => cases he
    | completion d => cases he; rfl
  initial hne := ⟨rfl, Finset.univ_nonempty.ne_empty.symm⟩
  value {m D i a k r} hD hr := by
    cases m with
    | nothing running =>
      obtain rfl := Except.ok.inj hr
      exact hD
    | ready | finished | errored => cases hr
  passed {m D i c k r} hD hi hr he := by
    cases m with
    | nothing running =>
      cases c with
      | failure f =>
        obtain rfl := Except.ok.inj hr
        cases he
      | finished =>
        obtain rfl : running = Fintype.card ι - D.card := Option.some.inj hD.1
        have hc : (insert i D).card = D.card + 1 := Finset.card_insert_of_notMem hi
        rcases reduce_finished _ hr with ⟨-, rfl⟩ | ⟨hz, rfl⟩
        · cases he
        · refine ⟨by rw [hc]; rfl, ?_⟩
          -- There is one feeder more that is still running.
          intro hu
          rw [hu] at hc
          have hu' : (Finset.univ : Finset ι).card = D.card + 1 := hc
          rw [Finset.card_univ] at hu'
          omega
    | ready | finished | errored => cases hr
  emission {m D x} hD hx := by
    cases m with
    | ready a r running =>
      obtain rfl := Option.some.inj hx
      exact hD
    | nothing | finished | errored => cases hx
  silent {m D} hr hD := by
    cases m with
    | nothing running =>
      obtain ⟨i, hi⟩ : ∃ i, i ∉ D := by
        by_contra! hn
        exact hD.2 (Finset.eq_univ_of_forall hn)
      exact ⟨i, hi, List.not_mem_nil⟩
    | ready | finished | errored => cases hr

end Merging

end Tally

theorem card_side_le : Fintype.card Side ≤ 2 := card_side.le

theorem card_fin_le (n : Nat) : Fintype.card (Fin n) ≤ max n 1 := by
  rw [Fintype.card_fin]
  exact le_max_left n 1

/-- How the machine of a plain combination counts. -/
def Plain.tally : (p : Plain) → Tally p.combiner
  | zip α β => .zip α β
  | select α β => Tally.merging Side (Combiner.Sides α β) (Either α β) _ 2 card_side_le
  | merge α n => Tally.merging (Fin n) (fun _ => α) α (fun _ => id) (max n 1) (card_fin_le n)

/-! ## The count is right -/

/-- The machine counts the feeders that are done. -/
structure Counted (T : Tally C) (t : List (Seen C)) (s : Combination C)
    (D : Finset C.Feeder) : Prop where
  counts : T.Counts s.machine.current D
  done : ∀ i, i ∈ D ↔ ∃ c, Done t i c
  behind : ∀ i c k effect, .reduced (C.inlet i (.completion c) k) effect ∈ deeds t →
    .sent i (.completion c) k none ∈ deeds t ∧ (i, k) ∈ used t
  begins : s.consumer.turn = .start → D = ∅

namespace Counted

variable {T : Tally C} {D : Finset C.Feeder}

/-- Nobody is done by what is not a reduction. -/
theorem keep (h : Counted T t s D) (hc : T.Counts s'.machine.current D)
    (he : ∀ x effect, e.deed ≠ .reduced x effect)
    (ht : s'.consumer.turn = .start → s.consumer.turn = .start) : Counted T (t ++ [e]) s' D where
  counts := hc
  done i := by simp [h.done, done_snoc he]
  behind i c k effect hd := by
    rw [deeds_snoc, List.mem_append, List.mem_singleton] at hd
    obtain ⟨hs, hu⟩ := h.behind i c k effect (hd.resolve_right (he _ _).symm)
    rw [used_snoc]
    exact ⟨mem_deeds_snoc hs e, List.mem_append_left _ hu⟩
  begins hx := h.begins (ht hx)

/-- A feeder whose completion is in hand was not counted before. -/
theorem fresh (h : Counted T t s D) (hk : Combination.Held t s) (hc : Completions t s)
    {i : C.Feeder} {c : Completion} {k : Nat}
    (ht : s.consumer.turn = .reduce (C.inlet i (.completion c) k))
    (hd : .sent i (.completion c) k none ∈ deeds t) : i ∉ D := by
  intro hi
  obtain ⟨c', l, effect, hr⟩ := (h.done i).1 hi
  obtain ⟨hs, hu⟩ := h.behind i c' l effect hr
  obtain rfl : l = k := hc.once i c' c l k none none hs hd
  -- Its sender would be answered already.
  have ho : (i, l) ∈ s.owed := by
    rw [Combination.owed_eq, hk.load_reduce ht .none, List.map_cons, C.sender_inlet]
    simp
  exact (List.nodup_append.1 hk.rights.nodup).2.2 _ hu _ ho rfl

/-- A completion that is reduced is counted. -/
theorem reduce (h : Counted T t s D) (hk : Combination.Held t s) (hc : Completions t s)
    {x : C.Action} {r : Reduced C.State C.Right} (ht : s.consumer.turn = .reduce x)
    (hr : C.reduce s.machine.current x = .ok r) (hn : r.effect = .none) :
    ∃ D', Counted T (t ++ [⟨.reduced x r.effect, r.answers⟩]) (Combination.tell { s with
      consumer := s.consumer.goOn (Turn.next (.reduce x) r.effect)
      machine := { s.machine with current := r.current } } r.answers) D' := by
  obtain ⟨i, y, k, r', rfl, hd, hr', hx⟩ := hk.reduces ht
  obtain rfl : r = r' := Except.ok.inj (hr.symm.trans hr')
  have hb : ∀ j c l effect', .reduced (C.inlet j (.completion c) l) effect' ∈
      deeds (t ++ [⟨.reduced (C.inlet i y k) r.effect, r.answers⟩]) →
      .sent j (.completion c) l none ∈
        deeds (t ++ [⟨.reduced (C.inlet i y k) r.effect, r.answers⟩]) ∧
      (j, l) ∈ used (t ++ [⟨.reduced (C.inlet i y k) r.effect, r.answers⟩]) := by
    intro j c l effect' hm
    rw [deeds_snoc, List.mem_append, List.mem_singleton] at hm
    rw [used_snoc]
    rcases hm with hm | hm
    · obtain ⟨hs, hu⟩ := h.behind j c l effect' hm
      exact ⟨mem_deeds_snoc hs _, List.mem_append_left _ hu⟩
    · obtain ⟨rfl, rfl, rfl⟩ := T.completion (Deed.reduced.inj hm).1.symm
      refine ⟨mem_deeds_snoc hd _, List.mem_append_right _ ?_⟩
      cases hx <;> simp
  have hs : Turn.next (.reduce (C.inlet i y k)) r.effect ≠ .start := by
    rw [hn]
    exact fun hs => nomatch hs
  cases y with
  | value a =>
    refine ⟨D, T.value h.counts hr, ?_, hb, fun hx => absurd hx hs⟩
    intro j
    simp [h.done, T.done_reduced]
  | completion c =>
    refine ⟨insert i D, T.passed h.counts (h.fresh hk hc ht hd) hr hn, ?_, hb,
      fun hx => absurd hx hs⟩
    intro j
    simp only [Finset.mem_insert, h.done, T.done_reduced, exists_or]
    rw [or_comm]
    exact or_congr Iff.rfl ⟨fun hj => ⟨c, hj, rfl⟩, fun ⟨_, hj, _⟩ => hj⟩

/-- Every step of the loop keeps the count right. -/
theorem step [Nonempty C.Feeder] (h : Counted T t s D) (hk : Combination.Held t s)
    (hc : Completions t s) (hs : Combination.Step s e s')
    (hn : s'.consumer.turn.completion? = none) : ∃ D', Counted T (t ++ [e]) s' D' := by
  have hkeep : ∀ x, s.consumer.turn.completion? = some x → False := fun x hx => by
    simp [hk.completion? hs hx] at hn
  cases hs with
  | send i x hi hx =>
    have hd : (∀ y effect, (s.send i x).2.deed ≠ .reduced y effect) ∧
        (s.send i x).1.machine = s.machine := by
      rw [Combination.send]
      split <;> simp [Combination.count]
    refine ⟨D, h.keep (hd.2 ▸ h.counts) hd.1 fun ht => ?_⟩
    rwa [Combination.send_consumer, (hk.sound.write none _).turn] at ht
  | cancel => exact ⟨D, h.keep h.counts (by simp) id⟩
  | close hx =>
    have hd := hk.sound.close (.failure Fault.cancelled)
    exact ⟨D, h.keep h.counts (by simp) fun hs => hd.turn ▸ hs⟩
  | start ht =>
    obtain rfl := h.begins ht
    exact ⟨∅, h.keep (T.initial inferInstance) (by simp) fun _ => ht⟩
  | tacit hf => exact ⟨D, h.keep h.counts (by simp) (hf.leads hk.sound).of_start⟩
  | @reduce x r ht hr =>
    refine h.reduce hk hc ht hr ?_
    rcases he : r.effect with _ | x
    · rfl
    · rw [he] at hn
      cases hn
  | idle ht hd hm => exact ⟨D, h.keep h.counts (by simp) fun hx => by cases hx⟩
  | push ht hd hm => exact ⟨D, h.keep (T.emission h.counts hm) (by simp) id⟩
  | @reply v ps answer ht hd =>
    have he := Consumer.Step.emit (Delivery.ofAnswer answer).result ht
    exact ⟨D, h.keep h.counts (by simp) (he.leads hk.sound).of_start⟩
  | finish ht => exact (hkeep _ (by rw [ht]; rfl)).elim
  | finalize ht => exact (hkeep _ (by rw [ht]; rfl)).elim
  | dispose ht => exact (hkeep _ (by rw [ht]; rfl)).elim

end Counted

theorem counted_new [Nonempty C.Feeder] (T : Tally C) : Counted T [] (.new C) ∅ where
  counts := T.initial inferInstance
  done i := by simp [Done, deeds]
  behind i c k effect hd := by simp [deeds] at hd
  begins _ := rfl

/-! ## Who has ended comes to be done -/

/-- As long as the channel is open, the completion of a feeder that has ended was reduced, or is
    to be. -/
def Coming (t : List (Seen C)) (s : Combination C) : Prop :=
  s.consumer.channel.completion = none → ∀ i, s.ended i = true →
    (∃ c, Done t i c) ∨ ∃ c k, C.inlet i (.completion c) k ∈ s.consumer.load

namespace Coming

/-- Nobody ends, and nothing comes out of the load. -/
theorem keep (h : Coming t s)
    (ho : s'.consumer.channel.completion = none → s.consumer.channel.completion = none)
    (hn : s'.ended = s.ended) (hl : s'.consumer.load = s.consumer.load) :
    Coming (t ++ [e]) s' := by
  intro hx i hi
  rw [hn] at hi
  rw [hl]
  exact (h (ho hx) i hi).imp_left fun ⟨c, hc⟩ => ⟨c, hc.snoc e⟩

/-- A completion that is sent is to be reduced. -/
theorem send (h : Coming t s) {i : C.Feeder} {x : Event (C.Input i)}
    (hs : Combination.Sends s i x e s') : Coming (t ++ [e]) s' := by
  cases hs with
  | refused y hy =>
    intro hx
    exact absurd (hy.symm.trans hx) (by simp)
  | accepted f hf hc ht hx =>
    intro ho j hj
    have hl : (f.load : List C.Action) = s.consumer.load ++ [C.inlet i x (s.sent i)] := hf
    by_cases hji : j = i ∧ isCompletion x = true
    · obtain ⟨rfl, hc⟩ := hji
      cases x with
      | value a => cases hc
      | completion c =>
        refine .inr ⟨c, s.sent j, ?_⟩
        change _ ∈ f.load
        simp [hl]
    · have hj' : s.ended j = true := by
        have hj' : (s.ended j || (j == i && isCompletion x)) = true := hj
        simpa [hji] using hj'
      refine (h (hc ▸ ho) j hj').imp (fun ⟨c, hc⟩ => ⟨c, hc.snoc _⟩) ?_
      rintro ⟨c, k, hm⟩
      refine ⟨c, k, ?_⟩
      change _ ∈ f.load
      rw [hl]
      exact List.mem_append_left _ hm

/-- The action in hand is reduced, and what was behind it is still to be. -/
theorem reduce (h : Coming t s) (hk : Combination.Held t s) {x : C.Action}
    {r : Reduced C.State C.Right} (ht : s.consumer.turn = .reduce x) :
    Coming (t ++ [⟨.reduced x r.effect, r.answers⟩]) (Combination.tell { s with
      consumer := s.consumer.goOn (Turn.next (.reduce x) r.effect)
      machine := { s.machine with current := r.current } } r.answers) := by
  intro ho j hj
  rcases h ho j hj with ⟨c, hj⟩ | ⟨c, l, hm⟩
  · exact .inl ⟨c, hj.snoc _⟩
  · rw [hk.load_reduce ht r.effect, List.mem_cons] at hm
    rcases hm with rfl | hm
    · exact .inl ⟨c, l, r.effect, by simp⟩
    · exact .inr ⟨c, l, hm⟩

/-- Every step keeps this. -/
theorem step (h : Coming t s) (hk : Combination.Held t s) (hs : Combination.Step s e s')
    (hn : s'.consumer.turn.completion? = none) : Coming (t ++ [e]) s' := by
  have hkeep : ∀ x, s.consumer.turn.completion? = some x → False := fun x hx => by
    simp [hk.completion? hs hx] at hn
  cases hs with
  | send i x hi hx => exact h.send (hk.send hi x)
  | cancel => exact h.keep id rfl rfl
  | close hx =>
    have hd := hk.sound.close (.failure Fault.cancelled)
    refine h.keep (fun ho => ?_) rfl hd.load
    simpa [ho] using hd.closes
  | start ht =>
    have hl := (Consumer.Step.start ht).load hk.sound
    exact h.keep id rfl (by simpa using hl.symm)
  | tacit hf =>
    have hl := hf.load hk.sound
    refine h.keep (fun ho => ?_) rfl (by simpa using hl.symm)
    refine ((hf.completion hk.sound).resolve_right ?_).symm.trans ho
    rintro ⟨x, hx, -⟩
    cases hx
  | reduce ht hr => exact h.reduce hk ht
  | idle ht hd hm =>
    have hl := (Consumer.Step.emit (.ok ()) ht).load hk.sound
    exact h.keep id rfl (by simpa using hl.symm)
  | push ht hd hm => exact h.keep id rfl rfl
  | @reply v ps answer ht hd =>
    have hl := (Consumer.Step.emit (Delivery.ofAnswer answer).result ht).load hk.sound
    exact h.keep id rfl (by simpa using hl.symm)
  | finish ht => exact (hkeep _ (by rw [ht]; rfl)).elim
  | finalize ht => exact (hkeep _ (by rw [ht]; rfl)).elim
  | dispose ht => exact (hkeep _ (by rw [ht]; rfl)).elim

end Coming

/-- The machine counts the feeders that are done, and whoever else has ended comes to be. -/
structure Tallied (T : Tally C) (t : List (Seen C)) (s : Combination C) (D : Finset C.Feeder) :
    Prop extends Counted T t s D where
  coming : Coming t s

/-- When a combination waits for an event, some feeder can still send one. -/
theorem Tallied.speaks {T : Tally C} {D : Finset C.Feeder} (h : Tallied T t s D)
    (hk : Combination.Held t s) (hw : s.Waits) :
    ∃ i, s.unanswered i = none ∧ s.ended i = false := by
  obtain ⟨ht, hl⟩ := hw.consumer.reading hk.sound
  have hp := hk.phase
  rw [Combination.Phase, ht] at hp
  obtain ⟨i, hi, hm⟩ := T.silent hp.1 h.counts
  refine ⟨i, ?_, ?_⟩
  · -- Whatever is owed is held by the machine, and nothing of this feeder is.
    refine Option.eq_none_iff_forall_ne_some.2 fun r hr => hm ?_
    obtain ⟨ho, rfl⟩ := (hk.rights.waits i r).2 hr
    rw [Combination.owed_eq, hl, Combination.producers, hp.2, List.map_nil, List.nil_append,
      List.append_nil] at ho
    obtain ⟨x, hx, rfl⟩ := List.mem_map.1 ho
    exact List.mem_map.2 ⟨x, hx, rfl⟩
  · by_contra hs
    rcases h.coming hw.consumer.opened i (by simpa using hs) with hs | ⟨c, k, hs⟩
    · exact hi ((h.done i).2 hs)
    · rw [hl] at hs
      cases hs

theorem tallied_run [Nonempty C.Feeder] (T : Tally C) (h : Run Combination.Step (.new C) t s) :
    s.consumer.turn.completion? = none → ∃ D, Tallied T t s D := by
  refine (h.invariant (P := fun t s => (Combination.Kept t s ∧ Completions t s) ∧
    (s.consumer.turn.completion? = none → ∃ D, Tallied T t s D))
    ⟨⟨Combination.kept_new C, completions_run .nil⟩,
      fun _ => ⟨∅, counted_new T, fun _ i hi => nomatch hi⟩⟩ ?_).2
  rintro t s e s' ⟨⟨hk, hc⟩, hD⟩ hs
  refine ⟨⟨hk.step hs, hc.step hs⟩, fun hn => ?_⟩
  -- As long as the loop goes on behind a step, it went on before.
  obtain ⟨D, hD⟩ := hD (by
    rcases ht : s.consumer.turn.completion? with _ | x
    · rfl
    · simp [hk.held.completion? hs ht] at hn)
  obtain ⟨D', hD'⟩ := hD.step hk.held hc hs hn
  exact ⟨D', hD', hD.coming.step hk.held hs hn⟩

end ResumeOnce.Streams
