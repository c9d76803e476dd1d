import ResumeOnce.Proofs.Streams.Interleaving
import ResumeOnce.Proofs.Streams.Tally

/-!
# Where the values of the feeders are

The feeders of a merge or a selection follow their scripts, each of them waiting for the
answer to an event before it sends the next; the downstream wants more of every value, and
nobody cancels. What was pushed of a feeder is the begin of its values, what comes next is
on its way, and the combination knows who has finished.

* `Follows`: the feeders follow their scripts, and nobody disturbs them;
* `Forwarder`, `Forwarder.merging`: a combiner that pushes one value at a time;
* `Forwarding`: where the values are as long as the loop goes on;
* `Over`: what has ended the combination;
* `Forwarded`, `forwarded_run`: what holds all along a run.
-/

namespace ResumeOnce.Streams

open Fold (Consumer Turn Effect)

variable {C : Combiner} {t : List (Seen C)} {e : Seen C} {s s' : Combination C}

/-- Whether a deed is as it should be: an event is the one that the script of its feeder has at
    this position, the downstream wants more, and nobody cancels. -/
def Deed.Follows (scripts : (i : C.Feeder) → Script (C.Input i)) : Deed C → Prop
  | .sent i x k _ => (scripts i).event? k = some x
  | .replied _ _ answer => answer = .ok .more
  | .cancelled => False
  | _ => True

/-- The feeders follow their scripts, and nobody disturbs them. -/
def Follows (scripts : (i : C.Feeder) → Script (C.Input i)) (t : List (Seen C)) : Prop :=
  ∀ d ∈ deeds t, d.Follows scripts

theorem Follows.of_snoc {scripts : (i : C.Feeder) → Script (C.Input i)}
    (h : Follows scripts (t ++ [e])) : Follows scripts t :=
  fun d hd => h d (mem_deeds_snoc hd e)

theorem Follows.last {scripts : (i : C.Feeder) → Script (C.Input i)}
    (h : Follows scripts (t ++ [e])) : e.deed.Follows scripts :=
  h e.deed (by simp)

theorem Follows.snoc {scripts : (i : C.Feeder) → Script (C.Input i)} (h : Follows scripts t)
    (he : e.deed.Follows scripts) : Follows scripts (t ++ [e]) := by
  intro d hd
  rw [deeds_snoc, List.mem_append, List.mem_singleton] at hd
  rcases hd with hd | rfl
  · exact h d hd
  · exact he

/-! ## What was pushed, and what has failed -/

/-- Whether a value of a feeder is pushed. -/
def Deed.passes (i : C.Feeder) : Deed C → Bool
  | .pushed _ ps => decide (i ∈ ps.map Prod.fst)
  | _ => false

/-- The number of values of a feeder that were pushed. -/
def passed (t : List (Seen C)) (i : C.Feeder) : Nat := (deeds t).countP (Deed.passes i)

/-- The failure that the channel accepts. -/
def Deed.fails : Deed C → Option (C.Feeder × Fault)
  | .sent i (.completion (.failure f)) _ none => some (i, f)
  | _ => none

/-- The failures that the channel has accepted, in order. -/
def failures (t : List (Seen C)) : List (C.Feeder × Fault) := (deeds t).filterMap Deed.fails

theorem passed_snoc (t : List (Seen C)) (e : Seen C) (i : C.Feeder) :
    passed (t ++ [e]) i = passed t i + if e.deed.passes i then 1 else 0 := by
  rw [passed, deeds_snoc, List.countP_append, List.countP_singleton, passed]

theorem passed_snoc_none {t : List (Seen C)} {e : Seen C} (h : e.deed.pushes = none) :
    passed (t ++ [e]) = passed t := by
  funext i
  rw [passed_snoc]
  obtain ⟨d, as⟩ := e
  cases d with
  | pushed => cases h
  | _ => rfl

theorem failures_snoc (t : List (Seen C)) (e : Seen C) :
    failures (t ++ [e]) = failures t ++ e.deed.fails.toList := by
  rw [failures, deeds_snoc, List.filterMap_append, ← failures]
  cases h : e.deed.fails <;> simp [h]

theorem failures_snoc_none {t : List (Seen C)} {e : Seen C} (h : e.deed.fails = none) :
    failures (t ++ [e]) = failures t := by
  rw [failures_snoc, h]
  exact List.append_nil _

/-! ## Forwarders -/

/-- A combiner that pushes one value at a time, as the feeder tagged it, and ends with the last
    feeder that finishes, or with a failure. -/
structure Forwarder (C : Combiner) where
  tally : Tally C
  tag : (i : C.Feeder) → C.Input i → C.Output
  /-- The failure in an action. -/
  failing : C.Action → Option (C.Feeder × Fault)
  failing_inlet : ∀ i x k, failing (C.inlet i x k) = Deed.fails (C := C) (.sent i x k none)
  tagged : ∀ {i a v}, C.carries i a v → tag i a = v
  empty : ∀ {s}, C.Ready s → C.pending s = []
  single : ∀ {s m}, C.emission? s = some m → ∃ x, C.pending s = [x]
  running : ∀ {s D}, tally.Counts s D → D ≠ Finset.univ
  failure : ∀ {s i f k r}, C.reduce s (C.inlet i (.completion (.failure f)) k) = .ok r →
    r.effect = .completion (.failure f)
  finished : ∀ {s D i k r}, tally.Counts s D → i ∉ D →
    C.reduce s (C.inlet i (.completion .finished) k) = .ok r →
    r.effect = .none ∨ r.effect = .completion .finished ∧ insert i D = Finset.univ

/-- A merge of streams whose values are tagged as they come in. -/
def Forwarder.merging (ι : Type) [DecidableEq ι] [Fintype ι] (Input : ι → Type) (ν : Type)
    (tag : (i : ι) → Input i → ν) (limit : Nat) (hl : Fintype.card ι ≤ limit) :
    Forwarder (Combiner.merging ι Input ν tag limit hl) where
  tally := .merging ι Input ν tag limit hl
  tag := tag
  failing
    | ⟨.completion (.failure f), r⟩ => some (r.1, f)
    | _ => none
  failing_inlet i x k := by
    rcases x with a | _ | f <;> rfl
  tagged h := h
  empty {m} hm := by
    cases m with
    | nothing running => rfl
    | ready | finished | errored => cases hm
  single {m x} hx := by
    cases m with
    | ready a r running => exact ⟨_, rfl⟩
    | nothing | finished | errored => cases hx
  running hD := hD.2
  failure {m i f k r} hr := by
    cases m with
    | nothing running =>
      obtain rfl := Except.ok.inj hr
      rfl
    | ready | finished | errored => cases hr
  finished {m D i k r} hD hi hr := by
    cases m with
    | nothing running =>
      obtain rfl : running = Fintype.card ι - D.card := Option.some.inj hD.1
      rcases Tally.reduce_finished _ hr with ⟨hz, rfl⟩ | ⟨-, rfl⟩
      · refine .inr ⟨rfl, ?_⟩
        -- All the others were counted, so that with this one there are all of them.
        have hc : (insert i D : Finset ι).card = D.card + 1 := Finset.card_insert_of_notMem hi
        have hle : (insert i D : Finset ι).card ≤ Fintype.card ι := Finset.card_le_univ _
        exact (Finset.card_eq_iff_eq_univ (insert i D : Finset ι)).1 (by omega)
      · exact .inl rfl
    | ready | finished | errored => cases hr

/-! ## Where the values are -/

variable {values : (i : C.Feeder) → List (C.Input i)} {ending : C.Feeder → Completion}

/-- The scripts with some values, and a completion behind each of them. -/
def scripts (values : (i : C.Feeder) → List (C.Input i)) (ending : C.Feeder → Completion)
    (i : C.Feeder) : Script (C.Input i) := .finite (values i) (ending i)

theorem event?_value {i : C.Feeder} {a : C.Input i} {k : Nat}
    (h : (scripts values ending i).event? k = some (.value a)) : (values i)[k]? = some a :=
  Script.value?_of_event? h

theorem event?_completion {i : C.Feeder} {c : Completion} {k : Nat}
    (h : (scripts values ending i).event? k = some (.completion c)) :
    k = (values i).length ∧ c = ending i := by
  obtain ⟨hl, hc⟩ := Script.length_of_event? h
  exact ⟨(Nat.cast_inj.1 hl).symm, (Option.some.inj hc).symm⟩

theorem event?_le {i : C.Feeder} {x : Event (C.Input i)} {k : Nat}
    (h : (scripts values ending i).event? k = some x) : k ≤ (values i).length := by
  cases x with
  | value a => exact (List.getElem?_eq_some_iff.1 (event?_value h)).1.le
  | completion c => exact (event?_completion h).1.le

theorem exists_event? (ending : C.Feeder → Completion) {i : C.Feeder} {k : Nat}
    (hk : k ≤ (values i).length) :
    ∃ x, (scripts values ending i).event? k = some x := by
  rcases Nat.lt_or_eq_of_le hk with hk | hk
  · exact ⟨.value (values i)[k], by simp [scripts, Script.event?, hk, hk.ne]⟩
  · exact ⟨.completion (ending i), by simp [scripts, Script.event?, hk]⟩

/-- As long as the loop goes on: what was pushed of a feeder is behind it, and its event that is
    on its way is the next one; and whoever is done has finished. -/
structure Forwarding (F : Forwarder C) (values : (i : C.Feeder) → List (C.Input i))
    (t : List (Seen C)) (s : Combination C) : Prop where
  undisturbed : s.consumer.Undisturbed
  latest : ∀ i r, s.unanswered i = some r → s.sent i = r.2 + 1
  idle : ∀ i, s.unanswered i = none →
    s.sent i = passed t i ∨ Done t i .finished ∧ s.sent i = passed t i + 1
  moving : ∀ r ∈ s.transit.map C.sender, r.2 = passed t r.1
  downstream : ∀ r ∈ s.producers, r.2 + 1 = passed t r.1
  finishing : ∀ i c, Done t i c → c = .finished ∧ passed t i = (values i).length
  arrived : failures t = s.consumer.load.filterMap F.failing

namespace Forwarding

variable {F : Forwarder C}

/-- Nothing moves but from the load into the machine. -/
theorem keep (h : Forwarding F values t s) (hu : s'.consumer.Undisturbed) {l : List C.Action}
    (hl : s.consumer.load = l ++ s'.consumer.load) (hx : l.filterMap F.failing = [])
    (hm : C.pending s'.machine.current ⊆ l ++ C.pending s.machine.current)
    (hd : s'.delivering = s.delivering) (hn : s'.sent = s.sent)
    (ha : s'.unanswered = s.unanswered) (hp : e.deed.pushes = none) (hr : e.deed.fails = none)
    (hdone : ∀ i c, Done (t ++ [e]) i c ↔ Done t i c) : Forwarding F values (t ++ [e]) s' := by
  -- What is on its way was on its way before, in the load or in the machine.
  have ht : s'.transit ⊆ s.transit := by
    rw [Combination.transit, Combination.transit, hl]
    intro y hy
    rcases List.mem_append.1 hy with hy | hy
    · simp [hy]
    · rcases List.mem_append.1 (hm hy) with hy | hy <;> simp [hy]
  have ho : s'.producers = s.producers := by
    rw [Combination.producers, hd, ← Combination.producers]
  have hpt : passed (t ++ [e]) = passed t := passed_snoc_none hp
  refine ⟨hu, ?_, ?_, ?_, ?_, ?_, ?_⟩
  · rw [hn, ha]
    exact h.latest
  · intro i hi
    rw [ha] at hi
    rw [hn, hpt, hdone]
    exact h.idle i hi
  · intro r hr
    rw [hpt]
    exact h.moving r (List.map_subset _ ht hr)
  · rw [ho, hpt]
    exact h.downstream
  · intro i c hc
    rw [hpt]
    exact h.finishing i c ((hdone i c).1 hc)
  · rw [failures_snoc_none hr, h.arrived, hl, List.filterMap_append, hx, List.nil_append]

/-- The next event of a feeder is on its way. -/
theorem send (h : Forwarding F values t s) {i : C.Feeder} {x : Event (C.Input i)}
    (hi : s.unanswered i = none) (hf : Follows (scripts values ending) (t ++ [e]))
    (hs : Combination.Sends s i x e s') (hu : s'.consumer.Undisturbed) :
    Forwarding F values (t ++ [e]) s' := by
  cases hs with
  | refused y hy => simp [h.undisturbed.opened] at hy
  | accepted f hload hc ht hx =>
    -- Whoever has finished has no more to send.
    have hk : s.sent i = passed t i := by
      refine (h.idle i hi).resolve_right ?_
      rintro ⟨hd, hk⟩
      have hle : s.sent i ≤ (values i).length := event?_le hf.last
      rw [hk, (h.finishing i _ hd).2] at hle
      omega
    have hp : passed (t ++ [⟨.sent i x (s.sent i) none, []⟩]) = passed t := passed_snoc_none rfl
    have hdone : ∀ j c, Done (t ++ [⟨.sent i x (s.sent i) none, []⟩]) j c ↔ Done t j c :=
      fun j c => done_snoc (by simp)
    refine ⟨hu, ?_, ?_, ?_, ?_, ?_, ?_⟩
    · intro j r hj
      change (s.count i x).unanswered j = _ at hj
      change (s.count i x).sent j = _
      by_cases hji : j = i
      · subst hji
        rw [Combination.count_unanswered_self] at hj
        obtain rfl := Option.some.inj hj
        exact s.count_sent_self j x
      · rw [s.count_unanswered_ne hji] at hj
        rw [s.count_sent_ne hji]
        exact h.latest j r hj
    · intro j hj
      change (s.count i x).unanswered j = _ at hj
      change (s.count i x).sent j = _ ∨ _ ∧ (s.count i x).sent j = _
      by_cases hji : j = i
      · subst hji
        rw [Combination.count_unanswered_self] at hj
        cases hj
      · rw [s.count_unanswered_ne hji] at hj
        rw [s.count_sent_ne hji, hp, hdone]
        exact h.idle j hj
    · intro r hr
      rw [Combination.transit, hload, List.append_assoc] at hr
      rw [hp]
      obtain ⟨y, hy, rfl⟩ := List.mem_map.1 hr
      rcases List.mem_append.1 hy with hy | hy
      · exact h.moving _ (List.mem_map_of_mem (List.mem_append_left _ hy))
      · rcases List.mem_cons.1 hy with rfl | hy
        · rw [C.sender_inlet]
          exact hk
        · exact h.moving _ (List.mem_map_of_mem (List.mem_append_right _ hy))
    · rw [hp]
      exact h.downstream
    · intro j c hd
      rw [hp]
      exact h.finishing j c ((hdone j c).1 hd)
    · -- A failure arrives as it enters the load.
      rw [failures_snoc, h.arrived, hload, List.filterMap_append]
      refine congrArg (_ ++ ·) ?_
      rw [List.filterMap_cons, F.failing_inlet]
      cases Deed.fails (C := C) (.sent i x (s.sent i) none) <;> rfl

/-- Of whom the value is that is pushed, and that it is the next one. -/
theorem next (h : Forwarding F values t s) (hk : Combination.Held t s)
    (hf : Follows (scripts values ending) t) {m : Emission C.State C.Right C.Output}
    (hm : C.emission? s.machine.current = some m) : ∃ i a,
      C.pending s.machine.current = [C.inlet i (.value a) (passed t i)] ∧
      m.producers = [(i, passed t i)] ∧ F.tag i a = m.value ∧
      (values i)[passed t i]? = some a := by
  obtain ⟨x, hx⟩ := F.single hm
  obtain ⟨-, -, hps, hc⟩ := C.emission?_some hm
  obtain ⟨i, a, k, rfl, hd⟩ := hk.known.pending x (hx ▸ List.mem_cons_self)
  have hmem : (i, k) ∈ s.transit.map C.sender := by
    rw [Combination.transit, hx, List.map_append, List.map_singleton, C.sender_inlet]
    simp
  obtain rfl : k = passed t i := h.moving _ hmem
  refine ⟨i, a, hx, ?_, F.tagged (hc i a _ (hx ▸ List.mem_cons_self)), event?_value (hf _ hd)⟩
  rw [hps, hx, List.map_singleton, C.sender_inlet]

/-- What is pushed of a feeder is what follows on what was pushed of it before. -/
theorem passed_pushed {m : Emission C.State C.Right C.Output} {i : C.Feeder} {k : Nat}
    (hm : m.producers = [(i, k)]) (he : e.deed = .pushed m.value m.producers) (j : C.Feeder) :
    passed (t ++ [e]) j = passed t j + if j = i then 1 else 0 := by
  rw [passed_snoc, he, hm]
  simp [Deed.passes]

/-- A value goes downstream, and its feeder waits for the answer to it. -/
theorem push (h : Forwarding F values t s) (hk : Combination.Held t s)
    (hf : Follows (scripts values ending) t) {m : Emission C.State C.Right C.Output}
    (hm : C.emission? s.machine.current = some m) (hc : s'.consumer = s.consumer)
    (hm' : s'.machine.current = m.current) (hd : s'.delivering = some (m.value, m.producers))
    (hn : s'.sent = s.sent) (ha : s'.unanswered = s.unanswered)
    (he : e.deed = .pushed m.value m.producers) : Forwarding F values (t ++ [e]) s' := by
  obtain ⟨i, a, hx, hps, -, hv⟩ := h.next hk hf hm
  obtain ⟨-, hp, -⟩ := C.emission?_some hm
  have hpt := passed_pushed (t := t) hps he
  have hne : ∀ j, j ≠ i → passed (t ++ [e]) j = passed t j := fun j hj => by
    rw [hpt, if_neg hj]
    rfl
  have hdone : ∀ j c, Done (t ++ [e]) j c ↔ Done t j c := fun j c => done_snoc (by simp [he])
  -- The machine holds the right of this feeder, so nothing else of it is owed.
  have hw : s.unanswered i = some (i, passed t i) := by
    refine (hk.rights.waits i _).1 ⟨?_, rfl⟩
    rw [Combination.owed_eq, hx, List.map_singleton, C.sender_inlet]
    simp
  have hload : ∀ y ∈ s.consumer.load, (C.sender y).1 ≠ i := by
    intro y hy hyi
    have hnd := hk.rights.feeders_nodup
    rw [Combination.owed_eq, hx, List.map_singleton, C.sender_inlet, List.map_append,
      List.map_append, List.nodup_append] at hnd
    refine (List.nodup_append.1 hnd.1).2.2 _ (List.mem_map_of_mem (List.mem_map_of_mem hy)) i ?_ hyi
    simp
  refine ⟨hc ▸ h.undisturbed, ?_, ?_, ?_, ?_, ?_, ?_⟩
  · rw [hn, ha]
    exact h.latest
  · intro j hj
    rw [ha] at hj
    have hji : j ≠ i := by
      rintro rfl
      simp [hw] at hj
    rw [hn, hne j hji, hdone]
    exact h.idle j hj
  · intro r hr
    rw [Combination.transit, hc, hm', hp, List.append_nil] at hr
    obtain ⟨y, hy, rfl⟩ := List.mem_map.1 hr
    rw [hne _ (hload y hy)]
    exact h.moving _ (List.mem_map_of_mem (List.mem_append_left _ hy))
  · intro r hr
    rw [Combination.producers, hd, hps] at hr
    obtain rfl := List.mem_singleton.1 hr
    rw [hpt, if_pos rfl]
  · intro j c hd
    obtain ⟨hc, hl⟩ := h.finishing j c ((hdone j c).1 hd)
    have hji : j ≠ i := by
      rintro rfl
      have hlt := (List.getElem?_eq_some_iff.1 hv).1
      omega
    rw [hne j hji]
    exact ⟨hc, hl⟩
  · rw [failures_snoc_none (by rw [he]; rfl), hc]
    exact h.arrived

/-- The downstream wants more. -/
theorem reply (h : Forwarding F values t s) (hk : Combination.Held t s) {v : C.Output}
    {ps : List C.Right} (hd : s.delivering = some (v, ps)) (hu : s'.consumer.Undisturbed)
    (hl : s'.consumer.load = s.consumer.load) (hm : s'.machine.current = s.machine.current)
    (hd' : s'.delivering = none) (hn : s'.sent = s.sent)
    (ha : s'.unanswered = (s.tell (ps.map (·, .ok .more))).unanswered) (hp : e.deed.pushes = none)
    (hr : e.deed.fails = none) (hdone : ∀ i c, Done (t ++ [e]) i c ↔ Done t i c) :
    Forwarding F values (t ++ [e]) s' := by
  have hpt : passed (t ++ [e]) = passed t := passed_snoc_none hp
  have hps : s.producers = ps := by rw [Combination.producers, hd]
  refine ⟨hu, ?_, ?_, ?_, ?_, ?_, ?_⟩
  · intro i r hi
    rw [ha] at hi
    rw [hn]
    exact h.latest i r (Option.filter_eq_some_iff.1 hi).1
  · intro i hi
    rw [ha] at hi
    rw [hn, hpt, hdone]
    rcases hi' : s.unanswered i with _ | r
    · exact h.idle i hi'
    · -- Its value went downstream, and was answered now.
      have hm : r ∈ ps := by simpa [Combination.tell, hi', Function.comp_def] using hi
      have hri : r.1 = i := ((hk.rights.waits i r).2 hi').2
      rw [h.latest i r hi', h.downstream r (hps ▸ hm), hri]
      exact .inl rfl
  · rw [Combination.transit, hl, hm, hpt]
    exact h.moving
  · intro r hr
    rw [Combination.producers, hd'] at hr
    cases hr
  · intro i c hc
    rw [hpt]
    exact h.finishing i c ((hdone i c).1 hc)
  · rw [failures_snoc_none hr, hl]
    exact h.arrived

/-- A feeder has finished, and others have not. -/
theorem finish (h : Forwarding F values t s) (hk : Combination.Held t s) {i : C.Feeder} {k : Nat}
    (hv : k = (values i).length) (hu : s'.consumer.Undisturbed)
    (hl : s.consumer.load = C.inlet i (.completion .finished) k :: s'.consumer.load)
    (hm : C.pending s'.machine.current = C.pending s.machine.current)
    (hd : s'.delivering = s.delivering) (hn : s'.sent = s.sent)
    (ha : s'.unanswered = (s.tell [((i, k), .ok .done)]).unanswered)
    (hp : e.deed.pushes = none) (hr : e.deed.fails = none)
    (hdone : ∀ j c, Done (t ++ [e]) j c ↔ Done t j c ∨ j = i ∧ c = .finished) :
    Forwarding F values (t ++ [e]) s' := by
  have ht : s'.transit ⊆ s.transit := by
    rw [Combination.transit, Combination.transit, hl, hm]
    exact List.subset_cons_self _ _
  have ho : s'.producers = s.producers := by
    rw [Combination.producers, hd, ← Combination.producers]
  have hpt : passed (t ++ [e]) = passed t := passed_snoc_none hp
  have hki : k = passed t i := by
    refine h.moving (i, k) ?_
    rw [Combination.transit, hl, List.cons_append, List.map_cons, C.sender_inlet]
    exact List.mem_cons_self
  refine ⟨hu, ?_, ?_, ?_, ?_, ?_, ?_⟩
  · intro j r hj
    rw [ha] at hj
    rw [hn]
    exact h.latest j r (Option.filter_eq_some_iff.1 hj).1
  · intro j hj
    rw [ha] at hj
    rw [hn, hpt, hdone]
    rcases hj' : s.unanswered j with _ | r
    · exact (h.idle j hj').imp_right (.imp_left .inl)
    · -- It has the answer to its completion now.
      obtain rfl : r = (i, k) := by simpa [Combination.tell, hj'] using hj
      obtain rfl : i = j := ((hk.rights.waits j _).2 hj').2
      exact .inr ⟨.inr ⟨rfl, rfl⟩, by rw [h.latest i _ hj', ← hki]⟩
  · intro r hr
    rw [hpt]
    exact h.moving r (List.map_subset _ ht hr)
  · rw [ho, hpt]
    exact h.downstream
  · intro j c hc
    rw [hpt]
    rcases (hdone j c).1 hc with hc | ⟨rfl, rfl⟩
    · exact h.finishing j c hc
    · exact ⟨rfl, hki.symm.trans hv⟩
  · rw [failures_snoc_none hr, h.arrived, hl, List.filterMap_cons, F.failing_inlet]
    rfl

end Forwarding

/-! ## The end -/

/-- The last feeder that finishes has ended the combination, or the first failure that arrived,
    behind all the values of its feeder. -/
structure Over (values : (i : C.Feeder) → List (C.Input i)) (t : List (Seen C)) (c : Completion) :
    Prop where
  finished : c = .finished → ∀ i, Done t i .finished ∧ passed t i = (values i).length
  failed : ∀ f, c = .failure f → ∃ i, Done t i (.failure f) ∧
    (failures t).head? = some (i, f) ∧ passed t i = (values i).length
  only : ∀ i f, Done t i (.failure f) → c = .failure f

/-- Nothing is pushed or reduced any more. -/
theorem Over.snoc {c : Completion} (h : Over values t c) (hp : e.deed.pushes = none)
    (hd : ∀ x effect, e.deed ≠ .reduced x effect) : Over values (t ++ [e]) c where
  finished hc i := by
    rw [passed_snoc_none hp]
    exact (h.finished hc i).imp_left (·.snoc e)
  failed f hc := by
    obtain ⟨i, hd, hh, hl⟩ := h.failed f hc
    refine ⟨i, hd.snoc e, ?_, by rw [passed_snoc_none hp, hl]⟩
    rw [failures_snoc, List.head?_append, hh]
    rfl
  only i f hf := h.only i f ((done_snoc hd).1 hf)

/-- What holds all along a run in which the feeders follow their scripts. -/
structure Forwarded (F : Forwarder C) (values : (i : C.Feeder) → List (C.Input i))
    (ending : C.Feeder → Completion) (t : List (Seen C)) (s : Combination C) : Prop where
  interleaving : Interleaving F.tag (fun i => (values i).take (passed t i)) (pushed t)
  within : ∀ i, passed t i ≤ (values i).length
  done : ∀ i c, Done t i c → c = ending i
  looping : s.consumer.turn.completion? = none → Forwarding F values t s
  ended : ∀ c, s.consumer.turn.completion? = some c → Over values t c

namespace Forwarded

variable {F : Forwarder C} {D : Finset C.Feeder}

/-- Whatever a step comes to, nothing is pushed by it. -/
theorem of_not_pushed (h : Forwarded F values ending t s) (hp : e.deed.pushes = none)
    (hd : ∀ i c, Done (t ++ [e]) i c → c = ending i)
    (hl : s'.consumer.turn.completion? = none → Forwarding F values (t ++ [e]) s')
    (ho : ∀ c, s'.consumer.turn.completion? = some c → Over values (t ++ [e]) c) :
    Forwarded F values ending (t ++ [e]) s' where
  interleaving := by
    rw [passed_snoc_none hp, pushed_snoc_none hp]
    exact h.interleaving
  within := by
    rw [passed_snoc_none hp]
    exact h.within
  done := hd
  looping := hl
  ended := ho

/-- The loop goes on, and nobody is done. -/
theorem of_looping (h : Forwarded F values ending t s) (hp : e.deed.pushes = none)
    (hd : ∀ i c, Done (t ++ [e]) i c ↔ Done t i c) (hl : Forwarding F values (t ++ [e]) s')
    (hn : s'.consumer.turn.completion? = none) : Forwarded F values ending (t ++ [e]) s' :=
  h.of_not_pushed hp (fun i c hc => h.done i c ((hd i c).1 hc)) (fun _ => hl)
    fun c hc => by simp [hn] at hc

/-- After the end, nothing changes. -/
theorem step_ended {c : Completion} (h : Forwarded F values ending t s)
    (hk : Combination.Held t s) (hs : Combination.Step s e s')
    (hc : s.consumer.turn.completion? = some c) : Forwarded F values ending (t ++ [e]) s' := by
  have he : e.deed.pushes = none ∧ ∀ x effect, e.deed ≠ .reduced x effect := by
    cases hs with
    | send i x hi hx =>
      rw [Combination.send]
      split <;> simp [Deed.pushes]
    | push ht hd hm => simp [ht, Turn.completion?] at hc
    | reduce ht hm => simp [ht, Turn.completion?] at hc
    | _ => simp [Deed.pushes]
  have hc' := hk.completion? hs hc
  refine h.of_not_pushed he.1 (fun i x hx => h.done i x ((done_snoc he.2).1 hx)) ?_ ?_
  · intro hn
    simp [hc'] at hn
  · intro c' hx
    obtain rfl := Option.some.inj (hc'.symm.trans hx)
    exact (h.ended c hc).snoc he.1 he.2

/-- Whoever is done by a reduction is so with the completion of its script. -/
theorem done_reduce (h : Forwarded F values ending t s) {i : C.Feeder} {c : Completion} {k : Nat}
    {effect : Effect} {as : Answers C.Right} (hc : c = ending i) (j : C.Feeder) (c' : Completion)
    (hd : Done (t ++ [⟨.reduced (C.inlet i (.completion c) k) effect, as⟩]) j c') :
    c' = ending j := by
  rcases F.tally.done_reduced.1 hd with hd | ⟨rfl, hj⟩
  · exact h.done j c' hd
  · exact (Event.completion.inj hj).symm.trans hc

/-- A value is held; a completion is done with, and ends the combination if it is the last one or
    a failure. -/
theorem step_reduce (h : Forwarded F values ending t s) (hk : Combination.Kept t s)
    (hcs : Completions t s) (hD : Tallied F.tally t s D) (hf : Follows (scripts values ending) t)
    {x : C.Action} {r : Reduced C.State C.Right} (ht : s.consumer.turn = .reduce x)
    (hr : C.reduce s.machine.current x = .ok r) :
    Forwarded F values ending (t ++ [⟨.reduced x r.effect, r.answers⟩]) (Combination.tell { s with
      consumer := s.consumer.goOn (Turn.next (.reduce x) r.effect)
      machine := { s.machine with current := r.current } } r.answers) := by
  have hl := h.looping (by rw [ht]; rfl)
  have hu := (Consumer.Step.reduce r.effect ht).undisturbed hk.held.sound hl.undisturbed
    (by simp) rfl
  have hload := hk.held.load_reduce ht r.effect
  obtain ⟨i, y, k, r', rfl, hd, hr', hx⟩ := hk.held.reduces ht
  obtain rfl : r = r' := Except.ok.inj (hr.symm.trans hr')
  have hdone : ∀ j c, Done (t ++ [⟨.reduced (C.inlet i y k) r.effect, r.answers⟩]) j c ↔
      Done t j c ∨ j = i ∧ y = .completion c := fun j c => F.tally.done_reduced
  cases hx with
  | held a m hp hm =>
    rw [Combination.tell_nil]
    have hdone' : ∀ j c, Done (t ++ [⟨.reduced (C.inlet i (.value a) k) .none, []⟩]) j c ↔
        Done t j c := fun j c => by simp [hdone]
    refine h.of_looping rfl hdone' ?_ rfl
    refine hl.keep (l := [_]) hu hload ?_ (fun y hy => hp.mem_iff.1 hy) rfl rfl rfl rfl rfl hdone'
    rw [List.filterMap_cons, F.failing_inlet]
    rfl
  | passed c m hp hm =>
    obtain ⟨hv, hce⟩ := event?_completion (hf _ hd)
    cases c with
    | failure f => cases F.failure hr
    | finished =>
      refine h.of_not_pushed rfl (h.done_reduce hce) (fun _ => ?_) fun _ hx => by cases hx
      refine hl.finish hk.held hv hu hload hp rfl rfl rfl rfl rfl fun j c => ?_
      rw [hdone, Event.completion.injEq, eq_comm (a := Completion.finished)]
  | ended c m hp =>
    obtain ⟨hv, hce⟩ := event?_completion (hf _ hd)
    have hki : k = passed t i := by
      refine hl.moving (i, k) ?_
      rw [Combination.transit, hload, List.cons_append, List.map_cons, C.sender_inlet]
      exact List.mem_cons_self
    refine h.of_not_pushed rfl (h.done_reduce hce) (fun hn => by cases hn) ?_
    intro c' hc'
    obtain rfl : c = c' := Option.some.inj hc'
    refine ⟨?_, ?_, ?_⟩
    · -- The others have finished before.
      rintro rfl j
      have hj : j ∈ insert i D := by
        rcases F.finished hD.counts (hD.fresh hk.held hcs ht hd) hr with hx | ⟨-, hx⟩
        · cases hx
        · rw [hx]
          exact Finset.mem_univ j
      rw [passed_snoc_none rfl]
      rcases Finset.mem_insert.1 hj with rfl | hj
      · exact ⟨(hdone j _).2 (.inr ⟨rfl, rfl⟩), hki.symm.trans hv⟩
      · obtain ⟨c, hj⟩ := (hD.done j).1 hj
        obtain ⟨rfl, hl⟩ := hl.finishing j c hj
        exact ⟨hj.snoc _, hl⟩
    · -- No failure was reduced before, and the load is in the order of arrival.
      rintro f rfl
      refine ⟨i, (hdone i _).2 (.inr ⟨rfl, rfl⟩), ?_, ?_⟩
      · rw [failures_snoc_none rfl, hl.arrived, hload, List.filterMap_cons, F.failing_inlet]
        rfl
      · rw [passed_snoc_none rfl]
        exact hki.symm.trans hv
    · intro j f hj
      rcases (hdone j _).1 hj with hj | ⟨-, hj⟩
      · cases (hl.finishing j _ hj).1
      · exact Event.completion.inj hj

theorem step_looping (h : Forwarded F values ending t s) (hk : Combination.Kept t s)
    (hcs : Completions t s) (hD : Tallied F.tally t s D)
    (hf : Follows (scripts values ending) (t ++ [e])) (hs : Combination.Step s e s')
    (hn : s.consumer.turn.completion? = none) : Forwarded F values ending (t ++ [e]) s' := by
  have hl := h.looping hn
  have hu := hl.undisturbed
  have hself : ∀ xs : List C.Action, xs ⊆ [] ++ xs := fun xs => List.Subset.refl xs
  cases hs with
  | send i x hi hx =>
    have hs := hk.held.send hi x
    have hu' := (Combination.send_step s i x).undisturbed hk.held.sound hu (by simp) rfl
    have he : (s.send i x).2.deed.pushes = none ∧
        ∀ y effect, (s.send i x).2.deed ≠ .reduced y effect := by
      rw [Combination.send]
      split <;> simp [Deed.pushes]
    refine h.of_looping he.1 (fun j c => done_snoc he.2) (hl.send hi hf hs hu') ?_
    rw [Combination.send_consumer, (hk.held.sound.write none _).turn]
    exact hn
  | cancel => exact hf.last.elim
  | close hc => simp [hu.allowed] at hc
  | start ht =>
    have hs := Consumer.Step.start ht
    have hd : ∀ i c, Done (t ++ [⟨.tacit, []⟩]) i c ↔ Done t i c := fun i c => done_snoc (by simp)
    refine h.of_looping rfl hd ?_ rfl
    refine hl.keep (l := []) (hs.undisturbed hk.held.sound hu (by simp) rfl) ?_ rfl ?_
      rfl rfl rfl rfl rfl hd
    · simpa using hs.load hk.held.sound
    · simp [Machine.new, C.pending_initial]
  | tacit hx =>
    have hd : ∀ i c, Done (t ++ [⟨.tacit, []⟩]) i c ↔ Done t i c := fun i c => done_snoc (by simp)
    refine h.of_looping rfl hd ?_ (hx.loops hk.held.sound hu hn)
    refine hl.keep (l := []) (hx.undisturbed hk.held.sound hu (by simp) rfl) ?_ rfl (hself _)
      rfl rfl rfl rfl rfl hd
    simpa using hx.load hk.held.sound
  | reduce ht hm => exact h.step_reduce hk hcs hD hf.of_snoc ht hm
  | idle ht hd hm =>
    have hs := Consumer.Step.emit (.ok ()) ht
    have hd : ∀ i c, Done (t ++ [⟨.tacit, []⟩]) i c ↔ Done t i c := fun i c => done_snoc (by simp)
    refine h.of_looping rfl hd ?_ rfl
    refine hl.keep (l := []) (hs.undisturbed hk.held.sound hu (by simp) rfl) ?_ rfl (hself _)
      rfl rfl rfl rfl rfl hd
    simpa using hs.load hk.held.sound
  | @push m ht hd hm =>
    obtain ⟨i, a, -, hps, hv, ha⟩ := hl.next hk.held hf.of_snoc hm
    have hpt := Forwarding.passed_pushed (t := t) (e := ⟨.pushed m.value m.producers, []⟩) hps rfl
    refine ⟨?_, ?_, ?_, fun _ => hl.push hk.held hf.of_snoc hm rfl rfl rfl rfl rfl rfl, ?_⟩
    · have hi := h.interleaving.take_succ (passed t) i rfl ha hpt
      rw [hv] at hi
      rw [pushed_snoc]
      exact hi
    · intro j
      rw [hpt]
      by_cases hj : j = i
      · subst hj
        rw [if_pos rfl]
        exact (List.getElem?_eq_some_iff.1 ha).1
      · rw [if_neg hj]
        exact h.within j
    · intro j c hc
      exact h.done j c ((done_snoc (by simp)).1 hc)
    · intro c hc
      simp [hn] at hc
  | @reply v ps answer ht hd =>
    obtain rfl : answer = .ok .more := hf.last
    have hs := Consumer.Step.emit (.ok ()) ht
    have hdone : ∀ i c, Done (t ++ [⟨.replied v ps (.ok .more), ps.map (·, .ok .more)⟩]) i c ↔
        Done t i c := fun i c => done_snoc (by simp)
    refine h.of_looping rfl hdone ?_ rfl
    refine hl.reply hk.held hd (hs.undisturbed hk.held.sound hu (by simp) rfl) ?_ rfl rfl rfl rfl
      rfl rfl hdone
    have hl' : s.consumer.load = (s.consumer.goOn (Turn.next .emit (.ok ()))).load := by
      simpa using hs.load hk.held.sound
    exact hl'.symm
  | finish ht => simp [ht, Turn.completion?] at hn
  | finalize ht => simp [ht, Turn.completion?] at hn
  | dispose ht => simp [ht, Turn.completion?] at hn

end Forwarded

theorem forwarded_new (F : Forwarder C) : Forwarded F values ending [] (.new C) where
  interleaving := .nil
  within _ := Nat.zero_le _
  done i c := by
    rintro ⟨k, effect, hd⟩
    simp [deeds] at hd
  looping _ := {
    undisturbed := Consumer.undisturbed_new _
    latest _ _ h := nomatch h
    idle _ _ := .inl rfl
    moving r hr := by
      have ht : (Combination.new C).transit = [] := C.pending_initial
      simp [ht] at hr
    downstream _ h := nomatch h
    finishing i c := by
      rintro ⟨k, effect, hd⟩
      simp [deeds] at hd
    arrived := rfl }
  ended _ h := nomatch h

theorem forwarded_run [Nonempty C.Feeder] (F : Forwarder C)
    (h : Run Combination.Step (.new C) t s) :
    Follows (scripts values ending) t → Forwarded F values ending t s := by
  -- What such a run keeps needs what every run keeps.
  refine (h.invariant (P := fun t s => Run Combination.Step (.new C) t s ∧
    (Follows (scripts values ending) t → Forwarded F values ending t s))
    ⟨.nil, fun _ => forwarded_new F⟩ fun ⟨hr, hp⟩ hs => ⟨hr.snoc hs, fun hf => ?_⟩).2
  have hk := Combination.kept_run hr
  have hfw := hp hf.of_snoc
  rcases hn : Turn.completion? _ with _ | c
  · obtain ⟨D, hD⟩ := tallied_run F.tally hr hn
    exact hfw.step_looping hk (completions_run hr) hD hf hs hn
  · exact hfw.step_ended hk.held hs hn

end ResumeOnce.Streams
