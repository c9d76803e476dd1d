import Mathlib.Data.Fin.VecNotation
import ResumeOnce.Proofs.Streams.Forwarding

/-!
# Merges and selections forward every value

As long as the downstream wants more and nobody cancels, a merge or a selection pushes
every value once, and the values of one feeder in their own order. The last feeder that
finishes ends it, or the first failure that arrives.

* `fuel`, `Forwarded.fuel_lt`: every step takes some of what is left;
* `Forwarded.goes_on`: a combination that is not final goes on;
* `Merged`, `merged`: what every run comes to.
-/

namespace ResumeOnce.Streams

open Fold (Consumer Turn Effect)

variable {C : Combiner} {t : List (Seen C)} {e : Seen C} {s s' : Combination C}
  {values : (i : C.Feeder) → List (C.Input i)} {ending : C.Feeder → Completion}

/-! ## A run comes to an end -/

/-- The steps that the consumer can still take, apart from those for its load. -/
def stage (s : Combination C) : Nat :=
  match s.consumer.turn with
  | .start => 4
  | .checkpoint => 3
  | .read => if s.consumer.awaited.isSome then 1 else 2
  | .reduce _ => 0
  | .emit => 4 + if s.delivering.isSome then 1 else 2 * (C.pending s.machine.current).length
  | .close _ => 3
  | .finalize _ => 2
  | .drain _ => 1
  | .dispose _ _ => 0
  | .stop _ => 0

/-- The number of events that the feeders have still to send. -/
def unsent (values : (i : C.Feeder) → List (C.Input i)) (s : Combination C) : Nat :=
  ∑ i, ((values i).length + 1 - s.sent i)

/-- The steps that are left, at most. -/
def fuel (values : (i : C.Feeder) → List (C.Input i)) (s : Combination C) : Nat :=
  8 * unsent values s + 7 * s.consumer.load.length + stage s

/-- Whoever neither sends an event nor takes one out of the load comes to a lower stage. -/
theorem fuel_stage (hn : s'.sent = s.sent) (hl : s'.consumer.load.length = s.consumer.load.length)
    (hs : stage s' < stage s) : fuel values s' < fuel values s := by
  rw [fuel, fuel, unsent, hn, ← unsent, hl]
  exact Nat.add_lt_add_left hs _

/-- Whoever takes an event out of the load has seven steps for it. -/
theorem fuel_load {x : C.Action} (hn : s'.sent = s.sent)
    (hl : s.consumer.load = x :: s'.consumer.load) (hs : stage s' < stage s + 7) :
    fuel values s' < fuel values s := by
  rw [fuel, fuel, unsent, hn, ← unsent, hl, List.length_cons]
  omega

theorem unsent_send {i : C.Feeder} {k : Nat} (hk : k = s.sent i) (hle : k ≤ (values i).length)
    (hn : s'.sent = Function.update s.sent i (k + 1)) :
    unsent values s = unsent values s' + 1 := by
  have hu : ∀ j, (values j).length + 1 - s.sent j =
      ((values j).length + 1 - s'.sent j) + if j = i then 1 else 0 := by
    intro j
    by_cases hj : j = i
    · subst hj
      rw [hn, Function.update_self, if_pos rfl, ← hk]
      omega
    · rw [hn, Function.update_of_ne hj, if_neg hj]
      exact (Nat.add_zero _).symm
  rw [unsent, unsent, Finset.sum_congr rfl fun j _ => hu j, Finset.sum_add_distrib,
    Finset.sum_ite_eq' Finset.univ i, if_pos (Finset.mem_univ i)]

namespace Forwarded

variable {F : Forwarder C}

/-- An event that is sent brings one more into the load, at most. -/
theorem fuel_send (h : s.consumer.Sound) {i : C.Feeder} {x : Event (C.Input i)}
    (hle : s.sent i ≤ (values i).length) : fuel values (s.send i x).1 < fuel values s := by
  have hw := h.write none (C.inlet i x (s.sent i))
  have hn : (s.send i x).1.sent = Function.update s.sent i (s.sent i + 1) := by
    rw [Combination.send]
    split <;> rfl
  have hd : (s.send i x).1.delivering = s.delivering ∧ (s.send i x).1.machine = s.machine := by
    rw [Combination.send]
    split <;> exact ⟨rfl, rfl⟩
  have hstage : stage (s.send i x).1 = stage s := by
    rw [stage, stage, Combination.send_consumer, hw.turn, hw.waits, hd.1, hd.2]
  have hload : (s.send i x).1.consumer.load.length ≤ s.consumer.load.length + 1 := by
    rw [Combination.send_consumer, hw.load h, List.length_append]
    exact Nat.add_le_add_left (Fold.Event.length_accepted_le _) _
  rw [fuel, fuel, hstage, unsent_send rfl hle hn]
  omega

/-- A value that is held is pushed, and a completion is done with. -/
theorem fuel_reduce (h : Combination.Held t s) {x : C.Action}
    {r : Reduced C.State C.Right} (ht : s.consumer.turn = .reduce x)
    (hr : C.reduce s.machine.current x = .ok r) (F : Forwarder C) :
    fuel values (Combination.tell { s with
      consumer := s.consumer.goOn (Turn.next (.reduce x) r.effect)
      machine := { s.machine with current := r.current } } r.answers) < fuel values s := by
  have hp := h.phase
  rw [Combination.Phase, ht] at hp
  obtain ⟨i, y, k, r', rfl, -, hr', hx⟩ := h.reduces ht
  obtain rfl : r = r' := Except.ok.inj (hr.symm.trans hr')
  refine fuel_load rfl (h.load_reduce ht r.effect) ?_
  cases hx with
  | held a m hm _ =>
    have hl : (C.pending m).length = 1 := by rw [hm.length_eq, F.empty hp.1]; rfl
    simp [stage, Turn.next, hp.2, hl]
  | passed c m hm _ =>
    have hl : C.pending m = [] := hm.trans (F.empty hp.1)
    simp [stage, Turn.next, hp.2, hl]
  | ended c m _ => simp [stage, Turn.next]

/-- A consumer that goes on by itself comes to a lower stage. -/
theorem fuel_tacit (h : s.consumer.Sound)
    (hu : s.consumer.turn.completion? = none → s.consumer.Undisturbed) {f : Consumer Nat C.Action}
    (hf : Consumer.Step s.consumer .tacit f) :
    fuel values { s with consumer := f } < fuel values s := by
  have hl : s.consumer.load = f.load := by simpa using hf.load h
  refine fuel_stage rfl (by rw [hl]) ?_
  cases hf with
  | checkpoint ht =>
    have hu := hu (by rw [ht]; rfl)
    have ha := h.awaits_nothing (by simp [ht])
    simp [stage, Consumer.checkpoint, hu.allowed, Turn.next, ht, ha]
  | read p ht ha =>
    have hu := hu (by rw [ht]; rfl)
    have hr := h.read ha p
    generalize s.consumer.read p = f at hr
    cases hr with
    | took r a ws c hq hs => simp [stage, ht, ha]
    | closed x hx hq => simp [hu.opened] at hx
    | parked c ho hq hs => simp [stage, ht, ha]
  | @resume p o ht ha =>
    have hu := hu (by rw [ht]; rfl)
    rcases o with x | a
    · exact absurd ha (hu.untold p x)
    · simp [stage, Turn.next, ht, ha]
  | drain ht =>
    rcases hr : s.consumer.channel.tryRead.result with x | a <;> simp [stage, Turn.next, ht]

/-- Every step takes some of what is left. -/
theorem fuel_lt (h : Forwarded F values ending t s) (hk : Combination.Kept t s)
    (hf : Follows (scripts values ending) (t ++ [e])) (hs : Combination.Step s e s') :
    fuel values s' < fuel values s := by
  have hsound := hk.held.sound
  have hu : s.consumer.turn.completion? = none → s.consumer.Undisturbed :=
    fun hn => (h.looping hn).undisturbed
  have hload : ∀ {c : Fold.Call C.Action} {f}, Consumer.Step s.consumer (.called c) f →
      c.taken = [] → f.load.length = s.consumer.load.length := by
    intro c f hc ht
    have hl := hc.load hsound
    simp only [Fold.Event.accepted, Fold.Event.calls, Fold.Event.withdrawals, Fold.taken_cons, ht,
      Fold.taken_nil, List.append_nil, List.nil_append] at hl
    rw [hl]
  cases hs with
  | send i x hi hx =>
    have hl := hf.last
    have hx : (scripts values ending i).event? (s.sent i) = some x := by
      rw [Combination.send] at hl
      split at hl <;> exact hl
    exact fuel_send hsound (event?_le hx)
  | cancel => exact hf.last.elim
  | close hc => exact (hf.of_snoc _ (hk.closes.cancelled hc)).elim
  | start ht =>
    refine fuel_stage rfl (hload (.start ht) rfl) ?_
    simp [stage, Turn.next, ht]
  | tacit hx => exact fuel_tacit hsound hu hx
  | reduce ht hr => exact fuel_reduce hk.held ht hr F
  | idle ht hd hm =>
    refine fuel_stage rfl (hload (.emit (.ok ()) ht) rfl) ?_
    simp [stage, Turn.next, ht, hd]
    omega
  | @push m ht hd hm =>
    obtain ⟨x, hx⟩ := F.single hm
    refine fuel_stage rfl rfl ?_
    simp [stage, ht, hd, hx]
  | @reply v ps answer ht hd =>
    refine fuel_stage rfl (hload (.emit _ ht) rfl) ?_
    obtain rfl : answer = .ok .more := hf.last
    simp [stage, Delivery.ofAnswer, Turn.next, ht, hd]
  | @finish c ht =>
    have hl := (Consumer.Step.finish ht).load hsound
    refine fuel_stage rfl ?_ ?_
    · rw [show s.consumer.load = (s.consumer.finish c).load by simpa using hl]
    · simp [stage, Consumer.finish, Turn.next, ht]
  | @finalize c ht =>
    refine fuel_stage rfl (hload (.finalize ht) rfl) ?_
    simp [stage, Turn.next, ht]
  | @dispose x c ht =>
    have hl := (Consumer.Step.dispose ht).load hsound
    refine fuel_load (x := x) rfl (by simpa using hl) ?_
    simp [stage, Turn.next, ht]

/-- A combination that is not final goes on, and the feeders follow their scripts. -/
theorem goes_on (h : Forwarded F values ending t s) (hk : Combination.Kept t s)
    (hc : Completions t s)
    (hD : s.consumer.turn.completion? = none → ∃ D, Tallied F.tally t s D)
    (hf : Follows (scripts values ending) t) (hn : ∀ c, s.consumer.turn ≠ .stop c) :
    ∃ e s', Combination.Step s e s' ∧ Follows (scripts values ending) (t ++ [e]) := by
  rcases hk.held.live hn with hw | ⟨e, s', hs, ho⟩
  · -- Some feeder can still send an event, and its script has one.
    have hr : s.consumer.turn.completion? = none := by
      rw [(hw.consumer.reading hk.held.sound).1]
      rfl
    obtain ⟨D, hD⟩ := hD hr
    obtain ⟨i, hi, he⟩ := hD.speaks hk.held hw
    have hsent : s.sent i = passed t i := by
      refine ((h.looping hr).idle i hi).resolve_right ?_
      rintro ⟨⟨k, effect, hd⟩, -⟩
      simp [hc.ended i _ k none (hD.behind i _ k effect hd).1] at he
    obtain ⟨x, hx⟩ := exists_event? ending (hsent ▸ h.within i)
    refine ⟨_, _, .send i x hi fun _ => he, hf.snoc ?_⟩
    rw [Combination.send]
    split <;> exact hx
  · cases hs with
    | send i x hi hx =>
      rw [Combination.send] at ho
      split at ho <;> exact ho.elim
    | cancel | close => exact ho.elim
    | reply answer ht hd => exact ⟨_, _, .reply (.ok .more) ht hd, hf.snoc rfl⟩
    | start ht => exact ⟨_, _, .start ht, hf.snoc trivial⟩
    | tacit hx => exact ⟨_, _, .tacit hx, hf.snoc trivial⟩
    | reduce ht hr => exact ⟨_, _, .reduce ht hr, hf.snoc trivial⟩
    | idle ht hd hm => exact ⟨_, _, .idle ht hd hm, hf.snoc trivial⟩
    | push ht hd hm => exact ⟨_, _, .push ht hd hm, hf.snoc trivial⟩
    | finish ht => exact ⟨_, _, .finish ht, hf.snoc trivial⟩
    | finalize ht => exact ⟨_, _, .finalize ht, hf.snoc trivial⟩
    | dispose ht => exact ⟨_, _, .dispose ht, hf.snoc trivial⟩

end Forwarded

/-- What a merge or a selection comes to, when its feeders follow their scripts, the downstream
    wants more of every value, and nobody cancels. -/
structure Merged (tag : (i : C.Feeder) → C.Input i → C.Output)
    (values : (i : C.Feeder) → List (C.Input i)) (ending : C.Feeder → Completion)
    (t : List (Seen C)) (s : Combination C) : Prop where
  /-- At every moment, the first values of all the feeders were pushed, in some interleaving. -/
  interleaved : Interleaving tag (fun i => (values i).take (passed t i)) (pushed t)
  /-- The last feeder that finishes ends it, and none before. -/
  finished_iff : s.consumer.turn.completion? = some .finished ↔ ∀ i, Done t i .finished
  /-- A failure ends it at once, with that failure. -/
  failed_iff : ∀ f, s.consumer.turn.completion? = some (.failure f) ↔ ∃ i, Done t i (.failure f)
  /-- When it has finished, every value was pushed once. -/
  whole : s.consumer.turn.completion? = some .finished →
    Interleaving tag values (pushed t) ∧ (pushed t).length = ∑ i, (values i).length
  /-- When it has failed, this was the first failure that arrived, and all the values of its feeder
      were pushed. -/
  first : ∀ f, s.consumer.turn.completion? = some (.failure f) →
    ∃ i, ending i = .failure f ∧ (failures t).head? = some (i, f) ∧
      (values i).take (passed t i) = values i
  /-- If all feeders finish, it ends in no other way. -/
  finishes : (∀ i, ending i = .finished) →
    ∀ c, s.consumer.turn.completion? = some c → c = .finished
  /-- If some feeder fails, it does not finish. -/
  fails : ∀ i f, ending i = .failure f → s.consumer.turn.completion? ≠ some .finished
  /-- Until it is final it goes on, and the feeders follow their scripts. -/
  goes_on : (∀ c, s.consumer.turn ≠ .stop c) →
    ∃ e s', Combination.Step s e s' ∧ Follows (scripts values ending) (t ++ [e])
  /-- It does not go on for ever. -/
  bounded : t.length ≤ 8 * ∑ i, ((values i).length + 1) + 4

/-- A run is not longer than what was left at its begin. -/
theorem length_le_fuel [Nonempty C.Feeder] (F : Forwarder C)
    (h : Run Combination.Step (.new C) t s) : Follows (scripts values ending) t →
      t.length + fuel values s ≤ 8 * ∑ i, ((values i).length + 1) + 4 := by
  refine (h.invariant (P := fun t s => Run Combination.Step (.new C) t s ∧
    (Follows (scripts values ending) t →
      t.length + fuel values s ≤ 8 * ∑ i, ((values i).length + 1) + 4))
    ⟨.nil, fun _ => ?_⟩ fun ⟨hr, hp⟩ hs => ⟨hr.snoc hs, fun hf => ?_⟩).2
  · rw [fuel, unsent]
    exact (Nat.zero_add _).le
  · have hlt := (forwarded_run F hr hf.of_snoc).fuel_lt (Combination.kept_run hr) hf hs
    have hle := hp hf.of_snoc
    rw [List.length_append, List.length_singleton]
    omega

/-- What every run of a forwarder comes to. -/
theorem Forwarder.comes_to [Nonempty C.Feeder] (F : Forwarder C)
    (h : Run Combination.Step (.new C) t s) (hf : Follows (scripts values ending) t) :
    Merged F.tag values ending t s := by
  have hfw := forwarded_run F h hf
  have hk := Combination.kept_run h
  have hD := tallied_run F.tally h
  -- Whoever is done has one completion, that of its script.
  have hne : ∀ {i f}, Done t i (.failure f) → Done t i .finished → False := fun {i f} hd hd' => by
    cases (hfw.done i _ hd).trans (hfw.done i _ hd').symm
  refine ⟨hfw.interleaving, ⟨fun hc i => ?_, fun hd => ?_⟩, fun f => ⟨fun hc => ?_, ?_⟩,
    fun hc => ?_, fun f hc => ?_, fun he c hc => ?_, fun i f he hc => ?_,
    hfw.goes_on hk (completions_run h) hD hf,
    (Nat.le_add_right _ _).trans (length_le_fuel F h hf)⟩
  · exact (((hfw.ended _ hc).finished rfl) i).1
  · rcases hn : s.consumer.turn.completion? with _ | _ | f
    · obtain ⟨D, hD⟩ := hD hn
      exact absurd (Finset.eq_univ_of_forall fun i => (hD.done i).2 ⟨_, hd i⟩)
        (F.running hD.counts)
    · rfl
    · obtain ⟨i, hi, -⟩ := (hfw.ended _ hn).failed f rfl
      exact (hne hi (hd i)).elim
  · obtain ⟨i, hi, -⟩ := (hfw.ended _ hc).failed f rfl
    exact ⟨i, hi⟩
  · rintro ⟨i, hi⟩
    rcases hn : s.consumer.turn.completion? with _ | c
    · cases ((hfw.looping hn).finishing i _ hi).1
    · rw [(hfw.ended c hn).only i f hi]
  · have hv : (fun i => (values i).take (passed t i)) = values := by
      funext i
      rw [((hfw.ended _ hc).finished rfl i).2, List.take_length]
    have hi := hfw.interleaving
    rw [hv] at hi
    exact ⟨hi, hi.length_eq⟩
  · obtain ⟨i, hi, hh, hl⟩ := (hfw.ended _ hc).failed f rfl
    exact ⟨i, (hfw.done i _ hi).symm, hh, by rw [hl, List.take_length]⟩
  · rcases c with _ | f
    · rfl
    · obtain ⟨i, hi, -⟩ := (hfw.ended _ hc).failed f rfl
      exact (hfw.done i _ hi).trans (he i)
  · have hd := hfw.done i _ ((hfw.ended _ hc).finished rfl i).1
    cases hd.trans he

/-- The tags of a selection. -/
def Combiner.sided {α β : Type} : (i : Side) → Combiner.Sides α β i → Either α β
  | .left => .left
  | .right => .right

/-- Merges and selections forward every value, in whatever order the events of their feeders
    come; and from the output of a selection each of both streams can be told. -/
theorem merged :
    (∀ (α : Type) (n : Nat) (values : Fin n → List α) (ending : Fin n → Completion)
      (t : List (Seen (Combiner.merge α n))) (s : Combination (Combiner.merge α n)), 0 < n →
      Run Combination.Step (.new (Combiner.merge α n)) t s →
      Follows (C := Combiner.merge α n) (scripts values ending) t →
      Merged (C := Combiner.merge α n) (fun _ => id) values ending t s) ∧
    (∀ (α β : Type) (values : (i : Side) → List (Combiner.Sides α β i))
      (ending : Side → Completion) (t : List (Seen (Combiner.select α β)))
      (s : Combination (Combiner.select α β)),
      Run Combination.Step (.new (Combiner.select α β)) t s →
      Follows (C := Combiner.select α β) (scripts values ending) t →
      Merged (C := Combiner.select α β) Combiner.sided values ending t s ∧
      (pushed t).filterMap Either.left? =
        (values .left).take (passed (C := Combiner.select α β) t Side.left) ∧
      (pushed t).filterMap Either.right? =
        (values .right).take (passed (C := Combiner.select α β) t Side.right)) := by
  refine ⟨fun α n values ending t s hn h hf => ?_, fun α β values ending t s h hf => ?_⟩
  · have : Nonempty (Combiner.merge α n).Feeder := ⟨(⟨0, hn⟩ : Fin n)⟩
    exact Forwarder.comes_to (C := Combiner.merge α n)
      (.merging (Fin n) (fun _ => α) α (fun _ => id) (max n 1) (card_fin_le n)) h hf
  · have : Nonempty (Combiner.select α β).Feeder := ⟨Side.left⟩
    have hm : Merged (C := Combiner.select α β) Combiner.sided values ending t s :=
      Forwarder.comes_to (C := Combiner.select α β)
        (.merging Side (Combiner.Sides α β) (Either α β) _ 2 card_side_le) h hf
    refine ⟨hm, ?_, ?_⟩
    · refine hm.interleaved.filterMap_eq (i := Side.left) (fun a => rfl) ?_
      intro j hj b
      cases j with
      | left => exact absurd rfl hj
      | right => rfl
    · refine hm.interleaved.filterMap_eq (i := Side.right) (fun a => rfl) ?_
      intro j hj a
      cases j with
      | left => rfl
      | right => exact absurd rfl hj

/-- The second feeder of a merge fails behind its value, while a value of the first one is in the
    channel; and the feeders of a selection finish one after the other. -/
theorem merged_failing_and_finishing :
    (∃ (t : List (Seen (Combiner.merge Nat 2))) (s : Combination (Combiner.merge Nat 2)),
      Run Combination.Step (.new (Combiner.merge Nat 2)) t s ∧
      Follows (C := Combiner.merge Nat 2)
        (scripts (![[5, 6], [7]] : Fin 2 → List Nat) ![.finished, .failure Fault.cancelled]) t ∧
      Merged (C := Combiner.merge Nat 2) (fun _ => id) (![[5, 6], [7]] : Fin 2 → List Nat)
        ![.finished, .failure Fault.cancelled] t s ∧
      s.consumer.turn = .stop (.failure Fault.cancelled) ∧ pushed t = ([5, 7] : List Nat)) ∧
    (∃ (t : List (Seen (Combiner.select Nat Nat))) (s : Combination (Combiner.select Nat Nat)),
      Run Combination.Step (.new (Combiner.select Nat Nat)) t s ∧
      Follows (C := Combiner.select Nat Nat)
        (scripts (fun | .left => ([1] : List Nat) | .right => ([] : List Nat))
          fun _ => .finished) t ∧
      Merged (C := Combiner.select Nat Nat) Combiner.sided
        (fun | .left => ([1] : List Nat) | .right => ([] : List Nat)) (fun _ => .finished) t s ∧
      s.consumer.turn = .stop .finished ∧ pushed t = [.left 1]) := by
  constructor
  · have new : Run Combination.Step (.new (Combiner.merge Nat 2)) [] _ := .nil
    have sent := new.snoc (.send (0 : Fin 2) (.value (5 : Nat)) rfl (fun _ => rfl))
      |>.snoc (.send (1 : Fin 2) (.value (7 : Nat)) rfl (fun _ => rfl))
    have first := sent.snoc (.start rfl) |>.snoc (.tacit (.checkpoint rfl))
      |>.snoc (.tacit (.read 0 rfl rfl)) |>.snoc (.reduce rfl rfl) |>.snoc (.push rfl rfl rfl)
      |>.snoc (.reply (.ok .more) rfl rfl)
    have second := first.snoc (.tacit (.checkpoint rfl))
      |>.snoc (.tacit (.read 1 rfl rfl)) |>.snoc (.reduce rfl rfl) |>.snoc (.push rfl rfl rfl)
      |>.snoc (.reply (.ok .more) rfl rfl)
    have sent := second.snoc
      (.send (1 : Fin 2) (.completion (.failure Fault.cancelled)) rfl (fun _ => rfl))
      |>.snoc (.send (0 : Fin 2) (.value (6 : Nat)) rfl (fun _ => rfl))
    have ended := sent.snoc (.tacit (.checkpoint rfl)) |>.snoc (.tacit (.read 2 rfl rfl))
      |>.snoc (.reduce rfl rfl) |>.snoc (.finish (c := .failure Fault.cancelled) rfl)
      |>.snoc (.finalize (c := .failure Fault.cancelled) rfl)
    have run := ended.snoc (.tacit (.drain (c := .failure Fault.cancelled) rfl))
      |>.snoc (.dispose (c := .failure Fault.cancelled) rfl)
      |>.snoc (.tacit (.drain (c := .failure Fault.cancelled) rfl))
    obtain ⟨t, s, run, hd, ht⟩ : ∃ (t : List (Seen (Combiner.merge Nat 2)))
        (s : Combination (Combiner.merge Nat 2)),
        Run Combination.Step (.new (Combiner.merge Nat 2)) t s ∧
          deeds t = [.sent (0 : Fin 2) (.value (5 : Nat)) 0 none,
            .sent (1 : Fin 2) (.value (7 : Nat)) 0 none, .tacit, .tacit, .tacit,
            .reduced ⟨.value (5 : Nat), (0 : Fin 2), 0⟩ .none, .pushed (5 : Nat) [((0 : Fin 2), 0)],
            .replied (5 : Nat) [((0 : Fin 2), 0)] (.ok .more), .tacit, .tacit,
            .reduced ⟨.value (7 : Nat), (1 : Fin 2), 0⟩ .none, .pushed (7 : Nat) [((1 : Fin 2), 0)],
            .replied (7 : Nat) [((1 : Fin 2), 0)] (.ok .more),
            .sent (1 : Fin 2) (.completion (.failure Fault.cancelled)) 1 none,
            .sent (0 : Fin 2) (.value (6 : Nat)) 1 none, .tacit, .tacit,
            .reduced ⟨.completion (.failure Fault.cancelled), (1 : Fin 2), 1⟩
              (.completion (.failure Fault.cancelled)), .tacit,
            .finalized (.failure Fault.cancelled), .tacit,
            .disposed ⟨.value (6 : Nat), (0 : Fin 2), 1⟩ (.failure Fault.cancelled), .tacit] ∧
          s.consumer.turn = .stop (.failure Fault.cancelled) := ⟨_, _, run, rfl, rfl⟩
    have follows : Follows (C := Combiner.merge Nat 2)
        (scripts (![[5, 6], [7]] : Fin 2 → List Nat) ![.finished, .failure Fault.cancelled]) t := by
      rw [Follows, hd]
      simp only [List.forall_mem_cons]
      exact ⟨rfl, rfl, trivial, trivial, trivial, trivial, trivial, rfl, trivial, trivial, trivial,
        trivial, rfl, rfl, rfl, trivial, trivial, trivial, trivial, trivial, trivial, trivial,
        trivial, List.forall_mem_nil _⟩
    refine ⟨t, s, run, follows, merged.1 Nat 2 _ _ t s (by decide) run follows, ht, ?_⟩
    rw [pushed, hd]
    rfl
  · have new : Run Combination.Step (.new (Combiner.select Nat Nat)) [] _ := .nil
    have right := new.snoc (.send Side.right (.completion .finished) rfl (fun _ => rfl))
      |>.snoc (.start rfl) |>.snoc (.tacit (.checkpoint rfl)) |>.snoc (.tacit (.read 0 rfl rfl))
      |>.snoc (.reduce rfl rfl) |>.snoc (.idle rfl rfl rfl)
    have waiting := right.snoc (.tacit (.checkpoint rfl)) |>.snoc (.tacit (.read 1 rfl rfl))
    have left := waiting.snoc (.send Side.left (.value (1 : Nat)) rfl (fun _ => rfl))
      |>.snoc (.tacit (.resume rfl rfl)) |>.snoc (.reduce rfl rfl) |>.snoc (.push rfl rfl rfl)
      |>.snoc (.reply (.ok .more) rfl rfl)
    have ended := left.snoc (.send Side.left (.completion .finished) rfl (fun _ => rfl))
      |>.snoc (.tacit (.checkpoint rfl)) |>.snoc (.tacit (.read 2 rfl rfl))
      |>.snoc (.reduce rfl rfl)
    have run := ended.snoc (.finish (c := .finished) rfl) |>.snoc (.finalize (c := .finished) rfl)
      |>.snoc (.tacit (.drain (c := .finished) rfl))
    obtain ⟨t, s, run, hd, ht⟩ : ∃ (t : List (Seen (Combiner.select Nat Nat)))
        (s : Combination (Combiner.select Nat Nat)),
        Run Combination.Step (.new (Combiner.select Nat Nat)) t s ∧
          deeds t = [.sent Side.right (.completion .finished) 0 none, .tacit, .tacit, .tacit,
            .reduced ⟨.completion .finished, Side.right, 0⟩ .none, .tacit, .tacit, .tacit,
            .sent Side.left (.value (1 : Nat)) 0 none, .tacit,
            .reduced ⟨.value (.left 1), Side.left, 0⟩ .none, .pushed (.left 1) [(Side.left, 0)],
            .replied (.left 1) [(Side.left, 0)] (.ok .more),
            .sent Side.left (.completion .finished) 1 none, .tacit, .tacit,
            .reduced ⟨.completion .finished, Side.left, 1⟩ (.completion .finished), .tacit,
            .finalized .finished, .tacit] ∧
          s.consumer.turn = .stop .finished := ⟨_, _, run, rfl, rfl⟩
    have follows : Follows (C := Combiner.select Nat Nat)
        (scripts (fun | .left => ([1] : List Nat) | .right => ([] : List Nat))
          fun _ => .finished) t := by
      rw [Follows, hd]
      simp only [List.forall_mem_cons]
      exact ⟨rfl, trivial, trivial, trivial, trivial, trivial, trivial, trivial, rfl, trivial,
        trivial, trivial, rfl, rfl, trivial, trivial, trivial, trivial, trivial, trivial,
        List.forall_mem_nil _⟩
    refine ⟨t, s, run, follows, (merged.2 Nat Nat _ _ t s run follows).1, ht, ?_⟩
    rw [pushed, hd]
    rfl

end ResumeOnce.Streams
