import ResumeOnce.Proofs.Streams.Answering
import ResumeOnce.Proofs.Streams.Overflow

/-!
# What is never too much for a combination

A feeder that sends one event at a time has at most one of them on its way: in the
channel, with the consumer, in the machine or downstream. So the channel never holds
more events than there are feeders, an open one refuses nobody, and no event comes
when the machine is not ready for it. This is so even when the task of the fold has
crashed, and left its channel behind.

The machine of a merge is ready whenever the consumer reads, so that it does not even
depend on its feeders.

* `Venture`, `Venture.Step`: a combination whose task may crash;
* `Venture.Bounded`: what is in its channel, and on its way through it;
* `Unruly`: a combination whose feeders send what they like;
* `plain_bounded`: every run of the first is bounded, and the machine of a merge gets along with
  every run of the second.
-/

namespace ResumeOnce.Streams

open Fold (Consumer Turn Effect)

variable {C : Combiner}

/-! ## Crashes -/

/-- A combination, and whether the task of its fold has crashed. -/
structure Venture (C : Combiner) where
  combination : Combination C
  crashed : Bool

namespace Venture

/-- A combination at its begin. -/
def new (C : Combiner) : Venture C := ⟨.new C, false⟩

/-- What can happen. Behind a crash, the feeders go on, and may be told anything about the events
    that were lost with the task; what is in the channel stays there. -/
inductive Step : Venture C → Option (Seen C) → Venture C → Prop
  | go {s s' : Combination C} {e : Seen C} : Combination.Step s e s' →
      Step ⟨s, false⟩ (some e) ⟨s', false⟩
  | crash {s : Combination C} : Step ⟨s, false⟩ none ⟨s, true⟩
  | lose {s : Combination C} {i : C.Feeder} {r : C.Right} (o : Outcome Demand) :
      s.unanswered i = some r → r ∉ s.consumer.channel.values.map C.sender →
      Step ⟨s, true⟩ (some ⟨.tacit, [(r, o)]⟩) ⟨s.tell [(r, o)], true⟩
  | send {s : Combination C} (i : C.Feeder) (e : Event (C.Input i)) : s.unanswered i = none →
      (isCompletion e = true → s.ended i = false) →
      Step ⟨s, true⟩ (some (s.send i e).2) ⟨(s.send i e).1, true⟩
  | close {s : Combination C} (x : Completion) :
      Step ⟨s, true⟩ (some ⟨.closed, []⟩)
        ⟨{ s with consumer := s.consumer.exchange (s.consumer.channel.close x) }, true⟩

/-- The rights that are still held: by whoever has to answer them, or else by the actions that a
    crashed task has left in its channel. -/
def held (v : Venture C) : List C.Right :=
  if v.crashed then v.combination.consumer.channel.values.map C.sender else v.combination.owed

/-- A combination is not asked for too much. -/
structure Bounded (v : Venture C) : Prop where
  /-- Of each feeder at most one event is in the channel, in hand, in the machine or downstream,
      and the feeder waits for the answer to it. -/
  one : (v.held.map Prod.fst).Nodup
  waits : ∀ r ∈ v.held, v.combination.unanswered r.1 = some r
  /-- Unless the task has crashed, that is where all unanswered events are. -/
  kept : v.crashed = false → ∀ i r, v.combination.unanswered i = some r → r ∈ v.held
  /-- There are never more events in the channel than there are feeders. -/
  size : v.combination.consumer.channel.size ≤ Fintype.card C.Feeder
  /-- An open channel refuses no event of a feeder that waits for nothing. -/
  room : v.combination.consumer.channel.completion = none → ∀ i e,
    v.combination.unanswered i = none → ∀ r,
      (v.combination.consumer.channel.write none
        (C.inlet i e (v.combination.sent i))).result ≠ .refused r
  /-- No event is against the rules of the machine. -/
  peaceful : v.crashed = false → ∀ x, v.combination.consumer.turn = .reduce x →
    ∃ r, C.reduce v.combination.machine.current x = .ok r

end Venture

namespace Combination

variable {s s' : Combination C} {t : List (Seen C)}

theorem Stocked.size (h : s.Stocked) :
    s.consumer.channel.size ≤ Fintype.card C.Feeder := by
  have hl := h.one.length_le_card
  rw [List.length_map, h.sound.channel.length_values] at hl
  rwa [Channel.size, h.sound.channel.writers_balanced.size_eq]

theorem Stocked.room (h : s.Stocked) (ho : s.consumer.channel.completion = none) {i : C.Feeder}
    (hi : s.unanswered i = none) (x : C.Action) (r : Refusal C.Action) :
    (s.consumer.channel.write none x).result ≠ .refused r := by
  intro hr
  cases h.sound.channel.writing none x with
  | closed y hy => simp [ho] at hy
  | handed p rs c hc hw hq hs he => simp [he] at hr
  | full hc hw hp hb he => simp [h.admits hi] at hb
  | queued c hc hw hb hs he => simp [he] at hr

/-- A feeder that has nothing in the channel is told something. -/
theorem Stocked.tell (h : s.Stocked) {r : C.Right} {o : Outcome Demand}
    (hr : r ∉ s.consumer.channel.values.map C.sender) : (s.tell [(r, o)]).Stocked where
  sound := h.sound
  buffering := h.buffering
  one := h.one
  waits x hx := by
    have hne : C.sender x ≠ r := fun he => hr (he ▸ List.mem_map_of_mem hx)
    simp [Combination.tell, h.waits x hx, hne]

/-- An event was sent, and is perhaps in the channel. -/
theorem Stocked.counts (h : s.Stocked) {i : C.Feeder} (hi : s.unanswered i = none)
    (e : Event (C.Input i)) {f : Consumer Nat C.Action} (hf : f.Sound)
    (hb : f.channel.buffering = s.consumer.channel.buffering)
    (hv : f.channel.values = s.consumer.channel.values ∨
      f.channel.values = s.consumer.channel.values ++ [C.inlet i e (s.sent i)]) :
    Stocked { s.count i e with consumer := f } := by
  have hne : ∀ x ∈ s.consumer.channel.values, (C.sender x).1 ≠ i :=
    fun x hx he => h.absent hi (List.mem_map.2 ⟨x, hx, he⟩)
  have hold : ∀ x ∈ s.consumer.channel.values,
      (s.count i e).unanswered (C.sender x).1 = some (C.sender x) := fun x hx => by
    rw [count_unanswered_ne s (hne x hx), h.waits x hx]
  refine ⟨hf, hb.trans h.buffering, ?_, ?_⟩
  · rcases hv with hv | hv
    · simpa only [hv] using h.one
    · have hn := h.absent hi
      simp only [hv, List.map_append, List.map_cons, List.map_nil, C.sender_inlet]
      exact (List.nodup_append_comm.1 (List.nodup_cons.2 ⟨hn, h.one⟩))
  · intro x hx
    rcases hv with hv | hv
    · exact hold x (hv ▸ hx)
    · have hx' : x ∈ s.consumer.channel.values ++ [C.inlet i e (s.sent i)] := hv ▸ hx
      rcases List.mem_append.1 hx' with hx' | hx'
      · exact hold x hx'
      · rw [List.mem_singleton.1 hx', C.sender_inlet]
        exact count_unanswered_self s i e

/-- An event is sent: it comes into the channel, meets the read of the task, or is refused. -/
theorem Stocked.send (h : s.Stocked) {i : C.Feeder} (hi : s.unanswered i = none)
    (e : Event (C.Input i)) : (s.send i e).1.Stocked := by
  have hw := h.sound.write none (C.inlet i e (s.sent i))
  have hf := hw.sound h.sound
  have hb := hw.buffering
  have hr : (i, s.sent i) ∉ s.consumer.channel.values.map C.sender := fun hm => by
    obtain ⟨x, hx, he⟩ := List.mem_map.1 hm
    exact h.absent hi (List.mem_map.2 ⟨x, hx, by rw [he]⟩)
  rw [Combination.send]
  generalize s.consumer.exchange (s.consumer.channel.write none (C.inlet i e (s.sent i))) = f at *
  generalize (s.consumer.channel.write none (C.inlet i e (s.sent i))).result = w at *
  cases hw with
  | closed x hx => exact (h.counts hi e hf hb (.inl rfl)).tell hr
  | full ho hp hn ha => exact (h.counts hi e hf hb (.inl rfl)).tell hr
  | met r c ho ha hq hc =>
    exact h.counts hi e hf hb (.inl (by simp [Channel.values, hc.queued, hq]))
  | queued c ho hp hc =>
    exact h.counts hi e hf hb (.inr (by simp [Channel.values, hc.queued]))

theorem Stocked.close (h : s.Stocked) (x : Completion) : Stocked
    { s with consumer := s.consumer.exchange (s.consumer.channel.close x) } := by
  have hc := h.sound.close x
  have hv : (s.consumer.exchange (s.consumer.channel.close x)).channel.values =
      s.consumer.channel.values := by rw [Channel.values, hc.queued, Channel.values]
  refine ⟨hc.sound h.sound, hc.buffering.trans h.buffering, ?_, ?_⟩
  · simpa only [hv] using h.one
  · simpa only [hv] using h.waits

end Combination

namespace Venture

variable {v v' : Venture C} {x : Option (Seen C)}

/-- What holds all along a run. -/
structure Kept (v : Venture C) : Prop where
  stocked : v.combination.Stocked
  held : v.crashed = false → ∃ t, v.combination.Held t

theorem kept_new (C : Combiner) : (new C).Kept where
  stocked := (Combination.held_new C).stocked
  held _ := ⟨[], Combination.held_new C⟩

theorem Kept.step (h : v.Kept) (hs : Step v x v') : v'.Kept := by
  cases hs with
  | go hs =>
    obtain ⟨t, hk⟩ := h.held rfl
    exact ⟨(hk.step hs).stocked, fun _ => ⟨_, hk.step hs⟩⟩
  | crash => exact ⟨h.stocked, fun hc => nomatch hc⟩
  | lose o hu hr => exact ⟨h.stocked.tell hr, fun hc => nomatch hc⟩
  | send i e hi he => exact ⟨h.stocked.send hi e, fun hc => nomatch hc⟩
  | close y => exact ⟨h.stocked.close y, fun hc => nomatch hc⟩

theorem kept_run {t : List (Option (Seen C))} (h : Run Step (new C) t v) : v.Kept :=
  h.invariant (P := fun _ v => v.Kept) (kept_new C) Kept.step

theorem Kept.bounded (h : v.Kept) : v.Bounded := by
  obtain ⟨s, _ | _⟩ := v
  · obtain ⟨t, hk⟩ := h.held rfl
    refine ⟨hk.rights.feeders_nodup, fun r hr => (hk.rights.waits r.1 r).1 ⟨hr, rfl⟩,
      fun _ i r hr => ((hk.rights.waits i r).2 hr).1, h.stocked.size,
      fun ho i e hi => h.stocked.room ho hi _, fun _ x hx => ?_⟩
    obtain ⟨i, e, k, r, -, -, hr, -⟩ := hk.reduces hx
    exact ⟨r, hr⟩
  · refine ⟨?_, fun r hr => ?_, fun hc => (nomatch hc), h.stocked.size,
      fun ho i e hi => h.stocked.room ho hi _, fun hc => (nomatch hc)⟩
    · rw [Venture.held, if_pos rfl, List.map_map]
      exact h.stocked.one
    · obtain ⟨y, hy, rfl⟩ := List.mem_map.1 hr
      exact h.stocked.waits y hy

end Venture

/-! ## Unruly feeders -/

/-- What can happen to a combination whose feeders send what they like, when they like. -/
inductive Unruly : Combination C → Seen C → Combination C → Prop
  | send {s : Combination C} (i : C.Feeder) (e : Event (C.Input i)) :
      Unruly s (s.send i e).2 (s.send i e).1
  | go {s s' : Combination C} {e : Seen C} : Combination.Step s e s' → Unruly s e s'

/-- Whether nothing is held by a machine that is ready. -/
def Combiner.Patient (C : Combiner) : Prop := ∀ {s}, C.Ready s → C.pending s = []

namespace Combination

variable {s s' : Combination C} {e : Seen C}

/-- The actions in hand and in the channel are events of feeders, and the machine is ready for
    what comes. -/
structure Calm (s : Combination C) : Prop where
  sound : s.consumer.Sound
  inlets : ∀ x ∈ s.consumer.load, ∃ i e k, x = C.inlet i e k
  phase : s.Phase

theorem calm_buffered (C : Combiner) (b : Buffering) : (buffered C b).Calm where
  sound := Consumer.sound_new b
  inlets x hx := by
    have hv := (Channel.shows_new b : (Channel.new b : Channel Nat C.Action).Shows ..).values
    simp [buffered, Consumer.new, Consumer.load, Consumer.hand, hv] at hx
  phase := ⟨C.pending_initial, rfl⟩

/-- A step of the combination itself brings no action in. -/
theorem Step.load_subset (hs : Step s e s') (h : s.consumer.Sound) :
    s'.consumer.load ⊆ s.consumer.load ∨ ∃ i x, s' = (s.send i x).1 := by
  cases hs with
  | send i x hi hx => exact .inr ⟨i, x, rfl⟩
  | cancel => exact .inl (List.Subset.refl _)
  | close hc => exact .inl ((Consumer.Step.close _).load_subset h rfl)
  | start ht => exact .inl ((Consumer.Step.start ht).load_subset h rfl)
  | tacit hf => exact .inl (hf.load_subset h rfl)
  | reduce ht hr => exact .inl ((Consumer.Step.reduce _ ht).load_subset h rfl)
  | idle ht hd hn => exact .inl ((Consumer.Step.emit _ ht).load_subset h rfl)
  | push ht hd hm => exact .inl (List.Subset.refl _)
  | reply answer ht hd => exact .inl ((Consumer.Step.emit _ ht).load_subset h rfl)
  | finish ht => exact .inl ((Consumer.Step.finish ht).load_subset h rfl)
  | finalize ht => exact .inl ((Consumer.Step.finalize ht).load_subset h rfl)
  | dispose ht => exact .inl ((Consumer.Step.dispose ht).load_subset h rfl)

theorem Calm.send (h : s.Calm) (i : C.Feeder) (x : Event (C.Input i)) : (s.send i x).1.Calm where
  sound := (send_step s i x).sound h.sound
  inlets y hy := by
    rw [send_consumer, (h.sound.write none _).load h.sound] at hy
    rcases List.mem_append.1 hy with hy | hy
    · exact h.inlets y hy
    · -- What is accepted is the event that was sent.
      refine ⟨i, x, s.sent i, ?_⟩
      generalize (s.consumer.channel.write none (C.inlet i x (s.sent i))).result = w at hy
      cases w <;> simp_all
  phase := h.phase.send h.sound i x

/-- The action in hand is reduced, if the machine holds nothing when it is ready. -/
theorem Calm.reduces (h : s.Calm) (hC : C.Patient) {x : C.Action}
    (ht : s.consumer.turn = .reduce x) :
    ∃ i e k r, C.reduce s.machine.current x = .ok r ∧ s.Reduces i k e r := by
  have hp := h.phase
  rw [Phase, ht] at hp
  obtain ⟨i, e, k, rfl⟩ := h.inlets x (by simp [Consumer.load, Consumer.hand, ht])
  obtain ⟨r, hr, hx⟩ := ready_reduces hp.1 (i := i) (by simp [hC hp.1]) e k
  exact ⟨i, e, k, r, hr, hx⟩

theorem Calm.step (h : s.Calm) (hC : C.Patient) (hs : Step s e s') : s'.Calm := by
  rcases hs.load_subset h.sound with hl | ⟨i, x, rfl⟩
  · refine ⟨?_, fun y hy => h.inlets y (hl hy), h.phase.step h.sound (fun x r ht hr => ?_) hs⟩
    · rcases hs.consumer with he | ⟨e', he⟩
      · exact he ▸ h.sound
      · exact he.sound h.sound
    · obtain ⟨i, e, k, r', hr', hx⟩ := h.reduces hC ht
      obtain rfl : r = r' := Except.ok.inj (hr.symm.trans hr')
      exact ⟨i, e, k, hx⟩
  · exact h.send i x

theorem calm_run (hC : C.Patient) {b : Buffering} {t : List (Seen C)}
    (h : Run Unruly (buffered C b) t s) : s.Calm := by
  refine h.invariant (P := fun _ s => s.Calm) (calm_buffered C b) ?_
  intro t s e s' hs hu
  cases hu with
  | send i x => exact hs.send i x
  | go he => exact hs.step hC he

end Combination

/-! ## Plain combinations -/

/-- The machine of a merge that is ready holds nothing. -/
theorem patient_merging {ι ν : Type} [DecidableEq ι] [Fintype ι] {Input : ι → Type}
    {tag : (i : ι) → Input i → ν} {limit : Nat} (hl : Fintype.card ι ≤ limit) :
    (Combiner.merging ι Input ν tag limit hl).Patient := by
  intro s h
  cases s with
  | nothing => rfl
  | ready | finished | errored => cases h

/-- Whatever is not a zip is a merge. -/
theorem patient_plain {p : Plain} (hp : ∀ α β, p ≠ .zip α β) : p.combiner.Patient := by
  cases p with
  | zip α β => exact absurd rfl (hp α β)
  | select α β => exact patient_merging (by rw [card_side])
  | merge α n => exact patient_merging (by simp)

/-- A plain combination is not asked for too much, by feeders that send one event at a time; and
    the machine of a selection or a merge gets along even with feeders that do not, whatever room
    there is in the channel. -/
theorem plain_bounded (p : Plain) :
    (∀ t v, Run Venture.Step (.new p.combiner) t v → v.Bounded) ∧
      ((∀ α β, p ≠ .zip α β) → ∀ b t s, Run Unruly (.buffered p.combiner b) t s →
        ∀ x, s.consumer.turn = .reduce x → ∃ r, p.combiner.reduce s.machine.current x = .ok r) := by
  refine ⟨fun t v h => (Venture.kept_run h).bounded, fun hp b t s h x hx => ?_⟩
  obtain ⟨i, e, k, r, hr, -⟩ := (Combination.calm_run (patient_plain hp) h).reduces
    (patient_plain hp) hx
  exact ⟨r, hr⟩

/-- The task of a zip crashes while a pair is downstream, and one of the feeders, which has learned
    of it, sends its next value. A feeder of a merge sends three values at once. -/
theorem plain_bounded_crashed :
    (∃ (t : List (Option (Seen (Plain.zip Nat Nat).combiner)))
      (v : Venture (Plain.zip Nat Nat).combiner),
      Run Venture.Step (.new (Plain.zip Nat Nat).combiner) t v ∧ v.Bounded ∧
        v.crashed = true ∧ v.held = [(Side.left, 1)]) ∧
    (∃ (t : List (Seen (Plain.merge Nat 2).combiner)) (s : Combination (Plain.merge Nat 2).combiner)
      (x : (Plain.merge Nat 2).combiner.Action),
      Run Unruly (.buffered (Plain.merge Nat 2).combiner (.oldest 3)) t s ∧
        s.consumer.turn = .reduce x ∧ s.consumer.channel.size = 1 ∧
        ∃ r, (Plain.merge Nat 2).combiner.reduce s.machine.current x = .ok r) := by
  constructor
  · have new : Run Venture.Step (.new (Plain.zip Nat Nat).combiner) [] _ := .nil
    have sent := new.snoc (.go (.send Side.left (.value (1 : Nat)) rfl (fun _ => rfl)))
      |>.snoc (.go (.send Side.right (.value (2 : Nat)) rfl (fun _ => rfl)))
    have held := sent.snoc (.go (.start rfl)) |>.snoc (.go (.tacit (.checkpoint rfl)))
      |>.snoc (.go (.tacit (.read 0 rfl rfl))) |>.snoc (.go (.reduce rfl rfl))
      |>.snoc (.go (.idle rfl rfl rfl))
    have pushed := held.snoc (.go (.tacit (.checkpoint rfl)))
      |>.snoc (.go (.tacit (.read 1 rfl rfl))) |>.snoc (.go (.reduce rfl rfl))
      |>.snoc (.go (.push rfl rfl rfl))
    have lost := pushed.snoc .crash
      |>.snoc (.lose (i := Side.left) (.error Leak.fault) rfl (by decide))
    have run := lost.snoc (.send Side.left (.value (3 : Nat)) rfl (fun _ => rfl))
    exact ⟨_, _, run, (plain_bounded (.zip Nat Nat)).1 _ _ run, rfl, rfl⟩
  · have new : Run Unruly (.buffered (Plain.merge Nat 2).combiner (.oldest 3)) [] _ := .nil
    have sent := new.snoc (.send (0 : Fin 2) (.value (1 : Nat)))
      |>.snoc (.send (0 : Fin 2) (.value (2 : Nat))) |>.snoc (.send (0 : Fin 2) (.value (3 : Nat)))
    have pushed := sent.snoc (.go (.start rfl)) |>.snoc (.go (.tacit (.checkpoint rfl)))
      |>.snoc (.go (.tacit (.read 0 rfl rfl))) |>.snoc (.go (.reduce rfl rfl))
      |>.snoc (.go (.push rfl rfl rfl)) |>.snoc (.go (.reply (.ok .more) rfl rfl))
    have run := pushed.snoc (.go (.tacit (.checkpoint rfl)))
      |>.snoc (.go (.tacit (.read 1 rfl rfl)))
    exact ⟨_, _, _, run, rfl, rfl,
      (plain_bounded (.merge Nat 2)).2 (by simp) _ _ _ run _ rfl⟩

end ResumeOnce.Streams
