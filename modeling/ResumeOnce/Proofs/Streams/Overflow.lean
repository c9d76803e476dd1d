import ResumeOnce.Proofs.Fold.Rebuffering
import ResumeOnce.Proofs.Streams.Forwarding
import ResumeOnce.Reactor.Session

/-!
# Combinations with little room

A combination may be given a channel that has not room for one event of every feeder. An
event that finds it full is refused: its sender gets the fault, and nobody else learns of
it. The combination goes on as if the event had not been sent; so a merge that has lost a
completion waits for it, unless something else ends it.

* `Combination.buffered`, `Combination.refit`: a combination with another buffering;
* `Spills`, `Combination.Step.refit`: apart from events that find the channel full, it goes
  on as with enough room;
* `EndedBy`, `Ends`: what ends a combination;
* `Spilling`, `spilling_run`: what holds all along a run;
* `Counting`, `counting_run`: a merge finishes only with the last completion;
* `Spilled`, `spilled`: what every run comes to.
-/

namespace ResumeOnce.Streams

open Fold (Consumer Turn Effect)

variable {C : Combiner} {t : List (Seen C)} {e : Seen C} {s s' : Combination C} {b : Buffering}

/-- A combination whose channel has a given buffering, at its begin. -/
def Combination.buffered (C : Combiner) (b : Buffering) : Combination C :=
  { new C with consumer := .new b }

/-- A combination as it is with another buffering. -/
def Combination.refit (s : Combination C) (b : Buffering) : Combination C :=
  { s with consumer := s.consumer.rebuffer b }

/-- An event of a feeder finds the channel open and full: its sender gets the fault, and nothing
    else changes. -/
structure Spills (s : Combination C) (i : C.Feeder) (x : Event (C.Input i)) (e : Seen C)
    (s' : Combination C) : Prop where
  idle : s.unanswered i = none
  once : isCompletion x = true → s.ended i = false
  opened : s.consumer.channel.completion = none
  full : s.consumer.channel.buffering.admits
    (Channel.unattended s.consumer.channel.queued) = false
  seen : e = ⟨.sent i x (s.sent i) (some (Fault.ofKind .channelFull)),
    [((i, s.sent i), .error (Fault.ofKind .channelFull))]⟩
  rest : s' = (s.count i x).tell [((i, s.sent i), .error (Fault.ofKind .channelFull))]

namespace Combination

/-- If there would be room with another buffering, an event is sent in the same way, or it is
    refused because the channel is full. -/
theorem send_refit (hs : s.consumer.Sound) {i : C.Feeder} {x : Event (C.Input i)}
    (hb : b.admits (Channel.unattended s.consumer.channel.queued) = true)
    (hi : s.unanswered i = none) (hx : isCompletion x = true → s.ended i = false) :
    (s.refit b).send i x = ((s.send i x).1.refit b, (s.send i x).2) ∨
      Spills s i x (s.send i x).2 (s.send i x).1 := by
  rcases hs.channel.write_rebuffer hb none (C.inlet i x (s.sent i)) with hw | ⟨ho, hf, hw⟩
  · left
    have he := s.consumer.exchange_rebuffer b
      (s.consumer.channel.write none (C.inlet i x (s.sent i)))
    have hc : (s.refit b).consumer = s.consumer.rebuffer b := rfl
    have hc' : (s.consumer.rebuffer b).channel = s.consumer.channel.rebuffer b := rfl
    have hn : (s.refit b).sent = s.sent := rfl
    rw [send, send, hc, hc', hn, hw, he]
    generalize s.consumer.channel.write none (C.inlet i x (s.sent i)) = w
    obtain ⟨c, rs, _ | _ | r⟩ := w <;> rfl
  · right
    refine ⟨hi, hx, ho, hf, ?_, ?_⟩ <;> rw [send, hw] <;> rfl

/-- Whatever else happens, happens in the same way. -/
theorem Step.refit (h : Held t (s.refit C.buffering)) (hs : Step s e s') :
    Step (s.refit C.buffering) e (s'.refit C.buffering) ∨ ∃ i x, Spills s i x e s' := by
  have hc : ∀ b, (s.refit b).consumer = s.consumer.rebuffer b := fun b => rfl
  cases hs with
  | send i x hi hx =>
    have hsound : s.consumer.Sound := h.sound.rebuffer s.consumer.channel.buffering
    refine (send_refit (b := C.buffering) hsound (h.stocked.admits hi) hi hx).imp
      (fun he => ?_) fun hs => ⟨i, x, hs⟩
    have hr : Step (s.refit C.buffering) _ _ := .send i x hi hx
    rwa [he] at hr
  | cancel => exact .inl .cancel
  | close hx =>
    have hr : Step (s.refit C.buffering) _ _ := .close hx
    rw [hc, Consumer.close_rebuffer] at hr
    exact .inl hr
  | start ht => exact .inl (.start ht)
  | tacit hf => exact .inl (.tacit (hf.rebuffer C.buffering))
  | reduce ht hr => exact .inl (.reduce ht hr)
  | idle ht hd hm => exact .inl (.idle ht hd hm)
  | push ht hd hm => exact .inl (.push ht hd hm)
  | reply answer ht hd => exact .inl (.reply answer ht hd)
  | @finish c ht =>
    have hr : Step (s.refit C.buffering) _ _ := .finish ht
    rw [hc, Consumer.finish_rebuffer] at hr
    exact .inl hr
  | finalize ht => exact .inl (.finalize ht)
  | dispose ht => exact .inl (.dispose ht)

end Combination

/-- A refused event leaves whatever is held where it is. -/
theorem Spills.held {i : C.Feeder} {x : Event (C.Input i)} (h : Spills s i x e s')
    (hk : Combination.Held t (s.refit b)) : Combination.Held (t ++ [e]) (s'.refit b) := by
  obtain ⟨hi, hx, ho, hf, rfl, rfl⟩ := h
  refine ⟨hk.sound, hk.left, hk.buffering,
    hk.known.rest (List.Subset.refl _) (List.Subset.refl _) fun _ _ => id, ?_,
    hk.phase.stay rfl rfl rfl⟩
  rw [used_snoc]
  exact Rights.answer (l := [(i, s.sent i)]) (hk.rights.send hi)

/-! ## What becomes of a refused event -/

/-- The events that a deed is about, unless it is their sending. -/
def Deed.about : Deed C → List C.Right
  | .reduced x _ | .disposed x _ => [C.sender x]
  | .pushed _ ps | .replied _ ps _ => ps
  | _ => []

/-- Whatever is done with an event, the channel has accepted it. -/
theorem Combination.Held.about (h : Held t s) (hs : Step s e s') {r : C.Right}
    (hr : r ∈ e.deed.about) : ∃ x, .sent r.1 x r.2 none ∈ deeds t := by
  cases hs with
  | send i x hi hx =>
    rw [Combination.send] at hr
    split at hr <;> cases hr
  | reduce ht hx =>
    obtain ⟨i, x, k, r', rfl, hd, -⟩ := h.reduces ht
    obtain rfl : r = (i, k) := (List.mem_singleton.1 hr).trans (C.sender_inlet i x k)
    exact ⟨x, hd⟩
  | push ht hd hm =>
    rw [Deed.about, (C.emission?_some hm).2.2.1] at hr
    obtain ⟨y, hy, rfl⟩ := List.mem_map.1 hr
    obtain ⟨i, a, k, rfl, hd⟩ := h.known.pending y hy
    rw [C.sender_inlet]
    exact ⟨_, hd⟩
  | @reply v ps answer ht hd =>
    obtain ⟨a, -, hs⟩ := (h.known.carried v ps hd).2 r hr
    exact ⟨_, hs⟩
  | @dispose x c ht =>
    have hl : x ∈ s.consumer.load := by simp [Consumer.load, Consumer.hand, ht]
    obtain ⟨i, y, k, rfl, hd⟩ := h.known.loaded x hl
    obtain rfl : r = (i, k) := (List.mem_singleton.1 hr).trans (C.sender_inlet i y k)
    exact ⟨y, hd⟩
  | _ => cases hr

/-! ## What ends a combination -/

/-- What can end a combination: a completion that is reduced, an answer of the downstream, or
    somebody who cancels it. -/
inductive EndedBy (t : List (Seen C)) : Completion → Prop
  | reduced (i : C.Feeder) (c : Completion) (k : Nat)
      (h : .reduced (C.inlet i (.completion c) k) (.completion c) ∈ deeds t) : EndedBy t c
  | replied (v : C.Output) (ps : List C.Right) (answer : Outcome Demand) (f : Fault)
      (h : .replied v ps answer ∈ deeds t) (hf : (Delivery.ofAnswer answer).result = .error f) :
      EndedBy t (.ofFault f)
  | cancelled (h : .cancelled ∈ deeds t) : EndedBy t (.failure Fault.cancelled)

theorem EndedBy.snoc {c : Completion} (h : EndedBy t c) (e : Seen C) : EndedBy (t ++ [e]) c := by
  cases h with
  | reduced i c k h => exact .reduced i c k (mem_deeds_snoc h e)
  | replied v ps answer f h hf => exact .replied v ps answer f (mem_deeds_snoc h e) hf
  | cancelled h => exact .cancelled (mem_deeds_snoc h e)

/-- Why a combination ends, or is told to. -/
structure Ends (t : List (Seen C)) (s : Combination C) : Prop where
  told : ∀ p f, s.consumer.awaited = some (p, some (.error f)) →
    f = Fault.cancelled ∧ .cancelled ∈ deeds t
  ended : ∀ c, s.consumer.turn.completion? = some c → EndedBy t c

namespace Ends

/-- Nobody tells the consumer to end. -/
theorem keep (h : Ends t s) (ha : ∀ p f, s'.consumer.awaited = some (p, some (.error f)) →
      s.consumer.awaited = some (p, some (.error f)))
    (ht : ∀ c, s'.consumer.turn.completion? = some c →
      s.consumer.turn.completion? = some c ∨ EndedBy (t ++ [e]) c) : Ends (t ++ [e]) s' where
  told p f hx := (h.told p f (ha p f hx)).imp_right (mem_deeds_snoc · e)
  ended c hc := (ht c hc).elim (fun hc => (h.ended c hc).snoc e) id

theorem send (h : Ends t s) (hs : s.consumer.Sound) {i : C.Feeder} {x : Event (C.Input i)} :
    Ends (t ++ [(s.send i x).2]) (s.send i x).1 := by
  have hw := hs.write none (C.inlet i x (s.sent i))
  have ht := hw.turn
  rw [← Combination.send_consumer] at hw ht
  refine h.keep ?_ (fun c hc => .inl (ht ▸ hc))
  intro p f ha
  generalize (s.send i x).1.consumer = f' at hw ha
  generalize (s.consumer.channel.write none (C.inlet i x (s.sent i))).result = w at hw
  cases hw with
  | closed y hy => exact ha
  | full ho hw hp hb => exact ha
  | met r c ho hr hq hs => cases ha
  | queued c ho hw hs => exact ha

/-- Whoever cancels the fold tells the consumer that waits. -/
theorem close (h : Ends t s) (hs : s.consumer.Sound) (hc : .cancelled ∈ deeds t) :
    Ends (t ++ [⟨.closed, []⟩]) { s with
      consumer := s.consumer.exchange (s.consumer.channel.close (.failure Fault.cancelled)) } := by
  have hd := hs.close (.failure Fault.cancelled)
  have ht := hd.turn
  refine ⟨fun p f ha => ⟨?_, mem_deeds_snoc hc _⟩, fun c hx => (h.ended c (ht ▸ hx)).snoc _⟩
  change (s.consumer.exchange
    (s.consumer.channel.close (.failure Fault.cancelled))).awaited = _ at ha
  generalize s.consumer.exchange (s.consumer.channel.close (.failure Fault.cancelled)) = f' at *
  generalize (s.consumer.channel.close (.failure Fault.cancelled)).result = done at hd
  cases hd with
  | before hx => exact (h.told p f ha).1
  | now c ho hs =>
    rcases hw : s.consumer.awaited with _ | ⟨r, _ | o⟩
    · simp [Consumer.answer, hw] at ha
    · simp [Consumer.answer, hw] at ha
      exact ha.2.symm
    · refine (h.told p f ?_).1
      rw [hw]
      simpa [Consumer.answer, hw] using ha

/-- A consumer that goes on by itself ends only if somebody has cancelled the fold. -/
theorem tacit (h : Ends t s) (hk : Combination.Closes t s) (hs : s.consumer.Sound)
    {f : Consumer Nat C.Action} (hf : Consumer.Step s.consumer .tacit f) :
    Ends (t ++ [⟨.tacit, []⟩]) { s with consumer := f } := by
  have hx : .cancelled ∈ deeds t →
      ∀ c, (Turn.close (α := C.Action) (.failure Fault.cancelled)).completion? = some c →
      EndedBy (t ++ [⟨.tacit, []⟩]) c := by
    intro hm c hc
    obtain rfl := Option.some.inj hc
    exact .cancelled (mem_deeds_snoc hm _)
  cases hf with
  | checkpoint ht =>
    refine h.keep (fun _ _ => id) fun c hc => .inr ?_
    rw [Consumer.goOn_turn, Consumer.checkpoint] at hc
    split at hc
    · exact hx (hk.cancelled ‹_›) c hc
    · cases hc
  | read p ht ha =>
    have hr := hs.read ha p
    generalize s.consumer.read p = f at hr
    cases hr with
    | took r a ws c hq hs =>
      refine h.keep (fun _ _ => id) fun c hc => ?_
      cases hc
    | closed x hclosed hq =>
      refine h.keep (fun _ _ => id) fun c hc => .inr ?_
      rcases hk.closed x hclosed with hn | ⟨rfl, hm⟩
      · rw [ht] at hn
        cases hn
      · exact hx hm c hc
    | parked c ho hq hs => exact h.keep (by simp) fun c hc => .inl hc
  | @resume p o ht ha =>
    refine h.keep (by simp) fun c hc => .inr ?_
    rcases o with x | a
    · obtain ⟨rfl, hm⟩ := h.told p x ha
      exact hx hm c hc
    · cases hc
  | @drain c ht =>
    have hd := hs.drain
    generalize s.consumer.exchange s.consumer.channel.tryRead = f at hd
    generalize s.consumer.channel.tryRead.result = o at hd
    refine h.keep (fun p x ha => ?_) fun x hc => .inl ?_
    · cases hd with
      | took r a ws c' hq hs => exact ha
      | empty g hq => exact ha
    · rw [ht]
      rcases o with g | a <;> exact hc

/-- A completion that is reduced may end the combination, and nothing else that is reduced. -/
theorem reduce (h : Ends t s) (hk : Combination.Held t (s.refit b)) {x : C.Action}
    {r : Reduced C.State C.Right} (ht : s.consumer.turn = .reduce x)
    (hr : C.reduce s.machine.current x = .ok r) :
    Ends (t ++ [⟨.reduced x r.effect, r.answers⟩]) (Combination.tell { s with
      consumer := s.consumer.goOn (Turn.next (.reduce x) r.effect)
      machine := { s.machine with current := r.current } } r.answers) := by
  obtain ⟨i, y, k, r', rfl, -, hr', hx⟩ := hk.reduces ht
  obtain rfl : r = r' := Except.ok.inj (hr.symm.trans hr')
  refine h.keep (fun _ _ => id) fun c hc => .inr ?_
  cases hx with
  | held a m hp hm => cases hc
  | passed c' m hp hm => cases hc
  | ended c' m hp =>
    obtain rfl : c' = c := Option.some.inj hc
    exact .reduced i c' k (by simp)

/-- Every step tells why it ends the combination. -/
theorem step (h : Ends t s) (hk : Combination.Held t (s.refit b)) (hc : Combination.Closes t s)
    (hs : Combination.Step s e s') : Ends (t ++ [e]) s' := by
  have hsound : s.consumer.Sound := hk.sound.rebuffer s.consumer.channel.buffering
  cases hs with
  | send i x hi hx => exact h.send hsound
  | cancel => exact h.keep (fun _ _ => id) fun _ => .inl
  | close hx => exact h.close hsound (hc.cancelled hx)
  | start ht => exact h.keep (fun _ _ => id) fun c hc => nomatch hc
  | tacit hf => exact h.tacit hc hsound hf
  | reduce ht hr => exact h.reduce hk ht hr
  | idle ht hd hm => exact h.keep (fun _ _ => id) fun c hc => nomatch hc
  | push ht hd hm => exact h.keep (fun _ _ => id) fun _ => .inl
  | @reply v ps answer ht hd =>
    refine h.keep (fun _ _ => id) fun c hc => .inr ?_
    rw [Combination.tell_consumer, Consumer.goOn_turn] at hc
    rcases hf : (Delivery.ofAnswer answer).result with f | _
    · rw [hf] at hc
      obtain rfl := Option.some.inj hc
      exact .replied v ps answer f (by simp) hf
    · rw [hf] at hc
      cases hc
  | @finish c ht =>
    have hd := hsound.close c
    have ha := hd.awaited (hsound.awaits_nothing (by simp [ht]))
    refine h.keep (fun p f hx => ?_) fun c' hc' => .inl (ht ▸ hc')
    cases ha.symm.trans hx
  | finalize ht => exact h.keep (fun _ _ => id) fun c hc => .inl (ht ▸ hc)
  | dispose ht => exact h.keep (fun _ _ => id) fun c hc => .inl (ht ▸ hc)

end Ends

/-! ## Every run -/

/-- Why an event is refused: there is no room for it, or the channel is closed. -/
def Refused (b : Buffering) (t : List (Seen C)) (s : Combination C) (f : Fault) : Prop :=
  (f = Fault.ofKind .channelFull ∧ ∃ n < Fintype.card C.Feeder, b.admits n = false) ∨
    ∃ y, y.fault = f ∧ s.ClosedBy t y

/-- What holds all along a run, whatever the buffering. -/
structure Spilling (b : Buffering) (t : List (Seen C)) (s : Combination C) : Prop where
  buffering : s.consumer.channel.buffering = b
  held : Combination.Held t (s.refit C.buffering)
  closes : Combination.Closes t s
  numbered : Combination.Numbered t s
  completions : Completions t s
  ends : Ends t s
  about : ∀ d ∈ deeds t, ∀ r ∈ d.about, ∃ x, .sent r.1 x r.2 none ∈ deeds t
  refused : ∀ i x k f, .sent i x k (some f) ∈ deeds t →
    ((i, k), settlement (.ofFault f)) ∈ answers t ∧ Refused b t s f

namespace Spilling

theorem sound (h : Spilling b t s) : s.consumer.Sound :=
  h.held.sound.rebuffer s.consumer.channel.buffering

theorem step (h : Spilling b t s) (hs : Combination.Step s e s') : Spilling b (t ++ [e]) s' := by
  have hbuf : s'.consumer.channel.buffering = b := by
    rcases hs.consumer with hc | ⟨e', hc⟩
    · rw [hc, h.buffering]
    · exact (hc.buffering h.sound).trans h.buffering
  have hrefused : (∀ i x k f, e.deed = .sent i x k (some f) →
      ((i, k), settlement (.ofFault f)) ∈ e.answers ∧ Refused b t s' f) →
      ∀ i x k f, .sent i x k (some f) ∈ deeds (t ++ [e]) →
      ((i, k), settlement (.ofFault f)) ∈ answers (t ++ [e]) ∧ Refused b (t ++ [e]) s' f := by
    intro hnew i x k f hm
    rw [deeds_snoc, List.mem_append, List.mem_singleton] at hm
    rw [answers_snoc]
    rcases hm with hm | hm
    · obtain ⟨ha, hf⟩ := h.refused i x k f hm
      exact ⟨List.mem_append_left _ ha,
        hf.imp_right fun ⟨y, hy, hc⟩ => ⟨y, hy, hc.snoc (hs.completion? h.sound) e⟩⟩
    · obtain ⟨ha, hf⟩ := hnew i x k f hm.symm
      exact ⟨List.mem_append_right _ ha, hf.imp_right fun ⟨y, hy, hc⟩ => ⟨y, hy, hc.snoc id e⟩⟩
  have habout : (∀ r ∈ e.deed.about, ∃ x, .sent r.1 x r.2 none ∈ deeds t) →
      ∀ d ∈ deeds (t ++ [e]), ∀ r ∈ d.about, ∃ x, .sent r.1 x r.2 none ∈ deeds (t ++ [e]) := by
    intro hnew d hd r hr
    rw [deeds_snoc, List.mem_append, List.mem_singleton] at hd
    rcases hd with hd | rfl
    · exact (h.about d hd r hr).imp fun x hx => mem_deeds_snoc hx e
    · exact (hnew r hr).imp fun x hx => mem_deeds_snoc hx e
  rcases hs.refit h.held with hr | ⟨i, x, hx⟩
  · refine ⟨hbuf, h.held.step hr, h.closes.step h.sound hs, h.numbered.step hs,
      h.completions.step hs, h.ends.step h.held h.closes hs, habout fun r => h.held.about hr,
      hrefused fun i x k f he => ?_⟩
    have hc : Combination.Closes t (s.refit C.buffering) := ⟨h.closes.cancelled, h.closes.closed⟩
    exact ((h.held.rightly hc hr).refused i x k f he).imp_right .inr
  · refine ⟨hbuf, hx.held h.held, h.closes.step h.sound hs, h.numbered.step hs,
      h.completions.step hs, h.ends.step h.held h.closes hs, habout ?_, hrefused ?_⟩
    · rw [hx.seen]
      exact fun r hr => nomatch hr
    · rw [hx.seen]
      intro j y k f he
      obtain ⟨rfl, -, rfl, hf⟩ := Deed.sent.inj he
      obtain rfl := Option.some.inj hf
      exact ⟨List.mem_singleton_self _,
        .inl ⟨rfl, _, h.held.stocked.unattended_lt hx.idle, h.buffering ▸ hx.full⟩⟩

end Spilling

theorem spilling_run (h : Run Combination.Step (.buffered C b) t s) : Spilling b t s := by
  have hc := completions_run (.nil : Run Combination.Step (.new C) [] _)
  have hn := (Combination.kept_new C).numbered
  refine h.invariant ⟨rfl, Combination.held_new C, ⟨?_, ?_⟩, ⟨hn.sent, hn.once⟩,
    ⟨hc.ended, hc.once⟩, ⟨?_, ?_⟩, ?_, ?_⟩ Spilling.step
  · exact fun hx => nomatch hx
  · exact fun x hx => nomatch hx
  · exact fun p f ha => nomatch ha
  · exact fun c hc => nomatch hc
  · exact fun d hd => nomatch hd
  · exact fun i x k f hd => nomatch hd

/-! ## Whoever counts -/

/-- A forwarder counts the feeders that are done, and only when all of them are does a reduction
    finish it. -/
structure Counting (F : Forwarder C) (t : List (Seen C)) (s : Combination C) : Prop where
  counted : s.consumer.turn.completion? = none →
    ∃ D, Counted F.tally t (s.refit C.buffering) D
  behind : ∀ i c k effect, .reduced (C.inlet i (.completion c) k) effect ∈ deeds t →
    .sent i (.completion c) k none ∈ deeds t
  all : ∀ x, .reduced x (.completion .finished) ∈ deeds t → ∀ i, ∃ c, Done t i c

namespace Counting

variable {F : Forwarder C}

/-- A reduction that finishes a forwarder is that of the last completion. -/
theorem last (h : Counting F t s) (hk : Spilling b t s) {x : C.Action}
    {r : Reduced C.State C.Right} (ht : s.consumer.turn = .reduce x)
    (hr : C.reduce s.machine.current x = .ok r) (he : r.effect = .completion .finished)
    (j : C.Feeder) : ∃ c, Done (t ++ [⟨.reduced x r.effect, r.answers⟩]) j c := by
  obtain ⟨D, hD⟩ := h.counted (by rw [ht]; rfl)
  obtain ⟨i, y, k, r', rfl, hd, hr', hx⟩ := hk.held.reduces ht
  obtain rfl : r = r' := Except.ok.inj (hr.symm.trans hr')
  cases hx with
  | held a m hp hm => cases he
  | passed c m hp hm => cases he
  | ended c m hp =>
    obtain rfl : c = .finished := Effect.completion.inj he
    have hi : i ∉ D := hD.fresh hk.held ⟨hk.completions.ended, hk.completions.once⟩ ht hd
    by_cases hj : j = i
    · exact ⟨.finished, F.tally.done_reduced.2 (.inr ⟨hj, rfl⟩)⟩
    · rcases F.finished hD.counts hi hr with hn | ⟨-, hu⟩
      · cases hn
      · have hm : j ∈ insert i D := hu ▸ Finset.mem_univ j
        obtain ⟨c, hc⟩ := (hD.done j).1 ((Finset.mem_insert.1 hm).resolve_left hj)
        exact ⟨c, hc.snoc _⟩

theorem step [Nonempty C.Feeder] (h : Counting F t s) (hk : Spilling b t s)
    (hs : Combination.Step s e s') : Counting F (t ++ [e]) s' := by
  refine ⟨fun hn => ?_, fun i c k effect hx => ?_, fun x hx j => ?_⟩
  · obtain ⟨D, hD⟩ := h.counted (by
      rcases ht : s.consumer.turn.completion? with _ | x
      · rfl
      · simp [hs.completion? hk.sound ht] at hn)
    rcases hs.refit hk.held with hr | ⟨i, x, hx⟩
    · exact hD.step hk.held ⟨hk.completions.ended, hk.completions.once⟩ hr hn
    · obtain ⟨hi, -, ho, hf, rfl, rfl⟩ := hx
      exact ⟨D, hD.keep hD.counts (by simp) id⟩
  · rw [deeds_snoc, List.mem_append, List.mem_singleton] at hx
    rcases hx with hx | hx
    · exact mem_deeds_snoc (h.behind i c k effect hx) e
    · cases hs with
      | reduce ht hr =>
        obtain ⟨j, y, l, r, rfl, hd, -⟩ := hk.held.reduces ht
        obtain ⟨rfl, rfl, rfl⟩ := F.tally.completion (Deed.reduced.inj hx).1.symm
        exact mem_deeds_snoc hd _
      | send j y hj hy =>
        rw [Combination.send] at hx
        split at hx <;> cases hx
      | _ => cases hx
  · rw [deeds_snoc, List.mem_append, List.mem_singleton] at hx
    rcases hx with hx | hx
    · exact (h.all x hx j).imp fun c hc => hc.snoc e
    · cases hs with
      | reduce ht hr => exact h.last hk ht hr (Deed.reduced.inj hx).2.symm j
      | send i y hi hy =>
        rw [Combination.send] at hx
        split at hx <;> cases hx
      | _ => cases hx

end Counting

theorem counting_run [Nonempty C.Feeder] (F : Forwarder C)
    (h : Run Combination.Step (.buffered C b) t s) : Counting F t s := by
  refine (h.invariant (P := fun t s => Run Combination.Step (.buffered C b) t s ∧ Counting F t s)
    ⟨.nil, fun _ => ⟨∅, counted_new F.tally⟩, fun i c k f hx => (nomatch hx),
      fun x hx => (nomatch hx)⟩
    fun ⟨hr, hp⟩ hs => ⟨hr.snoc hs, hp.step (spilling_run hr) hs⟩).2

/-- Whether every value is pushed on its own: in a selection and a merge it is. -/
def Plain.Forwards : Plain → Prop
  | zip _ _ => False
  | select _ _ | merge _ _ => True

/-- What forwards the values of a selection or a merge. -/
def Plain.forwarder : (p : Plain) → p.Forwards → Forwarder p.combiner
  | zip _ _, h => h.elim
  | select α β, _ => .merging Side (Combiner.Sides α β) (Either α β) _ 2 card_side_le
  | merge α n, _ => .merging (Fin n) (fun _ => α) α (fun _ => id) (max n 1) (card_fin_le n)

/-- What becomes of a combination, whatever room there is in its channel. -/
structure Spilled (p : Plain) (b : Buffering) (t : List (Seen p.combiner))
    (s : Combination p.combiner) : Prop where
  /-- An event that an open channel refuses finds it full. Its sender gets the fault, and nothing
      else changes. -/
  full : ∀ i x f, s.unanswered i = none → s.consumer.channel.completion = none →
    (s.send i x).2.deed = .sent i x (s.sent i) (some f) →
    f = Fault.ofKind .channelFull ∧ (s.send i x).2.answers = [((i, s.sent i), .error f)] ∧
      (s.send i x).1.consumer = s.consumer ∧ (s.send i x).1.machine = s.machine ∧
      (s.send i x).1.delivering = s.delivering
  /-- Whoever sends an event that is refused is settled at once: there was less room than for one
      event of every feeder, or the channel was closed. -/
  refused : ∀ i x k f, .sent i x k (some f) ∈ deeds t →
    ((i, k), settlement (.ofFault f)) ∈ answers t ∧ Refused b t s f
  /-- An event that is refused is lost. -/
  lost : ∀ i x k f, .sent i x k (some f) ∈ deeds t → ∀ d ∈ deeds t, (i, k) ∉ d.about
  /-- A combination is ended by a completion that it reduces, by the downstream, or by somebody who
      cancels it, and by nothing else. -/
  ended : ∀ c, s.consumer.turn.completion? = some c → EndedBy t c
  /-- A merge or a selection that has lost a completion does not finish by itself. -/
  unfinished : p.Forwards → ∀ i c k f, .sent i (.completion c) k (some f) ∈ deeds t →
    ∀ c', s.consumer.turn.completion? = some c' →
      (∃ j g, Done t j (.failure g)) ∨ (∃ v ps answer, .replied v ps answer ∈ deeds t ∧
        answer ≠ .ok .more) ∨ .cancelled ∈ deeds t

/-- Whatever room there is in the channel of a combination, an event that finds it full is lost,
    and nobody but its sender learns of it. -/
theorem spilled (p : Plain) {b : Buffering} {t : List (Seen p.combiner)}
    {s : Combination p.combiner}
    (h : Run Combination.Step (.buffered p.combiner b) t s) : Spilled p b t s := by
  have hk := spilling_run h
  refine ⟨fun i x f hi ho he => ?_, hk.refused, fun i x k f hm d hd ha => ?_, hk.ends.ended,
    fun hp i c k f hm c' hc' => ?_⟩
  · have hw := hk.sound.write none (p.combiner.inlet i x (s.sent i))
    rw [Combination.send] at he ⊢
    generalize s.consumer.exchange
      (s.consumer.channel.write none (p.combiner.inlet i x (s.sent i))) = g at *
    generalize (s.consumer.channel.write none (p.combiner.inlet i x (s.sent i))).result = w at *
    cases hw with
    | closed y hy => simp [ho] at hy
    | full ho' hw hp hb =>
      obtain rfl := Option.some.inj (Deed.sent.inj he).2.2.2
      exact ⟨rfl, rfl, rfl, rfl, rfl⟩
    | met r c ho' ha hq hs => cases he
    | queued c ho' hw hs => cases he
  · obtain ⟨y, hy⟩ := hk.about d hd _ ha
    cases (hk.numbered.once i k x y _ _ hm hy).2
  · cases hk.ends.ended c' hc' with
    | replied v ps answer g hr hg =>
      refine .inr (.inl ⟨v, ps, answer, hr, ?_⟩)
      rintro rfl
      cases hg
    | cancelled hx => exact .inr (.inr hx)
    | reduced j _ l hr =>
      rcases c' with _ | g
      · -- The completion that was lost would be one of those that were reduced.
        have : Nonempty p.combiner.Feeder := ⟨i⟩
        have hF := counting_run (p.forwarder hp) h
        obtain ⟨c'', k', effect, hd⟩ := hF.all _ hr i
        have hs := hF.behind i c'' k' effect hd
        obtain rfl := hk.completions.once i c c'' k k' _ _ hm hs
        cases (hk.numbered.once i k _ _ _ _ hm hs).2
      · exact .inl ⟨j, g, l, _, hr⟩

/-- The completion of one feeder of a merge comes while the value of the other one is on its way.
    When both have ended, the merge waits. -/
theorem spilled_completion : ∃ (t : List (Seen (Plain.merge Nat 2).combiner))
    (s : Combination (Plain.merge Nat 2).combiner),
    Run Combination.Step (.buffered (Plain.merge Nat 2).combiner (.oldest 0)) t s ∧
      Spilled (.merge Nat 2) (.oldest 0) t s ∧ (∀ i, s.ended i = true) ∧
      (∀ i, s.unanswered i = none) ∧ s.consumer.turn = .read ∧ s.consumer.awaited = some (2, none) ∧
      answers t = [(((1 : Fin 2), 0), .error (Fault.ofKind .channelFull)),
        (((0 : Fin 2), 0), .ok .more), (((0 : Fin 2), 1), .ok .done)] := by
  have new : Run Combination.Step (.buffered (Plain.merge Nat 2).combiner (.oldest 0)) [] _ := .nil
  have parked := new.snoc (.start rfl) |>.snoc (.tacit (.checkpoint rfl))
    |>.snoc (.tacit (.read 0 rfl rfl))
  -- The consumer has not yet taken the value that it was handed when the completion comes.
  have lost := parked.snoc (.send (0 : Fin 2) (.value (5 : Nat)) rfl (fun _ => rfl))
    |>.snoc (.send (1 : Fin 2) (.completion .finished) rfl (fun _ => rfl))
  have pushed := lost.snoc (.tacit (.resume rfl rfl)) |>.snoc (.reduce rfl rfl)
    |>.snoc (.push rfl rfl rfl) |>.snoc (.reply (.ok .more) rfl rfl)
  have parked := pushed.snoc (.tacit (.checkpoint rfl)) |>.snoc (.tacit (.read 1 rfl rfl))
  have counted := parked.snoc (.send (0 : Fin 2) (.completion .finished) rfl (fun _ => rfl))
    |>.snoc (.tacit (.resume rfl rfl)) |>.snoc (.reduce rfl rfl) |>.snoc (.idle rfl rfl rfl)
  have run := counted.snoc (.tacit (.checkpoint rfl)) |>.snoc (.tacit (.read 2 rfl rfl))
  exact ⟨_, _, run, spilled (.merge Nat 2) run, Fin.forall_fin_two.2 ⟨rfl, rfl⟩,
    Fin.forall_fin_two.2 ⟨rfl, rfl⟩, rfl, rfl, rfl⟩

/-- A merge without room loses the completion of one of its upstreams, and waits for ever. -/
theorem merge_without_room_waits :
    (match Reactor.Session.run .cancel false
      [.gate "g" none,
        .sink "s" (.merge [.items [.int 1], .items [.int 2]] (some (.oldest 0)))
          ⟨none, none, Fault.ofKind .user, some 1, "g", none, .answer .more⟩,
        .openGate "g" (.ok .null), .pollValue "s"] with
    | .ok ([_, _, ⟨.done, [.sink "s" (.resumed _)]⟩, ⟨.pending, []⟩], _) => true
    | _ => false) = true := by
  decide +kernel

end ResumeOnce.Streams
