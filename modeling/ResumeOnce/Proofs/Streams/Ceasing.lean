import ResumeOnce.Proofs.Fold.Undisturbed
import ResumeOnce.Proofs.Streams.Pairing

/-!
# A fold that only a cancellation ends

A fold goes on as long as its feeders send values and its downstream wants more of them. When it
is cancelled it comes to its end by itself: it may take one more event that is in the channel, or
comes into it before it is closed, and push one more value, and then it finds that it was cancelled,
at its next checkpoint or in the closed channel.

* `Consumer.Steady`, `Combination.Steady`: nothing but a cancellation ends the fold;
* `Combination.Steady.step`: feeders that send values, and a downstream that wants more, leave
  it so;
* `Combination.allowance`: how many values a fold that was cancelled may still push;
* `Combination.ahead`: how far it is from its end;
* `Combination.Steady.reason`: what the feeders are answered.
-/

namespace ResumeOnce.Fold

variable {ρ α : Type}

/-- The completion with which a fold was finalized. -/
def Turn.finalized? : Turn α → Option Completion
  | drain c | dispose _ c | stop c => some c
  | _ => none

/-- A loop that goes on, whose end is not known. -/
theorem Turn.finalized?_of_none {turn : Turn α} (h : turn.completion? = none) :
    turn.finalized? = none := by
  cases turn <;> first | rfl | cases h

namespace Consumer

variable {s s' : Consumer ρ α}

/-- Nothing has ended the loop, or will end it, but a cancellation, if there was one. -/
structure Steady (s : Consumer ρ α) : Prop where
  channel : ∀ x, s.channel.completion = some x →
    s.cancelled = true ∧ x = .failure Fault.cancelled
  stops : ∀ c, s.turn.completion? = some c → s.cancelled = true ∧ c = .failure Fault.cancelled
  fails : ∀ p f, s.awaited = some (p, some (.error f)) →
    s.cancelled = true ∧ f = Fault.cancelled

theorem steady_new (b : Buffering) : (new b : Consumer ρ α).Steady where
  channel _ h := nomatch h
  stops _ h := nomatch h
  fails _ _ h := nomatch h

namespace Steady

/-- The fold goes on with a turn. -/
theorem goOn (h : s.Steady) {turn : Turn α}
    (ht : ∀ c, turn.completion? = some c → s.cancelled = true ∧ c = .failure Fault.cancelled) :
    (s.goOn turn).Steady :=
  ⟨h.channel, ht, h.fails⟩

theorem write [DecidableEq ρ] (h : s.Steady) (hs : s.Sound) (p : Option ρ) (a : α) :
    (s.exchange (s.channel.write p a)).Steady := by
  have hw := hs.write p a
  have hc := hw.completion
  generalize s.exchange (s.channel.write p a) = s', (s.channel.write p a).result = w at hw hc ⊢
  refine ⟨fun x hx => ?_, ?_, fun p f ha => ?_⟩
  · rw [hw.cancelled]
    exact h.channel x (hc.symm.trans hx)
  · rw [hw.turn, hw.cancelled]
    exact h.stops
  · cases hw with
    | closed | full | queued => exact h.fails p f ha
    | met r c ho hr hq hs => cases ha

/-- The fold is cancelled. -/
theorem cancel (h : s.Steady) : ({ s with cancelled := true } : Consumer ρ α).Steady :=
  ⟨fun x hx => ⟨rfl, (h.channel x hx).2⟩, fun c hc => ⟨rfl, (h.stops c hc).2⟩,
    fun p f ha => ⟨rfl, (h.fails p f ha).2⟩⟩

/-- Who has cancelled a fold closes its channel, or it does so itself. -/
theorem close [DecidableEq ρ] (h : s.Steady) (hs : s.Sound) {c : Completion}
    (hx : s.cancelled = true ∧ c = .failure Fault.cancelled) :
    (s.exchange (s.channel.close c)).Steady := by
  have hc := hs.close c
  generalize s.exchange (s.channel.close c) = s', (s.channel.close c).result = done at hc ⊢
  cases hc with
  | before hy => exact h
  | now c' ho hs =>
    refine ⟨fun y hy => ?_, h.stops, fun p f ha => ?_⟩
    · obtain rfl := Option.some.inj (hs.completion.symm.trans hy)
      exact hx
    · -- Whoever waits for an event learns of the cancellation; a value that has come stays.
      rcases hw : s.awaited with _ | ⟨p', _ | o⟩
      · simp [Consumer.answer, hw] at ha
      · simp [Consumer.answer, hw, hx.2] at ha
        exact ⟨hx.1, ha.2.symm⟩
      · simp [Consumer.answer, hw] at ha
        exact h.fails p' f (by rw [hw, ha.2])

/-- A consumer that goes on by itself ends the loop only when it was cancelled. -/
theorem tacit [DecidableEq ρ] (h : s.Steady) (hs : s.Sound) (ht : Step s .tacit s') :
    s'.Steady := by
  cases ht with
  | checkpoint ht =>
    refine h.goOn fun c hc => ?_
    rcases hq : s.cancelled with _ | _
    · simp [Consumer.checkpoint, hq, Turn.next, Turn.completion?] at hc
    · simp only [Consumer.checkpoint, hq, if_true, Turn.next, Turn.completion?] at hc
      exact ⟨rfl, (Option.some.inj hc).symm⟩
  | read p ht ha =>
    have hr := hs.read ha p
    generalize s.read p = s' at hr ⊢
    cases hr with
    | took r a ws c hq hc =>
      refine ⟨fun x hx => h.channel x (hc.completion.symm.trans hx), ?_, h.fails⟩
      rintro _ ⟨⟩
    | closed x hx hq =>
      obtain ⟨hy, rfl⟩ := h.channel x hx
      exact h.goOn fun c hc => ⟨hy, (Option.some.inj hc).symm⟩
    | parked c ho hq hc =>
      refine ⟨fun x hx => (by cases hc.completion.symm.trans hx), h.stops, ?_⟩
      rintro _ _ ⟨⟩
  | @resume p o ht ha =>
    rcases o with f | a
    · obtain ⟨hy, rfl⟩ := h.fails p f ha
      refine ⟨h.channel, fun c hc => ⟨hy, (Option.some.inj hc).symm⟩, ?_⟩
      rintro _ _ ⟨⟩
    · refine ⟨h.channel, ?_, ?_⟩
      · rintro _ ⟨⟩
      · rintro _ _ ⟨⟩
  | @drain c ht =>
    have hx := h.stops c (by rw [ht]; rfl)
    have ha := hs.awaits_nothing (by simp [ht])
    have hd := hs.drain
    generalize s.exchange s.channel.tryRead = s', s.channel.tryRead.result = o at hd ⊢
    cases hd with
    | took r a ws c' hq hc =>
      refine ⟨fun x hx => h.channel x (hc.completion.symm.trans hx), ?_, h.fails⟩
      rintro _ ⟨⟩
      exact hx
    | empty f hq =>
      refine h.goOn ?_
      rintro _ ⟨⟩
      exact hx

/-- A consumer whose loop has ended closes its channel. -/
theorem finish [DecidableEq ρ] (h : s.Steady) (hs : s.Sound) {c : Completion}
    (ht : s.turn = .close c) : (s.finish c).Steady := by
  have hx := h.stops c (by rw [ht]; rfl)
  refine (h.close hs hx).goOn ?_
  rintro _ ⟨⟩
  exact ⟨(hs.close c).cancelled.trans hx.1, hx.2⟩

end Steady

/-- A consumer that goes on by itself does not finalize its folder. -/
theorem Step.finalized? [DecidableEq ρ] (ht : Step s .tacit s') (hs : s.Sound) {c : Completion}
    (hc : s'.turn.finalized? = some c) : s.turn.finalized? = some c := by
  cases ht with
  | checkpoint ht =>
    rcases hx : s.checkpoint with f | _ <;> simp [hx, Turn.next, Turn.finalized?] at hc
  | read p ht ha =>
    have hr := hs.read ha p
    generalize s.read p = s' at hr hc
    cases hr with
    | took r a ws c' hq hx => cases hc
    | closed x hx hq => cases hc
    | parked c' ho hq hx => exact hc
  | @resume p o ht ha => rcases o with f | a <;> cases hc
  | drain ht =>
    rcases hx : s.channel.tryRead.result with f | a <;>
      simpa [hx, Turn.next, Turn.finalized?, ht] using hc

end Consumer

end ResumeOnce.Fold

namespace ResumeOnce.Streams

open Fold (Consumer Turn Effect)

variable {C : Combiner}

/-- Whether a machine that is finalized keeps the completion. -/
def Combiner.Records (C : Combiner) : Prop :=
  ∀ m c, (C.finalize m c).1.completion = some c

/-- Every machine of a plain combination keeps the completion that it is finalized with. -/
theorem records (p : Plain) : p.combiner.Records := by
  cases p <;> exact fun _ _ => rfl

/-- Whether something ends no fold that goes on: the downstream wants more of every value, and the
    channel accepts no completion. -/
def Deed.Harmless : Deed C → Prop
  | .sent _ (.completion _) _ none => False
  | .replied _ _ answer => answer = .ok .more
  | _ => True

@[simp]
theorem pushed_append (t t' : List (Seen C)) : pushed (t ++ t') = pushed t ++ pushed t' := by
  simp [pushed, deeds]

namespace Combination

variable {t : List (Seen C)} {s s' : Combination C} {e : Seen C}

/-! ## Nothing but a cancellation ends a fold -/

/-- Nothing has ended a fold, or will end it, but a cancellation, if there was one. -/
structure Steady (s : Combination C) : Prop where
  consumer : s.consumer.Steady
  values : ∀ x ∈ s.consumer.load, ∃ i a k, x = C.inlet i (.value a) k
  recorded : ∀ c, s.consumer.turn.finalized? = some c → s.machine.completion = some c

theorem steady_new (C : Combiner) : (new C).Steady where
  consumer := Consumer.steady_new _
  values _ hx := nomatch hx
  recorded _ h := nomatch h

/-- An event that comes when the channel is closed is refused. -/
theorem Held.send_closed (h : Held t s) {x : Completion}
    (hx : s.consumer.channel.completion = some x) (i : C.Feeder) (y : Event (C.Input i)) :
    (s.send i y).2.deed = .sent i y (s.sent i) (some x.fault) := by
  have hw := h.sound.write none (C.inlet i y (s.sent i))
  rw [Combination.send]
  generalize s.consumer.channel.write none (C.inlet i y (s.sent i)) = w at hw ⊢
  generalize hr : w.result = r at hw ⊢
  generalize s.consumer.exchange w = f at hw ⊢
  cases hw with
  | closed z hz =>
    cases hx.symm.trans hz
    rfl
  | full ho | met _ _ ho | queued _ ho => cases hx.symm.trans ho

/-- The machine holds a value that it reduces. -/
theorem Held.holds (h : Held t s) (hs : s.Steady) {x : C.Action}
    (ht : s.consumer.turn = .reduce x) {r : Reduced C.State C.Right}
    (hr : C.reduce s.machine.current x = .ok r) : r.effect = .none := by
  obtain ⟨i, a, k, rfl⟩ := hs.values x (by simp [h.load_reduce ht .none])
  have hp := h.phase
  rw [Phase, ht] at hp
  obtain ⟨r', hr', hx⟩ := ready_reduces hp.1 (h.expected ht) (.value a) k
  cases hr.symm.trans hr'
  cases hx
  rfl

/-- Only who finalizes a fold makes it finalized. -/
theorem Step.finalized? (hs : Step s e s') (h : s.consumer.Sound) {c : Completion}
    (hc : s'.consumer.turn.finalized? = some c) :
    s.consumer.turn.finalized? = some c ∨ e.deed = .finalized c := by
  cases hs with
  | send i y hi hy =>
    rw [send_consumer, (h.write none _).turn] at hc
    exact .inl hc
  | cancel | push => exact .inl hc
  | close =>
    rw [show _ = s.consumer.turn from (h.close _).turn] at hc
    exact .inl hc
  | tacit hf => exact .inl (hf.finalized? h hc)
  | @reduce x r ht hr => cases hx : r.effect <;> simp [hx, Turn.next, Turn.finalized?] at hc
  | reply answer ht hd => rcases answer with f | _ | _ <;> cases hc
  | start | idle | finish => cases hc
  | finalize ht =>
    cases hc
    exact .inr rfl
  | dispose ht =>
    cases hc
    exact .inl (by rw [ht]; rfl)

/-- Nothing but a cancellation ends a fold, as long as its feeders send values and its downstream
    wants more of them. -/
theorem Steady.step (h : s.Steady) (hk : Held t s) (hC : C.Records) (hs : Step s e s')
    (hd : e.deed.Harmless) : s'.Steady := by
  have hv : s'.consumer.load ⊆ s.consumer.load →
      ∀ x ∈ s'.consumer.load, ∃ i a k, x = C.inlet i (.value a) k :=
    fun hl x hx => h.values x (hl hx)
  cases hs with
  | send i y hi hy =>
    have hw := hk.sound.write none (C.inlet i y (s.sent i))
    refine ⟨?_, fun x hx => ?_, ?_⟩
    · rw [send_consumer]
      exact h.consumer.write hk.sound none _
    · have hn := hk.send hi y
      generalize (s.send i y).1 = s', (s.send i y).2 = e at hn hd hx
      cases hn with
      | accepted f hf =>
        rcases y with a | c
        · have hx : x ∈ s.consumer.load ++ [C.inlet i (.value a) (s.sent i)] := hf ▸ hx
          rcases List.mem_append.1 hx with hx | hx
          · exact h.values x hx
          · exact ⟨i, a, s.sent i, List.mem_singleton.1 hx⟩
        · exact hd.elim
      | refused c => exact h.values x hx
    · rw [send_consumer, hw.turn, (s.send_delivering i y).2]
      exact h.recorded
  | cancel => exact ⟨h.consumer.cancel, h.values, h.recorded⟩
  | close hq =>
    have hc := hk.sound.close (.failure Fault.cancelled)
    refine ⟨h.consumer.close hk.sound ⟨hq, rfl⟩, hv (hc.load ▸ List.Subset.refl _), ?_⟩
    rw [hc.turn]
    exact h.recorded
  | start ht =>
    exact ⟨h.consumer.goOn nofun, hv ((Consumer.Step.start ht).load_subset hk.sound rfl), nofun⟩
  | tacit hf =>
    exact ⟨h.consumer.tacit hk.sound hf, hv (hf.load_subset hk.sound rfl),
      fun c hc => h.recorded c (hf.finalized? hk.sound hc)⟩
  | @reduce x r ht hr =>
    obtain ⟨m, as, effect⟩ := r
    obtain rfl : effect = .none := hk.holds h ht hr
    exact ⟨h.consumer.goOn nofun, hv ((Consumer.Step.reduce .none ht).load_subset hk.sound rfl),
      nofun⟩
  | idle ht hd' hn =>
    exact ⟨h.consumer.goOn nofun, hv ((Consumer.Step.emit (.ok ()) ht).load_subset hk.sound rfl),
      nofun⟩
  | push ht hd' hm => exact ⟨h.consumer, h.values, h.recorded⟩
  | reply answer ht hd' =>
    obtain rfl : answer = .ok .more := hd
    exact ⟨h.consumer.goOn nofun, hv ((Consumer.Step.emit (.ok ()) ht).load_subset hk.sound rfl),
      nofun⟩
  | finish ht =>
    exact ⟨h.consumer.finish hk.sound ht, hv ((Consumer.Step.finish ht).load_subset hk.sound rfl),
      nofun⟩
  | @finalize c ht =>
    refine ⟨h.consumer.goOn fun c' hc => ?_,
      hv ((Consumer.Step.finalize ht).load_subset hk.sound rfl), fun c' hc => ?_⟩
    · exact h.consumer.stops c' (by rw [ht]; exact hc)
    · cases hc
      exact hC s.machine c
  | @dispose x c ht =>
    refine ⟨h.consumer.goOn fun c' hc => ?_,
      hv ((Consumer.Step.dispose ht).load_subset hk.sound rfl), fun c' hc => ?_⟩
    · exact h.consumer.stops c' (by rw [ht]; exact hc)
    · exact h.recorded c' (by rw [ht]; exact hc)

/-! ## How far a fold is from its end -/

/-- How many values a fold that was cancelled may still push. -/
def allowance (s : Combination C) : Nat :=
  match s.consumer.turn with
  | .read | .reduce _ => 1
  | .emit => if s.delivering.isSome then 0 else 1
  | _ => 0

theorem allowance_le (s : Combination C) : s.allowance ≤ 1 := by
  rw [allowance]
  split
  · exact Nat.le_refl _
  · exact Nat.le_refl _
  · split <;> simp
  · exact Nat.zero_le _

/-- How many steps a fold that was cancelled has still to take, at most. -/
def ahead (s : Combination C) : Nat :=
  s.consumer.remaining +
    match s.consumer.turn with
    | .start => 5
    | .checkpoint => 4
    | .read => 8
    | .reduce _ => 7
    | .emit => if s.delivering.isSome then 5 else 6
    | _ => 0

/-- What a step of a fold that was cancelled comes to: it uses up a value that it pushes, and if it
    is its own step, and the channel is closed, it comes nearer to the end. -/
structure Nears (s : Combination C) (e : Seen C) (s' : Combination C) : Prop where
  allowance : s'.allowance + e.deed.pushes.toList.length ≤ s.allowance
  ahead : s.consumer.channel.completion.isSome → e.deed.Own → s'.ahead < s.ahead

theorem nears_tacit (hq : s.consumer.cancelled = true) (hs : s.consumer.Sound)
    {f : Consumer Nat C.Action} (hf : Consumer.Step s.consumer .tacit f) :
    Nears s ⟨.tacit, []⟩ { s with consumer := f } := by
  cases hf with
  | checkpoint ht =>
    have hc : s.consumer.checkpoint = .error Fault.cancelled := by
      rw [Consumer.checkpoint, hq, if_pos rfl]
    rw [hc]
    refine ⟨by simp [Combination.allowance, Deed.pushes, Turn.next], fun _ _ => ?_⟩
    simp [Combination.ahead, Consumer.remaining, ht, Turn.next]
  | read p ht ha =>
    have hr := hs.read ha p
    generalize s.consumer.read p = f at hr ⊢
    cases hr with
    | took r a ws c hq hc =>
      refine ⟨by simp [Combination.allowance, Deed.pushes, ht], fun _ _ => ?_⟩
      simp [Combination.ahead, Consumer.remaining, ht, hq, hc.queued]
    | closed x hx hq =>
      refine ⟨by simp [Combination.allowance, Deed.pushes, ht], fun _ _ => ?_⟩
      simp [Combination.ahead, Consumer.remaining, ht]
    | parked c ho hq hc =>
      refine ⟨by simp [Combination.allowance, Deed.pushes, ht], fun hx => ?_⟩
      simp [ho] at hx
  | @resume p o ht ha =>
    rcases o with f | a
    · refine ⟨by simp [Combination.allowance, Deed.pushes, ht, Turn.next], fun _ _ => ?_⟩
      simp [Combination.ahead, Consumer.remaining, ht, Turn.next]
    · refine ⟨by simp [Combination.allowance, Deed.pushes, ht, Turn.next], fun _ _ => ?_⟩
      simp [Combination.ahead, Consumer.remaining, ht, Turn.next]
  | @drain c ht =>
    have hl := (Consumer.Step.drain ht).remaining_lt hs (c := c) (by rw [ht]; rfl)
      (by rcases s.consumer.channel.tryRead.result with f | a <;> simp [ht, Turn.next])
    rcases ho : s.consumer.channel.tryRead.result with f | a <;> rw [ho] at hl
    · exact ⟨by simp [Combination.allowance, Deed.pushes, Turn.next], fun _ _ => by
        simpa [Combination.ahead, ht, Turn.next] using hl⟩
    · exact ⟨by simp [Combination.allowance, Deed.pushes, Turn.next], fun _ _ => by
        simpa [Combination.ahead, ht, Turn.next] using hl⟩

/-- A fold that was cancelled comes nearer to its end. -/
theorem Steady.nears (h : s.Steady) (hq : s.consumer.cancelled = true) (hk : Held t s)
    (hs : Step s e s') (hd : e.deed.Harmless) : Nears s e s' := by
  have hp := hk.phase
  rw [Phase] at hp
  cases hs with
  | send i y hi hy =>
    have ht : (s.send i y).1.allowance = s.allowance := by
      rw [allowance, allowance, send_consumer, (hk.sound.write none _).turn,
        (s.send_delivering i y).1]
    have hn := hk.send hi y
    generalize (s.send i y).1 = s', (s.send i y).2 = e at hn ht ⊢
    cases hn <;> exact ⟨ht.le, fun _ hx => by cases hx⟩
  | cancel => exact ⟨Nat.le_refl _, fun _ hx => by cases hx⟩
  | close =>
    have ht := (hk.sound.close (.failure Fault.cancelled)).turn
    refine ⟨?_, fun _ hx => by cases hx⟩
    simp [allowance, ht, Deed.pushes]
  | start ht =>
    refine ⟨by simp [allowance, Deed.pushes, Turn.next], fun _ _ => ?_⟩
    simp [ahead, Consumer.remaining, ht, Turn.next]
  | tacit hf => exact nears_tacit hq hk.sound hf
  | @reduce x r ht hr =>
    have hn := hk.holds h ht hr
    rw [ht] at hp
    refine ⟨by simp [allowance, Deed.pushes, ht, hn, hp.2, Turn.next], fun _ _ => ?_⟩
    simp [ahead, Consumer.remaining, ht, hn, hp.2, Turn.next]
  | idle ht hd' hn =>
    refine ⟨by simp [allowance, Deed.pushes, Turn.next], fun _ _ => ?_⟩
    simp [ahead, Consumer.remaining, ht, hd', Turn.next]
  | push ht hd' hm =>
    refine ⟨by simp [allowance, Deed.pushes, ht, hd'], fun _ _ => ?_⟩
    simp [ahead, Consumer.remaining, ht, hd']
  | reply answer ht hd' =>
    obtain rfl : answer = .ok .more := hd
    refine ⟨by simp [allowance, Deed.pushes, Turn.next, Delivery.ofAnswer], fun _ _ => ?_⟩
    simp [ahead, Consumer.remaining, ht, hd', Turn.next, Delivery.ofAnswer]
  | @finish c ht =>
    have hq : (s.consumer.finish c).channel.queued = s.consumer.channel.queued :=
      (hk.sound.close c).queued
    have ht' : (s.consumer.finish c).turn = .finalize c := rfl
    refine ⟨by simp [allowance, Deed.pushes, ht'], fun _ _ => ?_⟩
    simp [ahead, Consumer.remaining, ht, ht', hq]
  | @finalize c ht =>
    refine ⟨by simp [allowance, Deed.pushes, Turn.next], fun _ _ => ?_⟩
    simp [ahead, Consumer.remaining, ht, Turn.next]
  | @dispose x c ht =>
    refine ⟨by simp [allowance, Deed.pushes, Turn.next], fun _ _ => ?_⟩
    simp [ahead, Consumer.remaining, ht, Turn.next]

/-! ## What the feeders are answered -/

/-- Whether the value of an event went to the downstream, which wanted more. -/
def Delivered (t : List (Seen C)) (r : C.Right) : Prop :=
  ∃ a v ps, .sent r.1 (.value a) r.2 none ∈ deeds t ∧ C.carries r.1 a v ∧ r ∈ ps ∧
    .pushed v ps ∈ deeds t ∧ .replied v ps (.ok .more) ∈ deeds t

/-- Nobody is answered twice. -/
theorem Kept.answered_once (hk : Kept t s) {r : C.Right} {o o' : Outcome Demand}
    (h : (r, o) ∈ answers t) (h' : (r, o') ∈ answers t) : o = o' :=
  congrArg Prod.snd
    (List.inj_on_of_nodup_map (List.nodup_append.1 hk.held.rights.nodup).1 h h' rfl)

/-- Whoever sent an event to a fold that nothing but a cancellation ends is told that more is
    wanted if its value went to the downstream, and learns of the cancellation otherwise. -/
theorem Steady.reason (h : s.Steady) (hk : Kept t s) (ht : ∀ e ∈ t, e.deed.Harmless)
    {r : C.Right} {o : Outcome Demand} (hm : (r, o) ∈ answers t) :
    o = .ok .more ∧ Delivered t r ∨ o = .error Fault.cancelled ∧ ¬Delivered t r := by
  have hd : ∀ d ∈ deeds t, d.Harmless := fun d hd =>
    let ⟨e, he, hx⟩ := List.mem_map.1 hd
    hx ▸ ht e he
  have hn : o = .error Fault.cancelled → o = .error Fault.cancelled ∧ ¬Delivered t r := by
    rintro rfl
    refine ⟨rfl, ?_⟩
    rintro ⟨a, v, ps, -, -, hp, -, ha⟩
    cases hk.answered_once hm (hk.told.delivered v ps _ ha r hp)
  have hb := hk.told.reasons r o hm
  cases hb with
  | delivered a v ps answer hs hc hp hv ha =>
    obtain rfl : o = .ok .more := hd _ ha
    exact .inl ⟨rfl, a, v, ps, hs, hc, hp, hv, ha⟩
  | accepted c effect hs hr => exact (hd _ hs).elim
  | settled e c hs hx =>
    obtain ⟨-, rfl⟩ := h.consumer.stops c hx
    exact .inr (hn rfl)
  | refused e f hs =>
    obtain ⟨-, y, rfl, hy⟩ := hk.told.refused r.1 e r.2 f hs
    rcases hy with hy | ⟨rfl, -⟩
    · obtain ⟨-, rfl⟩ := h.consumer.stops y hy
      exact .inr (hn rfl)
    · exact .inr (hn rfl)

end Combination

end ResumeOnce.Streams
