import ResumeOnce.Proofs.Streams.Custody

/-!
# Every producer is answered once, and rightly

A combination runs among its feeders. Whatever they send and in which order, whatever the
downstream answers, and whenever somebody cancels the fold: each event that is sent is
answered once, and there is a reason for each answer.

* `Because`: the reasons for an answer;
* `Combination.Told`, `Told.step`: the answers so far have their reasons;
* `Combination.Numbered`, `Numbered.step`: an event is known by its feeder and its number;
* `Held.live`: a fold that is not final goes on, unless it waits for an event;
* `Held.finishes`: a fold that has ended becomes final;
* `Answered`, `answered`: what every run comes to.
-/

namespace ResumeOnce.Streams

open Fold (Consumer Turn Effect)

variable {C : Combiner}

/-- Why a right was used with an answer. -/
inductive Because (t : List (Seen C)) (s : Combination C) (r : C.Right) : Outcome Demand → Prop
  /-- Its value went downstream, and got this answer. -/
  | delivered (a : C.Input r.1) (v : C.Output) (ps : List C.Right) (answer : Outcome Demand)
      (hs : .sent r.1 (.value a) r.2 none ∈ deeds t) (hc : C.carries r.1 a v) (hm : r ∈ ps)
      (hp : .pushed v ps ∈ deeds t) (ha : .replied v ps answer ∈ deeds t) : Because t s r answer
  /-- Its completion was reduced. -/
  | accepted (c : Completion) (effect : Effect)
      (hs : .sent r.1 (.completion c) r.2 none ∈ deeds t)
      (hr : .reduced (C.inlet r.1 (.completion c) r.2) effect ∈ deeds t) :
      Because t s r (.ok .done)
  /-- The fold ended. -/
  | settled (e : Event (C.Input r.1)) (c : Completion) (hs : .sent r.1 e r.2 none ∈ deeds t)
      (hc : s.consumer.turn.completion? = some c) : Because t s r (settlement c)
  /-- The channel was closed when its event came. -/
  | refused (e : Event (C.Input r.1)) (f : Fault) (hs : .sent r.1 e r.2 (some f) ∈ deeds t) :
      Because t s r (settlement (.ofFault f))

/-- Whether something is done by the fold itself, or answered to it. -/
def Deed.Own : Deed C → Prop
  | .sent .. | .cancelled | .closed => False
  | _ => True

theorem settlement_ne_more (c : Completion) : settlement c ≠ .ok .more := by
  cases c <;> simp [settlement]

/-- More is wanted only of whose value went downstream and got this answer. -/
theorem Because.more {t : List (Seen C)} {s : Combination C} {r : C.Right} {o : Outcome Demand}
    (h : Because t s r o) (ho : o = .ok .more) :
    ∃ a v ps, .sent r.1 (.value a) r.2 none ∈ deeds t ∧ C.carries r.1 a v ∧ r ∈ ps ∧
      .pushed v ps ∈ deeds t ∧ .replied v ps (.ok .more) ∈ deeds t := by
  cases h with
  | delivered a v ps answer hs hc hm hp ha =>
    subst ho
    exact ⟨a, v, ps, hs, hc, hm, hp, ha⟩
  | accepted => simp at ho
  | settled e c => exact absurd ho (settlement_ne_more c)
  | refused e f => exact absurd ho (settlement_ne_more _)

namespace Combination

variable {s s' : Combination C} {t : List (Seen C)} {e : Seen C}

/-! ## What stays -/

/-- The completion that ended the fold stays. -/
theorem Step.completion? (hs : Step s e s') (h : s.consumer.Sound) {c : Completion}
    (hc : s.consumer.turn.completion? = some c) : s'.consumer.turn.completion? = some c := by
  rcases hs.consumer with he | ⟨e', he⟩
  · rw [he, hc]
  · exact (he.leads h).completion? hc

theorem Held.completion? (h : Held t s) (hs : Step s e s') {c : Completion}
    (hc : s.consumer.turn.completion? = some c) : s'.consumer.turn.completion? = some c :=
  hs.completion? h.sound hc

/-- A reason stays a reason. -/
theorem Held.because (h : Held t s) (hs : Step s e s') {r : C.Right} {o : Outcome Demand}
    (hb : Because t s r o) : Because (t ++ [e]) s' r o := by
  cases hb with
  | delivered a v ps answer hs hc hm hp ha =>
    exact .delivered a v ps _ (mem_deeds_snoc hs e) hc hm (mem_deeds_snoc hp e)
      (mem_deeds_snoc ha e)
  | accepted c effect hs hr => exact .accepted c effect (mem_deeds_snoc hs e) (mem_deeds_snoc hr e)
  | settled x c hx hc => exact .settled x c (mem_deeds_snoc hx e) (h.completion? hs hc)
  | refused x f hx => exact .refused x f (mem_deeds_snoc hx e)

/-! ## Why the channel is closed -/

/-- Whether a channel may be closed with a completion: the fold ended so, or was cancelled. -/
def ClosedBy (s : Combination C) (t : List (Seen C)) (x : Completion) : Prop :=
  s.consumer.turn.completion? = some x ∨ x = .failure Fault.cancelled ∧ .cancelled ∈ deeds t

/-- What closes the channel: the end of the fold, or somebody who cancels it. -/
structure Closes (t : List (Seen C)) (s : Combination C) : Prop where
  cancelled : s.consumer.cancelled = true → .cancelled ∈ deeds t
  closed : ∀ x, s.consumer.channel.completion = some x → s.ClosedBy t x

theorem ClosedBy.snoc {x : Completion} (h : s.ClosedBy t x)
    (hs : s.consumer.turn.completion? = some x → s'.consumer.turn.completion? = some x)
    (e : Seen C) : s'.ClosedBy (t ++ [e]) x :=
  h.imp hs fun ⟨hc, hm⟩ => ⟨hc, mem_deeds_snoc hm e⟩

/-- Whoever neither cancels the fold nor closes the channel keeps this. -/
theorem Closes.keep (h : Closes t s) (hs : s.consumer.Sound) {e' : Fold.Event C.Action}
    (he : Consumer.Step s.consumer e' s'.consumer) (hx : e' ≠ .cancelled) (ht : e'.terminals = []) :
    Closes (t ++ [e]) s' := by
  have hc : s'.consumer.cancelled = s.consumer.cancelled := (he.cancelled hs).resolve_right hx
  have hd : s'.consumer.channel.completion = s.consumer.channel.completion := by
    refine (he.completion hs).resolve_right ?_
    rintro ⟨c, hc, -⟩
    simp [ht] at hc
  refine ⟨fun hy => mem_deeds_snoc (h.cancelled (hc ▸ hy)) e, ?_⟩
  intro x hy
  exact (h.closed x (hd ▸ hy)).snoc (he.leads hs).completion? e

theorem Closes.step (h : Closes t s) (hs : s.consumer.Sound) (he : Step s e s') :
    Closes (t ++ [e]) s' := by
  cases he with
  | send i x hi hx => exact h.keep hs (send_step s i x) (by simp) rfl
  | cancel =>
    exact ⟨fun _ => by simp, fun x hx => (h.closed x hx).snoc id _⟩
  | close hc =>
    have hd := hs.close (.failure Fault.cancelled)
    refine ⟨fun hy => mem_deeds_snoc (h.cancelled hc) _, ?_⟩
    intro x hx
    rcases hd.completion with hk | ⟨-, hk⟩
    · exact (h.closed x (hk ▸ hx)).snoc (hd.turn.symm ▸ id) _
    · -- The channel was open, and is closed by who cancels.
      have hx' : x = .failure Fault.cancelled := Option.some.inj (hx.symm.trans hk)
      exact .inr ⟨hx', mem_deeds_snoc (h.cancelled hc) _⟩
  | start ht => exact h.keep hs (.start ht) (by simp) rfl
  | tacit hf => exact h.keep hs hf (by simp) rfl
  | reduce ht hr => exact h.keep hs (.reduce _ ht) (by simp) rfl
  | idle ht hd hn => exact h.keep hs (.emit _ ht) (by simp) rfl
  | push ht hd hm =>
    exact ⟨fun hy => mem_deeds_snoc (h.cancelled hy) _, fun x hx => (h.closed x hx).snoc id _⟩
  | reply answer ht hd => exact h.keep hs (.emit _ ht) (by simp) rfl
  | @finish c ht =>
    -- Now at the latest the channel is closed, and with the completion of the fold.
    have hd := hs.close c
    refine ⟨fun hy => mem_deeds_snoc (h.cancelled (hd.cancelled ▸ hy)) _, ?_⟩
    intro x hx
    have hl := (Consumer.Step.finish ht).leads hs
    rcases hd.completion with hk | ⟨-, hk⟩
    · exact (h.closed x (hk ▸ hx)).snoc hl.completion? _
    · have hx' : x = c := Option.some.inj (hx.symm.trans hk)
      exact .inl (hx' ▸ rfl)
  | finalize ht => exact h.keep hs (.finalize ht) (by simp) rfl
  | dispose ht => exact h.keep hs (.dispose ht) (by simp) rfl

/-! ## Which events were sent -/

/-- The events of a feeder are known by their numbers. -/
structure Numbered (t : List (Seen C)) (s : Combination C) : Prop where
  sent : ∀ i k, k < s.sent i ↔ ∃ x f, .sent i x k f ∈ deeds t
  once : ∀ i k x x' f f', .sent i x k f ∈ deeds t → .sent i x' k f' ∈ deeds t → x = x' ∧ f = f'

theorem Numbered.sends (h : Numbered t s) {i : C.Feeder} {x : Event (C.Input i)} {f : Option Fault}
    {as : Answers C.Right} (hn : s'.sent = Function.update s.sent i (s.sent i + 1)) :
    Numbered (t ++ [⟨.sent i x (s.sent i) f, as⟩]) s' where
  sent j k := by
    rw [hn, deeds_snoc]
    by_cases hj : j = i
    · subst hj
      rw [Function.update_self, Nat.lt_succ_iff_lt_or_eq, h.sent]
      constructor
      · rintro (⟨y, g, hm⟩ | rfl)
        · exact ⟨y, g, List.mem_append_left _ hm⟩
        · exact ⟨x, f, by simp⟩
      · rintro ⟨y, g, hm⟩
        rcases List.mem_append.1 hm with hm | hm
        · exact .inl ⟨y, g, hm⟩
        · simp at hm
          exact .inr hm.2.1
    · simp [h.sent, hj]
  once j k y y' g g' hy hy' := by
    -- The number is new, so an event that came before does not have it.
    have hlt : ∀ {z g}, .sent i z (s.sent i) g ∉ deeds t := fun {z g} hm =>
      Nat.lt_irrefl _ ((h.sent i _).2 ⟨z, g, hm⟩)
    rw [deeds_snoc, List.mem_append, List.mem_singleton] at hy hy'
    rcases hy with hy | hy <;> rcases hy' with hy' | hy'
    · exact h.once j k y y' g g' hy hy'
    · cases hy'
      exact absurd hy hlt
    · cases hy
      exact absurd hy' hlt
    · cases hy
      cases hy'
      exact ⟨rfl, rfl⟩

theorem Numbered.keep (h : Numbered t s) (hn : s'.sent = s.sent)
    (he : ∀ i x k f, e.deed ≠ .sent i x k f) : Numbered (t ++ [e]) s' where
  sent i k := by
    rw [hn, h.sent i k]
    simp [(he i _ k _).symm]
  once i k x x' f f' hx hx' := by
    simp only [deeds_snoc, List.mem_append, List.mem_singleton, (he i _ k _).symm,
      or_false] at hx hx'
    exact h.once i k x x' f f' hx hx'

theorem Numbered.step (h : Numbered t s) (he : Step s e s') : Numbered (t ++ [e]) s' := by
  cases he with
  | send i x hi hx =>
    rw [send]
    split
    · exact h.sends rfl
    · exact h.sends rfl
  | _ => exact h.keep rfl (by simp)

/-! ## What is answered -/

/-- The answers of a step have their reasons, and nobody is forgotten whom it concerns. -/
structure Rightly (t : List (Seen C)) (e : Seen C) (s' : Combination C) : Prop where
  reasons : ∀ r o, (r, o) ∈ e.answers → Because (t ++ [e]) s' r o
  delivered : ∀ v ps answer, e.deed = .replied v ps answer → ∀ r ∈ ps, (r, answer) ∈ e.answers
  accepted : ∀ i c k effect, e.deed = .reduced (C.inlet i (.completion c) k) effect →
    ((i, k), .ok .done) ∈ e.answers
  refused : ∀ i x k f, e.deed = .sent i x k (some f) →
    ((i, k), settlement (.ofFault f)) ∈ e.answers ∧ ∃ y, y.fault = f ∧ s'.ClosedBy t y

theorem ofAnswer_reply (answer : Outcome Demand) : (Delivery.ofAnswer answer).reply = answer := by
  rcases answer with f | _ | _ <;> rfl

theorem Sends.rightly {i : C.Feeder} {x : Event (C.Input i)} (hs : Sends s i x e s')
    (hc : Closes t s) : Rightly t e s' := by
  cases hs with
  | accepted f hf hc ht hx => exact ⟨by simp, by simp, by simp, by simp⟩
  | refused y hy =>
    refine ⟨?_, by simp, by simp, ?_⟩
    · intro r o hm
      obtain ⟨rfl, rfl⟩ := Prod.mk.inj (List.mem_singleton.1 hm)
      exact .refused x _ (by simp)
    · intro j z k f he
      cases he
      exact ⟨by simp, y, rfl, hc.closed y hy⟩

theorem Held.accepts (h : Held t s) {i : C.Feeder} {c : Completion} {k : Nat}
    {r : Reduced C.State C.Right} (ht : s.consumer.turn = .reduce (C.inlet i (.completion c) k))
    (hr : C.reduce s.machine.current (C.inlet i (.completion c) k) = .ok r) :
    ((i, k), .ok .done) ∈ r.answers := by
  have hp := h.phase
  rw [Phase, ht] at hp
  rcases C.reduce_completion (c := c) (k := k) hp.1 (h.expected ht) with ⟨m, hm, -⟩ | ⟨m, hm, -⟩
  · obtain rfl := Except.ok.inj (hr.symm.trans hm)
    simp
  · obtain rfl := Except.ok.inj (hr.symm.trans hm)
    simp

/-- Whatever the machine holds is settled by the completion that ended the fold. -/
theorem Held.settles (h : Held t s) {c : Completion} (hc : s'.consumer.turn.completion? = some c)
    {r : C.Right} {o : Outcome Demand}
    (hm : (r, o) ∈ (C.pending s.machine.current).map (C.sender ·, settlement c)) :
    Because (t ++ [e]) s' r o := by
  obtain ⟨x, hx, he⟩ := List.mem_map.1 hm
  obtain ⟨rfl, rfl⟩ := Prod.mk.inj he
  obtain ⟨i, a, k, rfl, hd⟩ := h.known.pending x hx
  rw [C.sender_inlet]
  exact .settled (.value a) c (mem_deeds_snoc hd e) hc

theorem Held.rightly (h : Held t s) (hc : Closes t s) (hs : Step s e s') : Rightly t e s' := by
  cases hs with
  | send i x hi hx => exact (h.send hi x).rightly hc
  | @reduce x r ht hr =>
    refine ⟨?_, by simp, ?_, by simp⟩
    · obtain ⟨i, y, k, r', rfl, hd, hr', hx⟩ := h.reduces ht
      obtain rfl : r = r' := Except.ok.inj (hr.symm.trans hr')
      intro q o hm
      cases hx with
      | held a m hp hm' => simp at hm
      | passed c m hp hm' =>
        obtain ⟨rfl, rfl⟩ := Prod.mk.inj (List.mem_singleton.1 hm)
        exact .accepted c .none (mem_deeds_snoc hd _) (by simp)
      | ended c m hp =>
        rcases List.mem_cons.1 hm with hm | hm
        · obtain ⟨rfl, rfl⟩ := Prod.mk.inj hm
          exact .accepted c (.completion c) (mem_deeds_snoc hd _) (by simp)
        · exact h.settles (by rfl) hm
    · intro i c k effect he
      obtain ⟨rfl, -⟩ := Deed.reduced.inj he
      exact h.accepts ht hr
  | @reply v ps answer ht hd =>
    refine ⟨?_, ?_, by simp, by simp⟩
    · intro r o hm
      obtain ⟨q, hq, he⟩ := List.mem_map.1 hm
      obtain ⟨rfl, rfl⟩ := Prod.mk.inj he
      obtain ⟨hp, hc⟩ := h.known.carried v ps hd
      obtain ⟨a, ha, hs⟩ := hc q hq
      rw [ofAnswer_reply]
      exact .delivered a v ps answer (mem_deeds_snoc hs _) ha hq (mem_deeds_snoc hp _) (by simp)
    · intro v' ps' answer' he r hr
      cases he
      refine List.mem_map.2 ⟨r, hr, ?_⟩
      rw [ofAnswer_reply]
  | @finalize c ht =>
    refine ⟨?_, by simp, by simp, by simp⟩
    intro r o hm
    rw [(C.finalize_eq s.machine c).2] at hm
    exact h.settles (by rfl) hm
  | @dispose x c ht =>
    refine ⟨?_, by simp, by simp, by simp⟩
    intro r o hm
    obtain ⟨rfl, rfl⟩ := Prod.mk.inj (List.mem_singleton.1 hm)
    have hl : x ∈ s.consumer.load := by simp [Consumer.load, Consumer.hand, ht]
    obtain ⟨i, y, k, rfl, hd⟩ := h.known.loaded x hl
    rw [C.sender_inlet]
    exact .settled y c (mem_deeds_snoc hd _) (by rfl)
  | _ => exact ⟨by simp, by simp, by simp, by simp⟩

/-- The answers so far have their reasons, and nobody was forgotten whom a deed concerned. -/
structure Told (t : List (Seen C)) (s : Combination C) : Prop where
  reasons : ∀ r o, (r, o) ∈ answers t → Because t s r o
  delivered : ∀ v ps answer, .replied v ps answer ∈ deeds t → ∀ r ∈ ps, (r, answer) ∈ answers t
  accepted : ∀ i c k effect, .reduced (C.inlet i (.completion c) k) effect ∈ deeds t →
    ((i, k), .ok .done) ∈ answers t
  refused : ∀ i x k f, .sent i x k (some f) ∈ deeds t →
    ((i, k), settlement (.ofFault f)) ∈ answers t ∧ ∃ y, y.fault = f ∧ s.ClosedBy t y

theorem Told.step (h : Told t s) (hk : Held t s) (hs : Step s e s') (he : Rightly t e s') :
    Told (t ++ [e]) s' where
  reasons r o hm := by
    rw [answers_snoc] at hm
    rcases List.mem_append.1 hm with hm | hm
    · exact hk.because hs (h.reasons r o hm)
    · exact he.reasons r o hm
  delivered v ps answer hd r hr := by
    rw [deeds_snoc] at hd
    rw [answers_snoc]
    rcases List.mem_append.1 hd with hd | hd
    · exact List.mem_append_left _ (h.delivered v ps answer hd r hr)
    · exact List.mem_append_right _ (he.delivered v ps answer (List.mem_singleton.1 hd).symm r hr)
  accepted i c k effect hd := by
    rw [deeds_snoc] at hd
    rw [answers_snoc]
    rcases List.mem_append.1 hd with hd | hd
    · exact List.mem_append_left _ (h.accepted i c k effect hd)
    · exact List.mem_append_right _ (he.accepted i c k effect (List.mem_singleton.1 hd).symm)
  refused i x k f hd := by
    rw [deeds_snoc] at hd
    rw [answers_snoc]
    rcases List.mem_append.1 hd with hd | hd
    · obtain ⟨ha, y, hy, hc⟩ := h.refused i x k f hd
      exact ⟨List.mem_append_left _ ha, y, hy, hc.snoc (hk.completion? hs) e⟩
    · obtain ⟨ha, y, hy, hc⟩ := he.refused i x k f (List.mem_singleton.1 hd).symm
      exact ⟨List.mem_append_right _ ha, y, hy, hc.snoc id e⟩

/-! ## A fold goes on -/

/-- Whether the fold waits for an event, and there is a feeder whose events are all answered. -/
structure Waits (s : Combination C) : Prop where
  consumer : s.consumer.Waits
  free : Nonempty C.Feeder → ∃ i, s.unanswered i = none

theorem Held.waits (h : Held t s) {p : Nat} (ha : s.consumer.awaited = some (p, none)) :
    s.Waits := by
  have hw := h.sound.waits ha
  refine ⟨hw, fun hf => h.rights.free ?_⟩
  -- Nothing is in hand and nothing downstream, so whatever is owed is held by the machine.
  have ht : s.consumer.turn = .read := h.sound.reading (by rw [ha]; rfl)
  have hr := h.phase
  rw [Phase, ht] at hr
  have hl : s.consumer.load = [] := by
    simp [Consumer.load, Consumer.hand, ht, ha, Channel.values, hw.empty]
  have ho : s.owed = (C.pending s.machine.current).map C.sender := by
    rw [owed_eq, hl, producers, hr.2, List.map_nil, List.nil_append, List.append_nil]
  rw [ho, List.length_map]
  exact C.ready_free hr.1 hf

/-- A fold that is not final goes on, unless it waits for an event. -/
theorem Held.live (h : Held t s) (hn : ∀ c, s.consumer.turn ≠ .stop c) :
    s.Waits ∨ ∃ e s', Step s e s' ∧ Deed.Own e.deed := by
  cases ht : s.consumer.turn with
  | start => exact .inr ⟨_, _, .start ht, trivial⟩
  | checkpoint => exact .inr ⟨_, _, .tacit (.checkpoint ht), trivial⟩
  | read =>
    rcases ha : s.consumer.awaited with _ | ⟨p, _ | o⟩
    · exact .inr ⟨_, _, .tacit (.read 0 ht ha), trivial⟩
    · exact .inl (h.waits ha)
    · exact .inr ⟨_, _, .tacit (.resume ht ha), trivial⟩
  | reduce x =>
    obtain ⟨i, e, k, r, rfl, -, hr, -⟩ := h.reduces ht
    exact .inr ⟨_, _, .reduce ht hr, trivial⟩
  | emit =>
    rcases hd : s.delivering with _ | ⟨v, ps⟩
    · rcases hm : C.emission? s.machine.current with _ | m
      · exact .inr ⟨_, _, .idle ht hd hm, trivial⟩
      · exact .inr ⟨_, _, .push ht hd hm, trivial⟩
    · exact .inr ⟨_, _, .reply (.ok .more) ht hd, trivial⟩
  | close c => exact .inr ⟨_, _, .finish ht, trivial⟩
  | finalize c => exact .inr ⟨_, _, .finalize ht, trivial⟩
  | drain c => exact .inr ⟨_, _, .tacit (.drain ht), trivial⟩
  | dispose x c => exact .inr ⟨_, _, .dispose ht, trivial⟩
  | stop c => exact absurd ht (hn c)

/-- When the loop of the fold has ended, the fold is final, or goes on and comes nearer to it. -/
theorem Held.nearer (h : Held t s) {c : Completion}
    (hc : s.consumer.turn.completion? = some c) : s.consumer.turn = .stop c ∨
      ∃ e s', Step s e s' ∧ s'.consumer.remaining < s.consumer.remaining := by
  cases ht : s.consumer.turn with
  | start | checkpoint | read | reduce | emit => simp [ht, Turn.completion?] at hc
  | close c' =>
    refine .inr ⟨_, _, .finish ht, (Consumer.Step.finish ht).remaining_lt h.sound hc ?_⟩
    simp [ht, Consumer.finish, Turn.next]
  | finalize c' =>
    refine .inr ⟨_, _, .finalize ht, (Consumer.Step.finalize ht).remaining_lt h.sound hc ?_⟩
    simp [ht, Turn.next]
  | drain c' =>
    refine .inr ⟨_, _, .tacit (.drain ht), (Consumer.Step.drain ht).remaining_lt h.sound hc ?_⟩
    rcases s.consumer.channel.tryRead.result with f | a <;> simp [ht, Turn.next]
  | dispose x c' =>
    refine .inr ⟨_, _, .dispose ht, (Consumer.Step.dispose ht).remaining_lt h.sound hc ?_⟩
    simp [ht, Turn.next]
  | stop c' =>
    rw [ht] at hc
    exact .inl (congrArg Turn.stop (Option.some.inj hc))

/-- When the loop of the fold has ended, the fold by itself becomes final. -/
theorem Held.finishes (h : Held t s) {c : Completion}
    (hc : s.consumer.turn.completion? = some c) :
    ∃ t' s', Run Step s t' s' ∧ s'.consumer.turn = .stop c := by
  induction hn : s.consumer.remaining using Nat.strongRecOn generalizing t s with
  | _ n ih =>
    rcases h.nearer hc with ht | ⟨e, s₁, hs, hlt⟩
    · exact ⟨[], s, .nil, ht⟩
    · obtain ⟨t', s', hr, ht⟩ := ih _ (hn ▸ hlt) (h.step hs) (h.completion? hs hc) rfl
      exact ⟨e :: t', s', hr.cons hs, ht⟩

/-! ## Every run -/

/-- What holds all along a run. -/
structure Kept (t : List (Seen C)) (s : Combination C) : Prop where
  held : Held t s
  closes : Closes t s
  numbered : Numbered t s
  told : Told t s

theorem owed_new (C : Combiner) : (new C).owed = [] := by
  have hl : (new C).consumer.load = [] := rfl
  have hp : C.pending (new C).machine.current = [] := C.pending_initial
  rw [owed_eq, hl, hp]
  rfl

theorem held_new (C : Combiner) : Held [] (new C) where
  sound := Consumer.sound_new _
  left := Fold.Left.of_not_past id
  buffering := rfl
  known := by
    have hp : C.pending (new C).machine.current = [] := C.pending_initial
    exact ⟨fun _ hx => (nomatch hx), by simp [hp], fun _ _ hv => (nomatch hv)⟩
  rights := by
    rw [owed_new]
    exact .new
  phase := ⟨C.pending_initial, rfl⟩

theorem kept_new (C : Combiner) : Kept [] (.new C) where
  held := held_new C
  closes := ⟨fun hc => (nomatch hc), fun _ hx => (nomatch hx)⟩
  numbered := by
    refine ⟨?_, ?_⟩
    · intro i k
      simp [new, deeds]
    · intro i k x x' f f' hx
      simp [deeds] at hx
  told := by
    refine ⟨?_, ?_, ?_, ?_⟩
    · intro r o hm
      simp [answers] at hm
    · intro v ps answer hd
      simp [deeds] at hd
    · intro i c k effect hd
      simp [deeds] at hd
    · intro i x k f hd
      simp [deeds] at hd

theorem Kept.step (h : Kept t s) (hs : Step s e s') : Kept (t ++ [e]) s' where
  held := h.held.step hs
  closes := h.closes.step h.held.sound hs
  numbered := h.numbered.step hs
  told := h.told.step h.held hs (h.held.rightly h.closes hs)

theorem kept_run (h : Run Step (.new C) t s) : Kept t s := h.invariant (kept_new C) Kept.step

/-- Nothing is owed when the fold is final. -/
theorem Held.owes_nothing (h : Held t s) {c : Completion} (ht : s.consumer.turn = .stop c) :
    s.owed = [] := by
  have hp := h.phase
  rw [Phase, ht] at hp
  have hl : s.consumer.load = [] := by
    simp [Consumer.load, Consumer.hand, ht, Channel.values, h.left.emptied c ht]
  rw [owed_eq, hl, hp.1, producers, hp.2]
  rfl

end Combination

/-- What a combination comes to, whatever is done to it. -/
structure Answered (t : List (Seen C)) (s : Combination C) : Prop where
  /-- Nobody is answered twice, or answered and owed an answer. -/
  once : (used t ++ s.owed).Nodup
  /-- Whoever sent an event was answered, or is owed an answer by who holds the right to it. -/
  kept : ∀ r, r ∈ used t ∨ r ∈ s.owed ↔ ∃ x f, .sent r.1 x r.2 f ∈ deeds t
  /-- When the fold is final, everybody was answered. -/
  complete : ∀ c, s.consumer.turn = .stop c → s.owed = []
  /-- A fold that is not final goes on, unless it waits for an event. -/
  live : (∀ c, s.consumer.turn ≠ .stop c) →
    s.Waits ∨ ∃ e s', Combination.Step s e s' ∧ Deed.Own e.deed
  /-- Once the fold has ended, it becomes final by itself, so that everybody is answered. -/
  finishes : ∀ c, s.consumer.turn.completion? = some c →
    ∃ t' s', Run Combination.Step s t' s' ∧ s'.consumer.turn = .stop c
  /-- No event is against the rules of the machine. -/
  orderly : ∀ x, s.consumer.turn = .reduce x → ∃ r, C.reduce s.machine.current x = .ok r
  /-- Every answer has its reason. -/
  reasons : ∀ r o, (r, o) ∈ answers t → Because t s r o
  /-- More is wanted only of whose value went downstream and got this answer. -/
  more : ∀ r, (r, .ok .more) ∈ answers t → ∃ a v ps, .sent r.1 (.value a) r.2 none ∈ deeds t ∧
    C.carries r.1 a v ∧ r ∈ ps ∧ .pushed v ps ∈ deeds t ∧ .replied v ps (.ok .more) ∈ deeds t
  /-- Whatever the downstream answers to a value, its producers get. -/
  delivered : ∀ v ps answer, .replied v ps answer ∈ deeds t → ∀ r ∈ ps, (r, answer) ∈ answers t
  /-- Whoever sent a completion that was reduced is done. -/
  accepted : ∀ i c k effect, .reduced (C.inlet i (.completion c) k) effect ∈ deeds t →
    ((i, k), .ok .done) ∈ answers t
  /-- Whoever sent anything else that was accepted is settled when the fold is final. -/
  settled : ∀ c, s.consumer.turn = .stop c → ∀ i x k, .sent i x k none ∈ deeds t →
    (∃ v ps answer, .replied v ps answer ∈ deeds t ∧ (i, k) ∈ ps) ∨
    (∃ c' effect, x = .completion c' ∧ .reduced (C.inlet i x k) effect ∈ deeds t) ∨
    ((i, k), settlement c) ∈ answers t
  /-- Whoever comes too late is settled at once, by what has closed the channel. -/
  refused : ∀ i x k f, .sent i x k (some f) ∈ deeds t →
    ((i, k), settlement (.ofFault f)) ∈ answers t ∧ ∃ y, y.fault = f ∧ s.ClosedBy t y

/-- Every producer of a zip, a selection or a merge is answered once, and rightly. -/
theorem answered (p : Plain) {t : List (Seen p.combiner)} {s : Combination p.combiner}
    (h : Run Combination.Step (.new p.combiner) t s) : Answered t s := by
  have hk := Combination.kept_run h
  have hr := hk.held.rights
  refine ⟨hr.nodup, ?_, fun c => hk.held.owes_nothing, hk.held.live, fun c => hk.held.finishes, ?_,
    hk.told.reasons, fun r hm => (hk.told.reasons r _ hm).more rfl, hk.told.delivered,
    hk.told.accepted, ?_, hk.told.refused⟩
  · intro r
    rw [← List.mem_append, hr.given, hk.numbered.sent]
  · intro x hx
    obtain ⟨i, e, k, r, -, -, hr, -⟩ := hk.held.reduces hx
    exact ⟨r, hr⟩
  · -- Nothing is owed any more, so there is an answer; and a reason for it.
    intro c hc i x k hs
    have hu : (i, k) ∈ used t := by
      have hg := (hr.given (i, k)).2 ((hk.numbered.sent i k).2 ⟨x, none, hs⟩)
      rwa [hk.held.owes_nothing hc, List.append_nil] at hg
    obtain ⟨⟨r, o⟩, hm, rfl⟩ := List.mem_map.1 hu
    cases hk.told.reasons _ _ hm with
    | delivered a v ps answer hs' hc hm hp ha => exact .inl ⟨v, ps, _, ha, hm⟩
    | accepted c' effect hs' hr =>
      obtain ⟨rfl, -⟩ := hk.numbered.once i k _ _ _ _ hs hs'
      exact .inr (.inl ⟨c', effect, rfl, hr⟩)
    | settled e c' hs' hc' =>
      rw [hc] at hc'
      obtain rfl := Option.some.inj hc'
      exact .inr (.inr hm)
    | refused e f hs' => cases (hk.numbered.once i k _ _ _ _ hs hs').2

/-- A zip is cancelled after its first pair, while one value is held by the machine and another
    one is in its channel; and one feeder comes too late. -/
theorem answered_cancelled : ∃ (t : List (Seen (Plain.zip Nat Nat).combiner))
    (s : Combination (Plain.zip Nat Nat).combiner),
    Run Combination.Step (.new (Plain.zip Nat Nat).combiner) t s ∧ Answered t s ∧
      s.consumer.turn = .stop (.failure Fault.cancelled) ∧
      answers t = [((Side.left, 0), .ok .more), ((Side.right, 0), .ok .more),
        ((Side.left, 1), .error Fault.cancelled), ((Side.left, 2), .error Fault.cancelled),
        ((Side.right, 1), .error Fault.cancelled)] := by
  have new : Run Combination.Step (.new (Plain.zip Nat Nat).combiner) [] _ := .nil
  have sent := new.snoc (.send Side.left (.value (1 : Nat)) rfl (fun _ => rfl))
    |>.snoc (.send Side.right (.value (2 : Nat)) rfl (fun _ => rfl))
  have held := sent.snoc (.start rfl) |>.snoc (.tacit (.checkpoint rfl))
    |>.snoc (.tacit (.read 0 rfl rfl)) |>.snoc (.reduce rfl rfl) |>.snoc (.idle rfl rfl rfl)
  have paired := held.snoc (.tacit (.checkpoint rfl)) |>.snoc (.tacit (.read 1 rfl rfl))
    |>.snoc (.reduce rfl rfl) |>.snoc (.push rfl rfl rfl) |>.snoc (.reply (.ok .more) rfl rfl)
  have sent := paired.snoc (.send Side.left (.value (3 : Nat)) rfl (fun _ => rfl))
    |>.snoc (.send Side.right (.value (4 : Nat)) rfl (fun _ => rfl))
  -- As the fold is cancelled, one value is held by the machine and the other in the channel.
  have held := sent.snoc (.tacit (.checkpoint rfl)) |>.snoc (.tacit (.read 2 rfl rfl))
    |>.snoc (.reduce rfl rfl)
  have cancelled := held.snoc .cancel |>.snoc (.close rfl) |>.snoc (.idle rfl rfl rfl)
  have told := cancelled.snoc (.tacit (.checkpoint rfl))
  have finalized := told.snoc (.finish (c := .failure Fault.cancelled) rfl)
    |>.snoc (.finalize (c := .failure Fault.cancelled) rfl)
  have refused := finalized.snoc (.send Side.left (.completion .finished) rfl (fun _ => rfl))
  have taken := refused.snoc (.tacit (.drain (c := .failure Fault.cancelled) rfl))
  have disposed := taken.snoc (.dispose (c := .failure Fault.cancelled) rfl)
  have run := disposed.snoc (.tacit (.drain (c := .failure Fault.cancelled) rfl))
  exact ⟨_, _, run, answered (.zip Nat Nat) run, rfl, rfl⟩

end ResumeOnce.Streams
