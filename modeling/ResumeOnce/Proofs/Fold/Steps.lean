import ResumeOnce.Proofs.Fold.Operations

/-!
# What steps of a fold keep

* `Consumer.Step.sound`: a fold stays in order;
* `Consumer.Step.load`: actions are accepted at the end of the load, passed on from its
  begin, and given back from its end;
* `Consumer.Leads`, `Consumer.Step.leads`: a consumer stays at its turn or goes on to the next;
* `Consumer.Step.cancelled`, `Consumer.Step.completion`: who ends a fold;
* `Consumer.Step.closed`, `Consumer.Step.shut`: what is closed, and what is empty besides,
  stays so.
-/

namespace ResumeOnce.Fold.Consumer

variable {ρ α : Type} {s s' : Consumer ρ α} [DecidableEq ρ]

/-- Every step keeps a fold in order. -/
theorem Step.sound {e : Event α} (hs : Step s e s') (h : s.Sound) : s'.Sound := by
  cases hs with
  | write p a => exact (h.write p a).sound h
  | close c => exact (h.close c).sound h
  | withdraw f =>
    obtain ⟨c, hs, -, he⟩ := h.withdraw f
    rw [he]
    exact h.answer hs _
  | cancel => exact ⟨h.channel, h.waiting, h.reading⟩
  | start ht => exact h.goOn (h.awaits_nothing (by simp [ht])) _
  | checkpoint ht => exact h.goOn (h.awaits_nothing (by simp [ht])) _
  | read p ht ha => exact (h.read ha p).sound h ha ht
  | resume ht ha =>
    refine ⟨h.channel, ?_, fun hi => absurd hi (by simp)⟩
    -- The answer has come, so nobody waits in the channel any more.
    have hw : s.channel.waiting = [] := by rw [h.waiting, parked, ha]
    exact hw
  | reduce effect ht => exact h.goOn (h.awaits_nothing (by simp [ht])) _
  | emit o ht => exact h.goOn (h.awaits_nothing (by simp [ht])) _
  | @finish c ht =>
    have hc := h.close c
    exact (hc.sound h).goOn (hc.awaited (h.awaits_nothing (by simp [ht]))) _
  | finalize ht => exact h.goOn (h.awaits_nothing (by simp [ht])) _
  | drain ht =>
    obtain ⟨hd, ha⟩ := h.drain.sound h (h.awaits_nothing (by simp [ht]))
    exact hd.goOn ha _
  | dispose ht => exact h.goOn (h.awaits_nothing (by simp [ht])) _

/-- What a step accepts comes to the end of the load, what it is about comes from its begin, and
    what it gives back from its end. -/
theorem Step.load {e : Event α} (hs : Step s e s') (h : s.Sound) :
    s.load ++ e.accepted = taken e.calls ++ s'.load ++ e.withdrawals := by
  cases hs with
  | write p a =>
    rw [(h.write p a).load h]
    simp
  | close c =>
    rw [(h.close c).load]
    simp
  | withdraw f =>
    obtain ⟨c, hc, hv, he⟩ := h.withdraw f
    rw [he, hv, Consumer.load, Consumer.load, hand_answer_error]
    simp [hand, Consumer.answer, Channel.values, hc.queued]
  | cancel => simp [Consumer.load, hand]
  | start ht => simp [Consumer.load, hand, ht, Turn.next]
  | checkpoint ht =>
    have ha := h.awaits_nothing (by simp [ht])
    rcases hc : s.checkpoint with f | _ <;> simp [Consumer.load, hand, ht, ha, Turn.next]
  | read p ht ha =>
    rw [(h.read ha p).load ht ha]
    simp
  | @resume p o ht ha => cases o <;> simp [Consumer.load, hand, ht, ha, Turn.next]
  | @reduce a effect ht => cases effect <;> simp [Consumer.load, hand, ht, Turn.next]
  | emit o ht =>
    have ha := h.awaits_nothing (by simp [ht])
    cases o <;> simp [Consumer.load, hand, ht, ha, Turn.next]
  | @finish c ht =>
    have hc := h.close c
    have hl := hc.load
    simp only [Consumer.load, hand, hc.turn, ht] at hl
    simpa [Consumer.load, Consumer.finish, hand, ht, Turn.next] using hl.symm
  | finalize ht => simp [Consumer.load, hand, ht, Turn.next]
  | drain ht =>
    rw [h.drain.load ht]
    simp
  | dispose ht => simp [Consumer.load, hand, ht, Turn.next]

/-- Nothing comes into the load but what is accepted. -/
theorem Step.load_subset {e : Event α} (hs : Step s e s') (h : s.Sound) (ha : e.accepted = []) :
    s'.load ⊆ s.load := by
  intro a hm
  have hl := hs.load h
  rw [ha, List.append_nil] at hl
  rw [hl]
  exact List.mem_append_left _ (List.mem_append_right _ hm)

theorem Step.buffering {e : Event α} (hs : Step s e s') (h : s.Sound) :
    s'.channel.buffering = s.channel.buffering := by
  cases hs with
  | write p a => exact (h.write p a).buffering
  | close c => exact (h.close c).buffering
  | withdraw f =>
    obtain ⟨c, hs, -, he⟩ := h.withdraw f
    rw [he]
    exact hs.buffering
  | read p ht ha => exact (h.read ha p).buffering
  | finish ht => exact (h.close _).buffering
  | drain ht => exact h.drain.buffering
  | _ => rfl

/-- Whether a consumer that is at a turn may be at another one next. -/
def Leads (turn turn' : Turn α) : Prop := turn' = turn ∨ ∃ answer, turn' = turn.next answer

theorem leads_next {turn turn' : Turn α} (h : turn = turn') (answer : turn'.Answer) :
    Leads turn (turn'.next answer) := by
  subst h
  exact .inr ⟨answer, rfl⟩

/-- A consumer stays at its turn or goes on to the next one. -/
theorem Step.leads {e : Event α} (hs : Step s e s') (h : s.Sound) : Leads s.turn s'.turn := by
  cases hs with
  | write p a => exact .inl (h.write p a).turn
  | close c => exact .inl (h.close c).turn
  | withdraw f =>
    obtain ⟨c, -, -, he⟩ := h.withdraw f
    rw [he]
    exact .inl rfl
  | cancel => exact .inl rfl
  | read p ht ha =>
    -- The read tells whether the consumer goes on or waits at its turn.
    have hr := h.read ha p
    generalize s.read p = s' at hr ⊢
    cases hr with
    | took r a ws c hq hs => exact leads_next ht (.ok a)
    | closed x hx hq => exact leads_next ht (.error x.fault)
    | parked c ho hq hs => exact .inl rfl
  | start ht => exact leads_next ht ()
  | checkpoint ht => exact leads_next ht s.checkpoint
  | @resume p o ht ha => exact leads_next ht o
  | reduce effect ht => exact leads_next ht effect
  | emit o ht => exact leads_next ht o
  | finish ht => exact leads_next ht ()
  | finalize ht => exact leads_next ht ()
  | drain ht => exact leads_next ht s.channel.tryRead.result
  | dispose ht => exact leads_next ht ()

/-- The completion that ended a loop stays. -/
theorem Leads.completion? {turn turn' : Turn α} (h : Leads turn turn') {c : Completion}
    (hc : turn.completion? = some c) : turn'.completion? = some c := by
  rcases h with rfl | ⟨answer, rfl⟩
  · exact hc
  · cases turn with
    | start | checkpoint | read | reduce | emit => cases hc
    | close | finalize | dispose | stop => exact hc
    | drain =>
      rcases answer with f | a
      · exact hc
      · exact hc

/-- Nobody comes to the begin who is not there. -/
theorem Leads.of_start {turn turn' : Turn α} (h : Leads turn turn') (hs : turn' = .start) :
    turn = .start := by
  rcases h with rfl | ⟨answer, rfl⟩
  · exact hs
  · cases turn with
    | start => rfl
    | checkpoint | read | emit | drain => rcases answer with f | a <;> cases hs
    | reduce => cases answer <;> cases hs
    | close | finalize | dispose | stop => cases hs

/-- Only who cancels a fold makes it cancelled. -/
theorem Step.cancelled {e : Event α} (hs : Step s e s') (h : s.Sound) :
    s'.cancelled = s.cancelled ∨ e = .cancelled := by
  cases hs with
  | write p a => exact .inl (h.write p a).cancelled
  | close c => exact .inl (h.close c).cancelled
  | withdraw f =>
    obtain ⟨c, -, -, he⟩ := h.withdraw f
    rw [he]
    exact .inl rfl
  | cancel => exact .inr rfl
  | read p ht ha => exact .inl (h.read ha p).cancelled
  | finish ht => exact .inl (h.close _).cancelled
  | drain ht => exact .inl h.drain.cancelled
  | _ => exact .inl rfl

/-- Only who closes a channel gives it a completion. -/
theorem Step.completion {e : Event α} (hs : Step s e s') (h : s.Sound) :
    s'.channel.completion = s.channel.completion ∨
      ∃ c, e.terminals = [c] ∧ s'.channel.completion = some c := by
  cases hs with
  | write p a => exact .inl (h.write p a).completion
  | close c => exact (h.close c).completion.imp_right fun hc => ⟨c, hc⟩
  | withdraw f =>
    obtain ⟨c, hs, -, he⟩ := h.withdraw f
    rw [he]
    exact .inr ⟨.failure f, rfl, hs.completion⟩
  | read p ht ha => exact .inl (h.read ha p).completion
  | finish ht => exact (h.close _).completion.imp_right fun hc => ⟨_, hc⟩
  | drain ht => exact .inl h.drain.completion
  | _ => exact .inl rfl

/-- A closed channel stays closed. -/
theorem Step.closed {e : Event α} (hs : Step s e s') (h : s.Sound)
    (hc : s.channel.completion.isSome) : s'.channel.completion.isSome := by
  cases hs with
  | write p a => rwa [(h.write p a).completion]
  | close c => exact (h.close c).closes
  | withdraw f =>
    obtain ⟨c, hs, -, he⟩ := h.withdraw f
    rw [he, Consumer.answer, hs.completion]
    rfl
  | read p ht ha => rwa [(h.read ha p).completion]
  | finish ht => exact (h.close _).closes
  | drain ht => exact h.drain.completion.symm ▸ hc
  | _ => exact hc

/-- A closed and empty channel stays empty, accepts nothing, and has nothing to give back. -/
theorem Step.shut {e : Event α} (hs : Step s e s') (h : s.Sound)
    (hc : s.channel.completion.isSome) (hq : s.channel.queued = []) :
    e.accepted = [] ∧ e.withdrawals = [] ∧ s'.channel.queued = [] := by
  cases hs with
  | write p a =>
    obtain ⟨ha, hs⟩ := (h.write p a).refused hc
    exact ⟨ha, rfl, by rw [hs, hq]⟩
  | close c => exact ⟨rfl, rfl, (h.close c).queued.trans hq⟩
  | withdraw f =>
    obtain ⟨c, hs, hv, he⟩ := h.withdraw f
    refine ⟨rfl, ?_, he ▸ hs.queued⟩
    rw [Event.withdrawals, hv, Channel.values, hq]
    rfl
  | read p ht ha => exact ⟨rfl, rfl, (h.read ha p).stays_empty hq⟩
  | finish ht => exact ⟨rfl, rfl, (h.close _).queued.trans hq⟩
  | drain ht => exact ⟨rfl, rfl, h.drain.stays_empty hq⟩
  | _ => exact ⟨rfl, rfl, hq⟩

/-- Whoever gives actions back shuts the channel. -/
theorem Step.withdrawals {e : Event α} (hs : Step s e s') (h : s.Sound) :
    e.withdrawals = [] ∨ s'.channel.completion.isSome ∧ s'.channel.queued = [] := by
  cases hs with
  | withdraw f =>
    obtain ⟨c, hs, -, he⟩ := h.withdraw f
    rw [he]
    exact .inr ⟨Option.isSome_iff_exists.2 ⟨_, hs.completion⟩, hs.queued⟩
  | _ => exact .inl rfl

end ResumeOnce.Fold.Consumer
