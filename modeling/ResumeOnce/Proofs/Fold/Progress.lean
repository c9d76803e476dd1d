import ResumeOnce.Proofs.Fold.Steps

/-!
# A fold goes on

A fold is not stuck before it is final: the consumer goes on by itself, unless it waits for
an action, and then the channel is open and there is none. Once the loop has ended, there is
an end to its steps.

* `Consumer.Waits`, `Consumer.Advances`: the consumer waits, and a step of its own;
* `Consumer.Sound.live`: there is such a step, or the consumer waits;
* `Consumer.remaining`, `Consumer.Sound.finishes`: the steps behind the end of the loop.
-/

namespace ResumeOnce.Fold.Consumer

variable {ρ α : Type} {s s' : Consumer ρ α}

/-- Whether the consumer waits for an action: the channel is open and empty. -/
structure Waits (s : Consumer ρ α) : Prop where
  parked : s.parked ≠ []
  opened : s.channel.completion = none
  empty : s.channel.queued = []

/-- Whether a step is the consumer's own: it comes to another turn, or begins to wait. -/
def Advances (s s' : Consumer ρ α) : Prop :=
  s'.turn ≠ s.turn ∨ s.awaited = none ∧ s'.parked ≠ []

theorem Sound.waits (h : s.Sound) {p : ρ} (ha : s.awaited = some (p, none)) : s.Waits := by
  have hp : s.parked = [p] := by rw [parked, ha]
  have hw : s.channel.waiting ≠ [] := by
    rw [h.waiting, hp]
    exact List.cons_ne_nil _ _
  refine ⟨hp ▸ List.cons_ne_nil _ _, ?_, h.channel.apart.resolve_left hw⟩
  rcases hc : s.channel.completion with _ | x
  · rfl
  · exact absurd (h.channel.closed (by simp [hc])) hw

/-- A consumer that is parked waits for the answer to a read. -/
theorem exists_awaited (h : s.parked ≠ []) : ∃ p, s.awaited = some (p, none) := by
  rcases ha : s.awaited with _ | ⟨p, _ | o⟩
  · exact absurd (by rw [parked, ha]) h
  · exact ⟨p, rfl⟩
  · exact absurd (by rw [parked, ha]) h

/-- A consumer that waits does so at the turn of reading, and has nothing to pass on. -/
theorem Waits.reading (hw : s.Waits) (h : s.Sound) : s.turn = .read ∧ s.load = [] := by
  obtain ⟨p, ha⟩ := exists_awaited hw.parked
  have ht : s.turn = .read := h.reading (by rw [ha]; rfl)
  exact ⟨ht, by simp [load, hand, ht, ha, Channel.values, hw.empty]⟩

/-- Behind every answer there is another turn. -/
theorem advances_next {turn : Turn α} (ht : s.turn = turn) (answer : turn.Answer)
    (hs : s'.turn = turn.next answer) (hc : ∀ c, turn ≠ .stop c) : s.Advances s' := by
  refine .inl ?_
  rw [ht, hs]
  cases turn with
  | start => simp [Turn.next]
  | checkpoint => rcases answer with f | _ <;> simp [Turn.next]
  | read => rcases answer with f | a <;> simp [Turn.next]
  | reduce a => cases answer <;> simp [Turn.next]
  | emit => rcases answer with f | _ <;> simp [Turn.next]
  | close c => simp [Turn.next]
  | finalize c => simp [Turn.next]
  | drain c => rcases answer with f | a <;> simp [Turn.next]
  | dispose a c => simp [Turn.next]
  | stop c => exact absurd rfl (hc c)

/-- A consumer that is not final goes on by itself, unless it waits for an action. -/
theorem Sound.live [DecidableEq ρ] [Inhabited ρ] (h : s.Sound) (hn : ∀ c, s.turn ≠ .stop c) :
    s.Waits ∨ ∃ e s', Step s e s' ∧ s.Advances s' := by
  cases ht : s.turn with
  | start => exact .inr ⟨_, _, .start ht, advances_next ht () rfl (by simp)⟩
  | checkpoint =>
    exact .inr ⟨_, _, .checkpoint ht, advances_next ht s.checkpoint rfl (by simp)⟩
  | read =>
    rcases ha : s.awaited with _ | ⟨p, _ | o⟩
    · refine .inr ⟨_, _, .read default ht ha, ?_⟩
      have hr := h.read ha default
      generalize s.read default = s' at hr ⊢
      cases hr with
      | took r a ws c hq hs => exact advances_next ht (.ok a) rfl (by simp)
      | closed x hx hq => exact advances_next ht (.error x.fault) rfl (by simp)
      | parked c ho hq hs => exact .inr ⟨ha, List.cons_ne_nil _ _⟩
    · exact .inl (h.waits ha)
    · exact .inr ⟨_, _, .resume ht ha, advances_next ht o rfl (by simp)⟩
  | reduce a => exact .inr ⟨_, _, .reduce .none ht, advances_next ht Effect.none rfl (by simp)⟩
  | emit => exact .inr ⟨_, _, .emit (.ok ()) ht, advances_next ht (.ok ()) rfl (by simp)⟩
  | close c => exact .inr ⟨_, _, .finish ht, advances_next ht () rfl (by simp)⟩
  | finalize c => exact .inr ⟨_, _, .finalize ht, advances_next ht () rfl (by simp)⟩
  | drain c =>
    exact .inr ⟨_, _, .drain ht, advances_next ht s.channel.tryRead.result rfl (by simp)⟩
  | dispose a c => exact .inr ⟨_, _, .dispose ht, advances_next ht () rfl (by simp)⟩
  | stop c => exact absurd ht (hn c)

/-! ## Behind the end of the loop -/

/-- The number of steps that a consumer has still to take when its loop has ended. -/
def remaining (s : Consumer ρ α) : Nat :=
  2 * s.channel.queued.length +
    match s.turn with
    | .close _ => 3
    | .finalize _ => 2
    | .drain _ => 1
    | .dispose _ _ => 2
    | _ => 0

theorem Drains.remaining_lt {o : Outcome α} (hd : Drains s o s') {c : Completion}
    (ht : s.turn = .drain c) : (s'.goOn (Turn.next (.drain c) o)).remaining < s.remaining := by
  cases hd with
  | took r a ws c' hq hs =>
    simp only [remaining, goOn_channel, goOn_turn, ht, hs.queued, hq, Turn.next, List.length_cons]
    omega
  | empty f hq => simp [remaining, ht, hq, Turn.next]

variable [DecidableEq ρ]

/-- Behind the end of the loop, whoever comes to another turn comes nearer to the last one. -/
theorem Step.remaining_lt {e : Event α} (hs : Step s e s') (h : s.Sound) {c : Completion}
    (hc : s.turn.completion? = some c) (hn : s'.turn ≠ s.turn) : s'.remaining < s.remaining := by
  cases hs with
  | write p a => exact absurd (h.write p a).turn hn
  | close c => exact absurd (h.close c).turn hn
  | withdraw f =>
    obtain ⟨c, -, -, he⟩ := h.withdraw f
    exact absurd (he ▸ rfl) hn
  | cancel => exact absurd rfl hn
  | start ht | checkpoint ht | read p ht ha | resume ht ha | reduce effect ht | emit o ht =>
    simp [ht, Turn.completion?] at hc
  | @finish c' ht =>
    have hq : (s.finish c').channel.queued = s.channel.queued := (h.close c').queued
    have hf : (s.finish c').turn = .finalize c' := rfl
    simp only [remaining, hq, hf, ht]
    omega
  | finalize ht => simp [remaining, ht, Turn.next]
  | drain ht => exact h.drain.remaining_lt ht
  | dispose ht => simp [remaining, ht, Turn.next]

/-- When the loop has ended, the consumer is final, or goes on and comes nearer to it. -/
theorem Sound.nearer (h : s.Sound) {c : Completion} (hc : s.turn.completion? = some c) :
    s.turn = .stop c ∨ ∃ e s', Step s e s' ∧ s'.remaining < s.remaining := by
  have hl : ∀ {e s'}, Step s e s' → s'.turn ≠ s.turn →
      s.turn = .stop c ∨ ∃ e s', Step s e s' ∧ s'.remaining < s.remaining :=
    fun hs hn => .inr ⟨_, _, hs, hs.remaining_lt h hc hn⟩
  cases ht : s.turn with
  | start | checkpoint | read | reduce | emit => simp [ht, Turn.completion?] at hc
  | close c' => exact ht ▸ hl (.finish ht) (by simp [ht, Consumer.finish, Turn.next])
  | finalize c' => exact ht ▸ hl (.finalize ht) (by simp [ht, Turn.next])
  | drain c' =>
    refine ht ▸ hl (.drain ht) ?_
    rcases s.channel.tryRead.result with f | a <;> simp [ht, Turn.next]
  | dispose a c' => exact ht ▸ hl (.dispose ht) (by simp [ht, Turn.next])
  | stop c' =>
    rw [ht] at hc
    exact .inl (congrArg Turn.stop (Option.some.inj hc))

/-- When the loop has ended, the consumer by itself becomes final, with the same completion. -/
theorem Sound.finishes (h : s.Sound) {c : Completion} (hc : s.turn.completion? = some c) :
    ∃ t s', Run Step s t s' ∧ s'.turn = .stop c := by
  induction hn : s.remaining using Nat.strongRecOn generalizing s with
  | _ n ih =>
    rcases h.nearer hc with ht | ⟨e, s₁, hs, hlt⟩
    · exact ⟨[], s, .nil, ht⟩
    · obtain ⟨t, s', hr, ht⟩ :=
        ih _ (hn ▸ hlt) (hs.sound h) ((hs.leads h).completion? hc) rfl
      exact ⟨e :: t, s', hr.cons hs, ht⟩

end ResumeOnce.Fold.Consumer
