import ResumeOnce.Proofs.Fold.History
import ResumeOnce.Proofs.Fold.Progress

/-!
# A fold accounts for every action

Whatever others do to a fold, every action that its channel accepted, and did not give
back, comes to one reduction or one disposal, in the order of acceptance; and when the
state is final, the channel is closed and empty.

* `Balance`, `Balance.step`: where the actions are;
* `Left`, `Left.step`: how the consumer leaves its channel;
* `Accounted`, `accounted`: what every run comes to.
-/

namespace ResumeOnce.Fold

variable {ρ α : Type} {t : List (Event α)} {e : Event α} {s s' : Consumer ρ α}

/-! ## Where the actions are -/

/-- What the channel accepted was passed to the folder, is to be passed on, or was given back,
    after which nothing is accepted any more. -/
structure Balance (t : List (Event α)) (s : Consumer ρ α) : Prop where
  conserved : accepted t = taken (calls t) ++ s.load ++ withdrawals t
  shut : withdrawals t = [] ∨ s.channel.completion.isSome ∧ s.channel.queued = []

theorem Balance.step [DecidableEq ρ] (h : Balance t s) (hs : s.Sound)
    (he : Consumer.Step s e s') : Balance (t ++ [e]) s' := by
  have hl := he.load hs
  -- Once something was given back, the channel is shut, and nothing comes behind it.
  rcases h.shut with hw | ⟨hc, hq⟩
  · constructor
    · rw [accepted_snoc, calls_snoc, withdrawals_snoc, taken_append, h.conserved, hw]
      simpa using hl
    · rw [withdrawals_snoc, hw]
      exact he.withdrawals hs
  · obtain ⟨ha, hw, hq'⟩ := he.shut hs hc hq
    rw [ha, hw, List.append_nil, List.append_nil] at hl
    constructor
    · rw [accepted_snoc, calls_snoc, withdrawals_snoc, taken_append, h.conserved, hl, ha, hw]
      simp
    · exact .inr ⟨he.closed hs hc, hq'⟩

theorem Balance.conserved_in_order (h : Balance t s) :
    accepted t = taken (calls t) ++ s.hand ++ withdrawals t ++ s.channel.values := by
  rw [h.conserved, Consumer.load]
  rcases h.shut with hw | ⟨-, hq⟩
  · simp [hw]
  · simp [Channel.values, hq]

/-! ## How the channel is left -/

/-- Whether the consumer has closed its channel. -/
def Past : Turn α → Prop
  | .finalize _ | .drain _ | .dispose _ _ | .stop _ => True
  | _ => False

/-- The consumer leaves its channel closed, and stops when it is empty. -/
structure Left (s : Consumer ρ α) : Prop where
  closed : Past s.turn → s.channel.completion.isSome
  emptied : ∀ c, s.turn = .stop c → s.channel.queued = []

namespace Left

theorem of_not_past (h : ¬ Past s.turn) : Left s :=
  ⟨fun hp => absurd hp h, fun _ hc => absurd (hc ▸ trivial : Past s.turn) h⟩

/-- What is closed stays closed, and what is empty besides stays empty. -/
theorem stay [DecidableEq ρ] (h : Left s) (hs : s.Sound) (he : Consumer.Step s e s')
    (ht : s'.turn = s.turn) : Left s' where
  closed hp := he.closed hs (h.closed (ht ▸ hp))
  emptied c hc := by
    have hp : s.turn = .stop c := ht ▸ hc
    exact (he.shut hs (h.closed (hp ▸ trivial)) (h.emptied c hp)).2.2

theorem read {p : ρ} (hr : s.Reads p s') (ht : s.turn = .read) : Left s' := by
  refine of_not_past ?_
  cases hr with
  | took r a ws c hq hs => exact id
  | closed x hx hq => exact id
  | parked c ho hq hs => exact ht ▸ id

theorem drain (h : Left s) {o : Outcome α} (hd : s.Drains o s') {c : Completion}
    (ht : s.turn = .drain c) : Left (s'.goOn (Turn.next (.drain c) o)) := by
  have hc : s.channel.completion.isSome := h.closed (ht ▸ trivial)
  refine ⟨fun _ => hd.completion.symm ▸ hc, ?_⟩
  intro x hx
  cases hd with
  | took r a ws c' hq hs => cases hx
  | empty f hq => exact hq

/-- Every step leaves the channel so. -/
theorem step [DecidableEq ρ] (h : Left s) (hs : s.Sound) (he : Consumer.Step s e s') :
    Left s' := by
  cases he with
  | write p a => exact h.stay hs (.write p a) (hs.write p a).turn
  | close c => exact h.stay hs (.close c) (hs.close c).turn
  | withdraw f =>
    obtain ⟨c, -, -, hx⟩ := hs.withdraw f
    exact h.stay hs (.withdraw f) (hx ▸ rfl)
  | cancel => exact h.stay hs .cancel rfl
  | start ht => exact of_not_past id
  | checkpoint ht => exact of_not_past (by rcases s.checkpoint with f | _ <;> exact id)
  | read p ht ha => exact read (hs.read ha p) ht
  | @resume p o ht ha => exact of_not_past (by cases o <;> exact id)
  | reduce effect ht => exact of_not_past (by cases effect <;> exact id)
  | emit o ht => exact of_not_past (by cases o <;> exact id)
  | finish ht => exact ⟨fun _ => (hs.close _).closes, by simp [Consumer.finish, Turn.next]⟩
  | finalize ht => exact ⟨fun _ => h.closed (ht ▸ trivial), by simp [Turn.next]⟩
  | drain ht => exact h.drain hs.drain ht
  | dispose ht => exact ⟨fun _ => h.closed (ht ▸ trivial), by simp [Turn.next]⟩

end Left

/-! ## The account -/

/-- What holds all along a run. -/
structure Kept (t : List (Event α)) (s : Consumer ρ α) : Prop where
  sound : s.Sound
  balance : Balance t s
  reasons : Reasons t s
  reached : Reached t s.turn
  left : Left s

theorem kept_new (b : Buffering) : Kept [] (.new b : Consumer ρ α) where
  sound := Consumer.sound_new b
  balance := ⟨rfl, .inl rfl⟩
  reasons := ⟨fun _ h => (nomatch h), fun h => (nomatch h), fun _ _ h => (nomatch h)⟩
  reached := rfl
  left := Left.of_not_past id

variable [DecidableEq ρ] {b : Buffering}

theorem Kept.step (h : Kept t s) (he : Consumer.Step s e s') : Kept (t ++ [e]) s' where
  sound := he.sound h.sound
  balance := h.balance.step h.sound he
  reasons := h.reasons.step h.sound he
  reached := h.reached.step h.sound h.reasons he
  left := h.left.step h.sound he

theorem kept_run (h : Run Consumer.Step (.new b : Consumer ρ α) t s) : Kept t s :=
  h.invariant (kept_new b) Kept.step

/-- What a fold comes to, whatever others do to it. -/
structure Accounted (t : List (Event α)) (s : Consumer ρ α) : Prop where
  /-- The folder is called in the order of a history, and once it is finalized, the ending of the
      history has its reason in the run. -/
  history : ∃ h : History α, calls t <+: h.calls ∧
    ∀ c, Call.finalize c ∈ calls t → calls t = h.calls ∧ h.ending.Holds t
  /-- What the channel accepted was reduced or disposed of, is about to be, was given back, or is
      in the channel, in this order. -/
  conserved : accepted t = taken (calls t) ++ s.hand ++ withdrawals t ++ s.channel.values
  /-- When the state is final, the history is complete, and whatever the channel accepted and did
      not give back was reduced, or else disposed of. -/
  complete : ∀ c, s.turn = .stop c → ∃ h : History α, calls t = h.calls ∧ h.ending.Holds t ∧
    h.ending.completion = c ∧ accepted t = h.reduced ++ h.disposed ++ withdrawals t
  /-- Then the channel is closed and empty. -/
  closed : ∀ c, s.turn = .stop c → s.channel.completion.isSome ∧ s.channel.queued = []
  /-- A fold that is not final goes on by itself, unless it waits for an action. -/
  live : (∀ c, s.turn ≠ .stop c) → s.Waits ∨ ∃ e s', Consumer.Step s e s' ∧ s.Advances s'
  /-- Once its loop has ended, it becomes final by itself, with the completion that ended it. -/
  finishes : ∀ c, s.turn.completion? = some c →
    ∃ t' s', Run Consumer.Step s t' s' ∧ s'.turn = .stop c

/-- A fold accounts for every action. -/
theorem accounted [Inhabited ρ] (h : Run Consumer.Step (.new b : Consumer ρ α) t s) :
    Accounted t s := by
  have hk := kept_run h
  refine ⟨hk.reached.history, hk.balance.conserved_in_order, ?_, ?_, hk.sound.live,
    fun c => hk.sound.finishes⟩
  · intro c hc
    obtain ⟨y, hy, hyc, hcs⟩ : Reached t (.stop c) := hc ▸ hk.reached
    refine ⟨y, hcs, hy, hyc, ?_⟩
    have hl : s.load = [] := by
      simp [Consumer.load, Consumer.hand, hc, Channel.values, hk.left.emptied c hc]
    rw [hk.balance.conserved, hcs, taken_calls, hl, List.append_nil]
  · intro c hc
    exact ⟨hk.left.closed (hc ▸ trivial), hk.left.emptied c hc⟩

/-- The fold is cancelled while it emits: the first action was reduced, the second is disposed
    of, and both are told apart in the account. -/
theorem accounted_cancelled : ∃ (t : List (Event Nat)) (s : Consumer Nat Nat),
    Run Consumer.Step (.new .unbounded) t s ∧ Accounted t s ∧
      s.turn = .stop (.failure Fault.cancelled) ∧
      calls t = [.start, .reduce 5 .none, .emit (.ok ()), .finalize (.failure Fault.cancelled),
        .dispose 6 (.failure Fault.cancelled)] := by
  have new : Run Consumer.Step (.new .unbounded : Consumer Nat Nat) [] _ := .nil
  have reduced := new.snoc (.write none 5) |>.snoc (.start rfl) |>.snoc (.checkpoint rfl)
    |>.snoc (.read 0 rfl rfl) |>.snoc (.reduce (a := 5) .none rfl)
  have cancelled := reduced.snoc (.write none 6) |>.snoc .cancel
    |>.snoc (.close (.failure Fault.cancelled)) |>.snoc (.emit (.ok ()) rfl)
  have closed := cancelled.snoc (.checkpoint rfl)
    |>.snoc (.finish (c := .failure Fault.cancelled) rfl)
    |>.snoc (.finalize (c := .failure Fault.cancelled) rfl)
  have run := closed.snoc (.drain (c := .failure Fault.cancelled) rfl)
    |>.snoc (.dispose (a := 6) (c := .failure Fault.cancelled) rfl)
    |>.snoc (.drain (c := .failure Fault.cancelled) rfl)
  exact ⟨_, _, run, accounted run, rfl, rfl⟩

end ResumeOnce.Fold
