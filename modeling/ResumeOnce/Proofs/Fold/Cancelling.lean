import ResumeOnce.Proofs.Fold.Accounting

/-!
# Folds that are cancelled

Whoever cancels a fold changes its status, and then closes its channel. The consumer sees the
status at its next checkpoint, and the closed channel at its next read. So it reduces one more
action at most, and disposes of all the others.

* `reduced`, `emitted`, `disposed`: what the folder was called for;
* `Consumer.Step.spends`: the consumer reduces and emits once more at most;
* `Consumer.underway`, `Consumer.Step.underway`: what it may reduce once its channel is closed;
* `Consumer.due`, `Consumer.Step.due_le`: the steps that it has still to take then;
* `Revoked`, `revoked`: what becomes of a fold that is cancelled.
-/

namespace ResumeOnce.Fold

variable {ρ α : Type}

/-! ## What the folder was called for -/

/-- The action that a call reduces. -/
@[simp]
def Call.reduced : Call α → List α
  | reduce a _ => [a]
  | _ => []

/-- What an emission came to. -/
@[simp]
def Call.emitted : Call α → List (Outcome Unit)
  | emit o => [o]
  | _ => []

/-- The action that a call disposes of. -/
@[simp]
def Call.disposed : Call α → List α
  | dispose a _ => [a]
  | _ => []

/-- The actions that were reduced, in order. -/
def reduced (t : List (Event α)) : List α := (calls t).flatMap Call.reduced

/-- What the emissions came to, in order. -/
def emitted (t : List (Event α)) : List (Outcome Unit) := (calls t).flatMap Call.emitted

/-- The actions that were disposed of, in order. -/
def disposed (t : List (Event α)) : List α := (calls t).flatMap Call.disposed

@[simp]
theorem reduced_snoc (t : List (Event α)) (e : Event α) :
    reduced (t ++ [e]) = reduced t ++ e.calls.flatMap Call.reduced := by simp [reduced]

@[simp]
theorem emitted_snoc (t : List (Event α)) (e : Event α) :
    emitted (t ++ [e]) = emitted t ++ e.calls.flatMap Call.emitted := by simp [emitted]

@[simp]
theorem disposed_snoc (t : List (Event α)) (e : Event α) :
    disposed (t ++ [e]) = disposed t ++ e.calls.flatMap Call.disposed := by simp [disposed]

/-- Who does not call the folder adds no call. -/
theorem calls_without {e : Event α} (he : e.calls = []) (t u : List (Event α)) :
    calls (t ++ [e] ++ u) = calls (t ++ u) := by
  rw [calls, List.flatMap_append, List.flatMap_append, List.flatMap_singleton, he,
    List.append_nil, calls, List.flatMap_append]

/-- What a step is about is reduced or disposed of. -/
theorem Event.taken_calls (e : Event α) :
    taken e.calls = e.calls.flatMap Call.reduced ++ e.calls.flatMap Call.disposed := by
  cases e with
  | called call => cases call <;> rfl
  | _ => rfl

namespace Turn

/-- How many actions a consumer that was cancelled may still reduce. -/
@[simp]
def reductionsDue : Turn α → Nat
  | .read | .reduce _ => 1
  | _ => 0

/-- How often a consumer that was cancelled may still emit. -/
@[simp]
def emissionsDue : Turn α → Nat
  | .read | .reduce _ | .emit => 1
  | _ => 0

theorem reductionsDue_le (turn : Turn α) : turn.reductionsDue ≤ 1 := by
  cases turn <;> simp

theorem emissionsDue_le (turn : Turn α) : turn.emissionsDue ≤ 1 := by
  cases turn <;> simp

end Turn

namespace Consumer

variable {s s' : Consumer ρ α} {e : Event α} [DecidableEq ρ]

/-! ## Behind a cancellation -/

/-- A fold that was cancelled stays so. -/
theorem Step.stays_cancelled (hs : Step s e s') (h : s.Sound) (hc : s.cancelled = true) :
    s'.cancelled = true := by
  rcases hs.cancelled h with he | rfl
  · rw [he, hc]
  · cases hs
    rfl

omit [DecidableEq ρ] in
theorem checkpoint_cancelled (hc : s.cancelled = true) :
    s.checkpoint = .error Fault.cancelled := by
  rw [checkpoint, hc]
  rfl

/-- A consumer that was cancelled stops at its next checkpoint, so it reduces and emits once more
    at most. -/
theorem Step.spends (hs : Step s e s') (h : s.Sound) (hc : s.cancelled = true) :
    (e.calls.flatMap Call.reduced).length + s'.turn.reductionsDue ≤ s.turn.reductionsDue ∧
      (e.calls.flatMap Call.emitted).length + s'.turn.emissionsDue ≤ s.turn.emissionsDue := by
  cases hs with
  | write p a => simp [(h.write p a).turn]
  | close c => simp [(h.close c).turn]
  | withdraw f =>
    obtain ⟨c, -, -, he⟩ := h.withdraw f
    rw [he]
    simp [Consumer.answer]
  | cancel => simp
  | checkpoint ht =>
    rw [checkpoint_cancelled hc]
    simp [ht, Turn.next]
  | read p ht ha =>
    have hr := h.read ha p
    generalize s.read p = s' at hr ⊢
    cases hr <;> simp [ht]
  | @resume p o ht ha => cases o <;> simp [ht, Turn.next]
  | reduce effect ht => cases effect <;> simp [ht, Turn.next]
  | emit o ht => cases o <;> simp [ht, Turn.next]
  | finish ht => simp [ht, Consumer.finish, Turn.next]
  | drain ht => rcases s.channel.tryRead.result with f | a <;> simp [ht, Turn.next]
  | start ht | finalize ht | dispose ht => simp [ht, Turn.next]

/-! ## Behind a close -/

/-- A closed channel accepts nothing. -/
theorem Step.accepts_nothing (hs : Step s e s') (h : s.Sound)
    (hc : s.channel.completion.isSome) : e.accepted = [] := by
  cases hs with
  | write p a => exact ((h.write p a).refused hc).1
  | _ => rfl

omit [DecidableEq ρ] in
/-- A channel that is closed is not closed again. -/
theorem Closed.again {x : Completion} {done : Bool} (hc : Closed s x done s')
    (hx : s.channel.completion.isSome) : done = false ∧ s' = s := by
  cases hc with
  | before hx => exact ⟨rfl, rfl⟩
  | now c ho hs => simp [ho] at hx

/-- A closed channel stays closed with the same completion, unless its actions are taken back. -/
theorem Step.stays_closed (hs : Step s e s') (h : s.Sound) (hc : s.channel.completion.isSome) :
    s'.channel.completion = s.channel.completion ∧ e.terminals = [] ∨
      ∃ f actions, e = .withdrawn f actions := by
  cases hs with
  | write p a => exact .inl ⟨(h.write p a).completion, rfl⟩
  | close c =>
    obtain ⟨hd, hs⟩ := (h.close c).again hc
    rw [hd, hs]
    exact .inl ⟨rfl, rfl⟩
  | withdraw f => exact .inr ⟨f, _, rfl⟩
  | read p ht ha => exact .inl ⟨(h.read ha p).completion, rfl⟩
  | @finish c ht =>
    obtain ⟨hd, hs⟩ := (h.close c).again hc
    rw [hd]
    exact .inl ⟨congrArg (·.channel.completion) hs, rfl⟩
  | drain ht => exact .inl ⟨h.drain.completion, rfl⟩
  | _ => exact .inl ⟨rfl, rfl⟩

/-- The action that the consumer is about to reduce when its channel is closed: the one in hand,
    or the one that it is about to read. -/
def underway (s : Consumer ρ α) : List α :=
  match s.turn, s.awaited with
  | .reduce a, _ => [a]
  | .read, none => s.channel.values.take 1
  | .read, some (_, some (.ok a)) => [a]
  | _, _ => []

/-- A consumer that was cancelled, and whose channel is closed, reduces nothing but what is underway
    to it. -/
theorem Step.underway (hs : Step s e s') (h : s.Sound) (hx : s.cancelled = true)
    (hc : s.channel.completion.isSome) :
    e.calls.flatMap Call.reduced ++ s'.underway <+: s.underway := by
  cases hs with
  | write p a =>
    obtain ⟨-, hs⟩ := (h.write p a).refused hc
    rw [hs]
    exact List.prefix_rfl
  | close c =>
    rw [((h.close c).again hc).2]
    exact List.prefix_rfl
  | withdraw f =>
    obtain ⟨c, hs, -, he⟩ := h.withdraw f
    rw [he]
    obtain ⟨channel, turn, _ | ⟨p, _ | _ | a⟩, cancelled⟩ := s <;> cases turn <;>
      simp [Consumer.underway, Consumer.answer, Channel.values, hs.queued]
  | cancel => exact List.prefix_rfl
  | checkpoint ht =>
    rw [checkpoint_cancelled hx]
    simp [Consumer.underway, ht, Turn.next]
  | read p ht ha =>
    have hr := h.read ha p
    generalize s.read p = s' at hr ⊢
    cases hr with
    | took r a ws c hq hs => simp [Consumer.underway, ht, ha, Channel.values, hq]
    | closed x hx hq => simp [Consumer.underway]
    | parked c ho hq hs => simp [ho] at hc
  | @resume p o ht ha => cases o <;> simp [Consumer.underway, ht, ha, Turn.next]
  | reduce effect ht => cases effect <;> simp [Consumer.underway, ht, Turn.next]
  | emit o ht => cases o <;> simp [Consumer.underway, ht, Turn.next]
  | finish ht => simp [Consumer.underway, ht, Consumer.finish, Turn.next]
  | drain ht =>
    rcases s.channel.tryRead.result with f | a <;> simp [Consumer.underway, ht, Turn.next]
  | start ht | finalize ht | dispose ht => simp [Consumer.underway, ht, Turn.next]

/-! ## The steps that are left -/

/-- A bound on the steps that a consumer that was cancelled, and whose channel is closed, takes on
    its own until it is final. -/
def due (s : Consumer ρ α) : Nat :=
  2 * s.channel.queued.length +
    match s.turn with
    | .read => 7
    | .reduce _ => 6
    | .start | .emit => 5
    | .checkpoint => 4
    | .close _ => 3
    | .finalize _ | .dispose _ _ => 2
    | .drain _ => 1
    | .stop _ => 0

/-- No step adds to what is left, and every step of the consumer's own takes something from it. -/
theorem Step.due_le (hs : Step s e s') (h : s.Sound) (hx : s.cancelled = true)
    (hc : s.channel.completion.isSome) : s'.due ≤ s.due ∧ (s'.turn ≠ s.turn → s'.due < s.due) := by
  cases hs with
  | write p a =>
    obtain ⟨-, hs⟩ := (h.write p a).refused hc
    simp [hs]
  | close c => simp [((h.close c).again hc).2]
  | withdraw f =>
    obtain ⟨c, hs, -, he⟩ := h.withdraw f
    rw [he]
    simp [due, Consumer.answer, hs.queued]
  | cancel => simp [due]
  | checkpoint ht =>
    rw [checkpoint_cancelled hx]
    simp [due, ht, Turn.next]
  | read p ht ha =>
    have hr := h.read ha p
    generalize s.read p = s' at hr ⊢
    cases hr with
    | took r a ws c hq hs =>
      simp only [due, goOn_channel, goOn_turn, ht, hq, hs.queued, List.length_cons]
      omega
    | closed x hx hq => simp [due, ht]
    | parked c ho hq hs => simp [ho] at hc
  | @resume p o ht ha => cases o <;> simp [due, ht, Turn.next]
  | reduce effect ht => cases effect <;> simp [due, ht, Turn.next]
  | emit o ht => cases o <;> simp [due, ht, Turn.next]
  | @finish c ht =>
    have hq : (s.finish c).channel.queued = s.channel.queued := (h.close c).queued
    simp only [due, hq, ht, show (s.finish c).turn = .finalize c from rfl]
    omega
  | drain ht =>
    have hd := h.drain
    generalize s.channel.tryRead.result = o at hd ⊢
    generalize s.exchange s.channel.tryRead = s' at hd ⊢
    cases hd with
    | took r a ws c hq hs =>
      simp only [due, goOn_channel, goOn_turn, ht, hq, hs.queued, Turn.next, List.length_cons]
      omega
    | empty f hq => simp [due, ht, Turn.next]
  | start ht | finalize ht | dispose ht => simp [due, ht, Turn.next]

/-! ## Runs behind a cancellation -/

variable {t u : List (Event α)}

/-- In a run behind a cancellation the consumer reduces and emits once at most. -/
theorem spends_run (hr : Run Step s u s') (h : s.Sound) (hx : s.cancelled = true) :
    (reduced u).length ≤ s.turn.reductionsDue ∧ (emitted u).length ≤ s.turn.emissionsDue := by
  have hk : (s'.Sound ∧ s'.cancelled = true) ∧
      (reduced u).length + s'.turn.reductionsDue ≤ s.turn.reductionsDue ∧
      (emitted u).length + s'.turn.emissionsDue ≤ s.turn.emissionsDue := by
    refine hr.invariant (P := fun u s' => (s'.Sound ∧ s'.cancelled = true) ∧
      (reduced u).length + s'.turn.reductionsDue ≤ s.turn.reductionsDue ∧
      (emitted u).length + s'.turn.emissionsDue ≤ s.turn.emissionsDue)
      ⟨⟨h, hx⟩, by simp [reduced, calls], by simp [emitted, calls]⟩ ?_
    rintro u s₁ e s₂ ⟨⟨h, hx⟩, hred, hem⟩ hs
    obtain ⟨hr, he⟩ := hs.spends h hx
    rw [reduced_snoc, emitted_snoc, List.length_append, List.length_append]
    exact ⟨⟨hs.sound h, hs.stays_cancelled h hx⟩, by omega, by omega⟩
  omega

/-- What holds behind a cancellation that has closed the channel. -/
structure Behind (s : Consumer ρ α) (u : List (Event α)) (s' : Consumer ρ α) : Prop where
  sound : s'.Sound
  cancelled : s'.cancelled = true
  closed : s'.channel.completion.isSome
  completion : (∀ f actions, .withdrawn f actions ∉ u) →
    s'.channel.completion = s.channel.completion
  terminals : ∀ x ∈ terminals u, ∃ f actions, .withdrawn f actions ∈ u ∧ x = .failure f
  accepted : accepted u = []
  underway : reduced u ++ s'.underway <+: s.underway
  load : s.load = reduced u ++ disposed u ++ s'.load ++ withdrawals u
  shut : withdrawals u = [] ∨ s'.channel.queued = []
  disposed : disposed u = [] ∨ s'.turn.completion?.isSome

omit [DecidableEq ρ] in
theorem behind_nil (h : s.Sound) (hx : s.cancelled = true) (hc : s.channel.completion.isSome) :
    Behind s [] s where
  sound := h
  cancelled := hx
  closed := hc
  completion _ := rfl
  terminals _ hm := nomatch hm
  accepted := rfl
  underway := List.prefix_rfl
  load := (List.append_nil _).symm
  shut := .inl rfl
  disposed := .inl rfl

/-- Actions are reduced before the end of the loop, and disposed of behind it. -/
theorem Step.sorts (hs : Step s e s') :
    e.calls.flatMap Call.reduced = [] ∨
      s.turn.completion? = none ∧ e.calls.flatMap Call.disposed = [] := by
  cases hs with
  | reduce effect ht => exact .inr ⟨by rw [ht]; rfl, rfl⟩
  | _ => exact .inl rfl

/-- Whoever disposes of an action has come to the end of the loop. -/
theorem Step.disposes (hs : Step s e s') :
    e.calls.flatMap Call.disposed = [] ∨ s'.turn.completion?.isSome := by
  cases hs with
  | dispose ht => exact .inr rfl
  | _ => exact .inl rfl

namespace Behind

variable {s₁ : Consumer ρ α}

/-- What a step passes on or gives back comes out of the load. -/
theorem step_load (h : Behind s u s₁) (hs : Step s₁ e s') :
    s.load = reduced (u ++ [e]) ++ Fold.disposed (u ++ [e]) ++ s'.load ++
      withdrawals (u ++ [e]) := by
  have hl := hs.load h.sound
  rw [hs.accepts_nothing h.sound h.closed, List.append_nil, e.taken_calls] at hl
  rw [h.load, hl, reduced_snoc, disposed_snoc, withdrawals_snoc]
  -- Nothing is reduced once something was disposed of.
  have hd : Fold.disposed u ++ e.calls.flatMap Call.reduced =
      e.calls.flatMap Call.reduced ++ Fold.disposed u := by
    rcases hs.sorts with hr | ⟨hc, -⟩
    · rw [hr, List.append_nil, List.nil_append]
    · rw [h.disposed.resolve_right (by simp [hc]), List.append_nil, List.nil_append]
  -- Nothing is given back once something was given back.
  have hw : e.withdrawals ++ withdrawals u = withdrawals u ++ e.withdrawals := by
    rcases h.shut with hw | hq
    · rw [hw, List.append_nil, List.nil_append]
    · rw [(hs.shut h.sound h.closed hq).2.1, List.append_nil, List.nil_append]
  simp only [List.append_assoc, hw]
  rw [← List.append_assoc (Fold.disposed u), hd, List.append_assoc]

theorem step (h : Behind s u s₁) (hs : Step s₁ e s') : Behind s (u ++ [e]) s' where
  sound := hs.sound h.sound
  cancelled := hs.stays_cancelled h.sound h.cancelled
  closed := hs.closed h.sound h.closed
  completion hn := by
    rcases hs.stays_closed h.sound h.closed with ⟨hc, -⟩ | ⟨f, actions, rfl⟩
    · exact hc.trans (h.completion fun f actions hm => hn f actions (List.mem_append_left _ hm))
    · exact absurd (List.mem_append_right _ (List.mem_singleton_self _)) (hn f actions)
  terminals x hx := by
    have hold : x ∈ Fold.terminals u →
        ∃ f actions, .withdrawn f actions ∈ u ++ [e] ∧ x = .failure f :=
      fun hx => (h.terminals x hx).imp fun f hf => hf.imp fun actions hm =>
        ⟨List.mem_append_left _ hm.1, hm.2⟩
    rw [terminals_snoc, List.mem_append] at hx
    rcases hs.stays_closed h.sound h.closed with ⟨-, ht⟩ | ⟨f, actions, rfl⟩
    · rw [ht] at hx
      exact hold (hx.resolve_right List.not_mem_nil)
    · exact hx.elim hold fun hx => ⟨f, actions, by simp, List.mem_singleton.1 hx⟩
  accepted := by rw [accepted_snoc, h.accepted, hs.accepts_nothing h.sound h.closed]; rfl
  underway := by
    rw [reduced_snoc, List.append_assoc]
    exact ((List.prefix_append_right_inj _).2 (hs.underway h.sound h.cancelled h.closed)).trans
      h.underway
  load := h.step_load hs
  shut := by
    rcases h.shut with hw | hq
    · rw [withdrawals_snoc, hw]
      exact (hs.withdrawals h.sound).imp_right And.right
    · exact .inr (hs.shut h.sound h.closed hq).2.2
  disposed := by
    rcases hs.disposes with hd | hd
    · rw [disposed_snoc, hd, List.append_nil]
      refine h.disposed.imp_right fun hc => ?_
      obtain ⟨c, hc⟩ := Option.isSome_iff_exists.1 hc
      exact Option.isSome_iff_exists.2 ⟨c, (hs.leads h.sound).completion? hc⟩
    · exact .inr hd

end Behind

theorem behind_run (hr : Run Step s u s') (h : s.Sound) (hx : s.cancelled = true)
    (hc : s.channel.completion.isSome) : Behind s u s' :=
  hr.invariant (behind_nil h hx hc) Behind.step

/-- The fold is cancelled: its status changes. -/
def revoke (s : Consumer ρ α) : Consumer ρ α := { s with cancelled := true }

/-- Whoever has cancelled the fold closes its channel. -/
def shutOff (s : Consumer ρ α) : Consumer ρ α :=
  s.exchange (s.channel.close (.failure Fault.cancelled))

theorem cancelled_run (hr : Run Step s u s') (h : s.Sound) (hx : s.cancelled = true) :
    s'.Sound ∧ s'.cancelled = true :=
  hr.invariant (P := fun _ s' => s'.Sound ∧ s'.cancelled = true) ⟨h, hx⟩
    fun ⟨h, hx⟩ hs => ⟨hs.sound h, hs.stays_cancelled h hx⟩

/-- A consumer whose channel is closed goes on to another turn, until it is final. -/
theorem Behind.live [Inhabited ρ] (h : Behind s u s') (hn : ∀ c, s'.turn ≠ .stop c) :
    ∃ e s₁, Step s' e s₁ ∧ s₁.turn ≠ s'.turn := by
  rcases h.sound.live hn with hw | ⟨e, s₁, hs, ht | ⟨-, hp⟩⟩
  · simpa [hw.opened] using h.closed
  · exact ⟨e, s₁, hs, ht⟩
  · obtain ⟨p, ha⟩ := exists_awaited hp
    have ho := ((hs.sound h.sound).waits ha).opened
    simpa [ho] using hs.closed h.sound h.closed

end Consumer

/-! ## What becomes of a fold that is cancelled -/

/-- Why the loop of a fold has ended that was cancelled, by what had happened before its channel
    was closed for that, and by what happened behind. -/
inductive Verdict (before after : List (Event α)) : Ending α → Prop
  /-- It ends with the cancellation. -/
  | cancelled {x : Ending α} : x.completion = .failure Fault.cancelled → Verdict before after x
  /-- The channel had been closed before. -/
  | closed {c : Completion} : c ∈ terminals before → Verdict before after (.closed c)
  /-- The last reduction ended the loop. -/
  | reduced (a : α) (c : Completion) : Verdict before after (.reduced a c)
  /-- The last emission ended it. -/
  | emitted (a : α) (f : Fault) : Verdict before after (.emitted a f)
  /-- The actions in the channel were taken back. -/
  | withdrawn {f : Fault} {actions : List α} : .withdrawn f actions ∈ after →
      Verdict before after (.closed (.failure f))

/-- What becomes of a fold that is cancelled. Its status changes behind the first run, its channel
    is closed behind the second one. -/
structure Revoked [DecidableEq ρ] (t m u : List (Event α)) (s₁ s : Consumer ρ α) : Prop where
  /-- The channel is closed. -/
  closed : s.channel.completion.isSome
  /-- It was closed with the cancellation, if it was open. -/
  closes : s₁.channel.completion = none → (∀ f actions, .withdrawn f actions ∉ u) →
    s.channel.completion = some (.failure Fault.cancelled)
  /-- Nothing is accepted any more. -/
  refuses : accepted u = []
  /-- One more action is reduced at most. -/
  reduces : (reduced (m ++ u)).length ≤ 1
  /-- It is the one that was in hand, or that the consumer was about to read. -/
  underway : reduced u <+: s₁.shutOff.underway
  /-- There is one more emission at most. -/
  emits : (emitted (m ++ u)).length ≤ 1
  /-- All other actions are disposed of, are about to be, or were given back. -/
  disposes : s₁.shutOff.load = reduced u ++ disposed u ++ s.load ++ withdrawals u
  /-- When the state is final, there are none left. -/
  empties : ∀ c, s.turn = .stop c → s.load = []
  /-- The folder is called in the order of a history, all of it once it is finalized, and the
      completion that it is given is that of the ending. -/
  completes : ∃ y : History α, calls (t ++ m ++ u) <+: y.calls ∧
    ∀ c, .finalize c ∈ calls (t ++ m ++ u) → calls (t ++ m ++ u) = y.calls ∧
      y.ending.completion = c ∧ Verdict (t ++ m) u y.ending
  /-- The consumer goes on to another turn until the state is final. -/
  live : (∀ c, s.turn ≠ .stop c) → ∃ e s', Consumer.Step s e s' ∧ s'.turn ≠ s.turn
  /-- Whenever it does, there is less left, and nobody adds to it. -/
  ends : ∀ e s', Consumer.Step s e s' → s'.due ≤ s.due ∧ (s'.turn ≠ s.turn → s'.due < s.due)

section Revoked

variable {t m u : List (Event α)} {s₀ s₁ s : Consumer ρ α} {y : History α} {c : Completion}

/-- The folder is finalized with the completion of the ending. -/
theorem completion_of_finalize_mem (h : .finalize c ∈ y.calls) : y.ending.completion = c := by
  simp only [History.calls, List.mem_append, List.mem_cons, List.mem_map] at h
  rcases h with (h | h) | h | ⟨a, -, h⟩
  · exact absurd h (finalize_not_mem_looped _ c)
  · exact absurd h (y.ending.finalize_not_mem_calls c)
  · cases h
    rfl
  · cases h

/-- The reason of an ending tells why the loop has ended. -/
theorem verdict_of_holds {x : Ending α} {done : Bool}
    (h : x.Holds (t ++ [.cancelled] ++ m ++ [.closed (.failure Fault.cancelled) done] ++ u))
    (hu : ∀ x ∈ terminals u, ∃ f actions, .withdrawn f actions ∈ u ∧ x = .failure f) :
    Verdict (t ++ m) u x := by
  cases x with
  | reduced a c => exact .reduced a c
  | emitted a f => exact .emitted a f
  | cancelled => exact .cancelled rfl
  | closed c =>
    simp only [Ending.Holds, terminals, List.flatMap_append, List.mem_append] at h
    rcases h with (((h | h) | h) | h) | h
    · exact .closed (by simp [terminals, h])
    · cases h
    · exact .closed (by simp [terminals, h])
    · -- The channel was closed for the cancellation.
      cases done with
      | false => cases h
      | true =>
        obtain rfl := List.mem_singleton.1 h
        exact .cancelled rfl
    · obtain ⟨f, actions, hm, rfl⟩ := hu c h
      exact .withdrawn hm

variable [DecidableEq ρ] [Inhabited ρ] {b : Buffering}

omit [Inhabited ρ] in
/-- The channel of a fold is closed with the cancellation, if it was open. -/
theorem completion_shutOff (h : s.Sound) (ho : s.channel.completion = none) :
    s.shutOff.channel.completion = some (.failure Fault.cancelled) := by
  have hc := h.close (.failure Fault.cancelled)
  rcases hc.completion with hn | ⟨-, hs⟩
  · have hs := hc.closes
    rw [hn, ho] at hs
    cases hs
  · exact hs

/-- A fold that is cancelled reduces one more action at most and emits once more at most, disposes
    of all other actions, and ends with the cancellation unless it was ending anyway. -/
theorem revoked (h₀ : Run Consumer.Step (.new b : Consumer ρ α) t s₀)
    (h₁ : Run Consumer.Step s₀.revoke m s₁) (h₂ : Run Consumer.Step s₁.shutOff u s) :
    Revoked t m u s₁ s := by
  have hk₀ : Kept _ s₀.revoke := kept_run (h₀.snoc .cancel)
  obtain ⟨hs₁, hx₁⟩ := Consumer.cancelled_run h₁ hk₀.sound rfl
  have hshut : Consumer.Step s₁ _ s₁.shutOff := .close (.failure Fault.cancelled)
  have hb := Consumer.behind_run h₂ (hshut.sound hs₁) (hshut.stays_cancelled hs₁ hx₁)
    (hs₁.close _).closes
  have hk := kept_run ((((h₀.snoc .cancel).append h₁).snoc hshut).append h₂)
  obtain ⟨hr, he⟩ := Consumer.spends_run ((h₁.snoc hshut).append h₂) hk₀.sound rfl
  refine ⟨hb.closed, fun ho hn => (hb.completion hn).trans (completion_shutOff hs₁ ho), hb.accepted,
    ?_, (List.prefix_append ..).trans hb.underway, ?_, hb.load, fun c hc => ?_, ?_, hb.live,
    fun e s' hs => hs.due_le hb.sound hb.cancelled hb.closed⟩
  · rw [reduced, calls_without rfl] at hr
    exact Nat.le_trans hr (Turn.reductionsDue_le _)
  · rw [emitted, calls_without rfl] at he
    exact Nat.le_trans he (Turn.emissionsDue_le _)
  · have hq := hk.left.emptied c hc
    simp [Consumer.load, Consumer.hand, hc, Channel.values, hq]
  · obtain ⟨y, hp, hy⟩ := hk.reached.history
    have hcalls : calls (t ++ [.cancelled] ++ m ++ [.closed (.failure Fault.cancelled)
        (s₁.channel.close (.failure Fault.cancelled)).result] ++ u) = calls (t ++ m ++ u) := by
      rw [calls_without rfl, List.append_assoc _ m u, calls_without rfl, List.append_assoc]
    rw [hcalls] at hp hy
    refine ⟨y, hp, fun c hc => ?_⟩
    obtain ⟨hcs, hx⟩ := hy c hc
    exact ⟨hcs, completion_of_finalize_mem (hcs ▸ hc), verdict_of_holds hx hb.terminals⟩

/-- The consumer is past its checkpoint when the fold is cancelled, with two actions in the channel:
    it reduces the first one, emits, and disposes of the second one. -/
theorem revoked_reading : ∃ (t u : List (Event Nat)) (s₀ s : Consumer Nat Nat),
    Run Consumer.Step (.new .unbounded) t s₀ ∧ Run Consumer.Step s₀.revoke [] s₀.revoke ∧
      Run Consumer.Step s₀.revoke.shutOff u s ∧ Revoked t [] u s₀.revoke s ∧
      s.turn = .stop (.failure Fault.cancelled) ∧
      calls u = [.reduce 5 .none, .emit (.ok ()), .finalize (.failure Fault.cancelled),
        .dispose 6 (.failure Fault.cancelled)] := by
  have new : Run Consumer.Step (.new .unbounded : Consumer Nat Nat) [] _ := .nil
  have before := new.snoc (.write none 5) |>.snoc (.write none 6) |>.snoc (.start rfl)
    |>.snoc (.checkpoint rfl)
  have shut : ∀ {t s₀}, Run Consumer.Step (.new .unbounded : Consumer Nat Nat) t s₀ →
      Run Consumer.Step s₀.revoke.shutOff [] s₀.revoke.shutOff := fun _ => .nil
  have looped := shut before |>.snoc (.read 0 rfl rfl) |>.snoc (.reduce (a := 5) .none rfl)
    |>.snoc (.emit (.ok ()) rfl) |>.snoc (.checkpoint rfl)
  have closed := looped.snoc (.finish (c := .failure Fault.cancelled) rfl)
    |>.snoc (.finalize (c := .failure Fault.cancelled) rfl)
  have run := closed.snoc (.drain (c := .failure Fault.cancelled) rfl)
    |>.snoc (.dispose (a := 6) (c := .failure Fault.cancelled) rfl)
    |>.snoc (.drain (c := .failure Fault.cancelled) rfl)
  exact ⟨_, _, _, _, before, .nil, run, revoked before .nil run, rfl, rfl⟩

end Revoked

end ResumeOnce.Fold
