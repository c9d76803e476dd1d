import ResumeOnce.Proofs.Network.Tracing
import ResumeOnce.Proofs.Network.Uttering

/-!
# A combination that only a cancellation ends

As long as its feeders send values and its downstream is kind to them, a combination goes on until
it is cancelled. Then its fold comes to its end, and knows why; its drive says so to the downstream
and waits for the feeders.

* `Welcomes`, `Kind`: a downstream that wants more of every value, and accepts the completion;
* `Node.Bound`: what the drive is about to do when nothing but a cancellation has ended the fold;
* `Node.Enduring`: nothing but a cancellation ends the combination;
* `Node.Enduring.step`, `Node.Enduring.answer`, `Node.Enduring.revoke`: it stays so.
-/

namespace ResumeOnce.Network

open Streams

/-! ## Kind downstreams -/

section Kind

variable {α : Type} {ws : List (Word α)} {w : Word α} {m : Mood} {e : Event α}
  {o : Outcome Demand}

/-- Whether an answer is kind to an event: more is wanted of a value, and a completion is
    accepted. -/
def Welcomes : Event α → Outcome Demand → Prop
  | .value _, o => o = .ok .more
  | .completion _, o => ∃ d, o = .ok d

/-- Whether every answer is kind to the event before it. -/
def Kind (ws : List (Word α)) : Prop :=
  ∀ ws₁ e o ws₂, ws = ws₁ ++ .event e :: .answer o :: ws₂ → Welcomes e o

theorem Kind.nil : Kind ([] : List (Word α)) := by
  rintro ws₁ e o ws₂ hw
  simp at hw

theorem Kind.before {ws' : List (Word α)} (h : Kind (ws ++ ws')) : Kind ws := by
  rintro ws₁ e o ws₂ rfl
  exact h ws₁ e o (ws₂ ++ ws') (by simp)

/-- Only who answers the last event may be unkind to it. -/
theorem Kind.snoc (h : Kind ws)
    (hw : ∀ ws₁ e o, ws ++ [w] = ws₁ ++ [.event e] ++ [.answer o] → Welcomes e o) :
    Kind (ws ++ [w]) := by
  intro ws₁ e o ws₂ hs
  rcases ws₂.eq_nil_or_concat with rfl | ⟨l, b, rfl⟩
  · exact hw ws₁ e o (by simpa using hs)
  · have hl : ws ++ [w] = ws₁ ++ .event e :: .answer o :: l ++ [b] := by simpa using hs
    exact h ws₁ e o l (List.append_inj' hl rfl).1

/-- An event does not depend on the kindness of the downstream. -/
theorem Kind.event (h : Kind ws) (e : Event α) : Kind (ws ++ [.event e]) :=
  h.snoc fun _ _ _ hs => by cases (List.append_inj' hs rfl).2

/-- The answer to the last event is kind to it. -/
theorem Kind.last (h : Kind (ws ++ [.event e] ++ [.answer o])) : Welcomes e o :=
  h ws e o [] (by simp)

/-- Whoever is kind to the last event stays so. -/
theorem Kind.answer (h : Kind (ws ++ [.event e])) (ho : Welcomes e o) :
    Kind (ws ++ [.event e] ++ [.answer o]) := by
  refine h.snoc fun ws₁ e' o' hs => ?_
  obtain ⟨hs, ha⟩ := List.append_inj' hs rfl
  obtain ⟨-, he⟩ := List.append_inj' hs rfl
  cases ha
  cases he
  exact ho

/-- A kind downstream does not tell a stream to stop. -/
theorem Kind.ne_quit (h : Kind ws) (hw : Run Mood.Step .free ws m) : m ≠ .quit := by
  rintro rfl
  have ht := told_run hw
  cases ht with
  | quit vs v o ho =>
    obtain rfl : o = .ok .more := h (exchanged vs) (.value v) o [] (by simp)
    cases ho

end Kind

end ResumeOnce.Network

namespace ResumeOnce.Streams

variable {C : Combiner}

/-- What a fold does without its downstream does not end it, and pushes nothing. -/
theorem Deed.Inward.harmless {d : Deed C} (h : d.Inward) :
    d.Harmless ∧ (d ≠ .cancelled ∧ d ≠ .closed) ∧ d.pushes = none := by
  cases d with
  | reduced | finalized | disposed | tacit => exact ⟨trivial, by simp, rfl⟩
  | _ => cases h

/-- So it is with what is done by whoever cancels it. -/
theorem Deed.Revokes.harmless {d : Deed C} (h : d.Revokes) : d.Harmless ∧ d.pushes = none := by
  cases d with
  | cancelled | closed => exact ⟨trivial, rfl⟩
  | _ => cases h

end ResumeOnce.Streams

namespace ResumeOnce.Network

open Streams

/-! ## The combination -/

/-- The value that a stream calls its downstream with. -/
def Move.value? {α : Type} : Move α → Option α
  | .calls (.value v) => some v
  | _ => none

theorem values_move {α : Type} (t : List (Act α)) (a : Move α) :
    values (t ++ [.moved a]) = values t ++ a.value?.toList := by
  rw [values_append]
  rcases a with _ | ⟨v | c⟩ | r <;> rfl

variable {C : Combiner} {S : (i : C.Feeder) → System (C.Input i)} {order : List C.Feeder}
  {T : List (Seen C)} {x : Standing} {m : Mood} {a : Move C.Output}

/-- The feeders up to one that is over are over. -/
theorem complete_take_succ {result : C.Feeder → Slot Agent Demand} {k : Nat}
    (h : ∀ i ∈ order.take k, (result i).isComplete = true) {i : C.Feeder}
    (hk : order[k]? = some i) (hi : (result i).isComplete = true) :
    ∀ i ∈ order.take (k + 1), (result i).isComplete = true := by
  intro j hj
  rw [List.take_add_one, hk, Option.toList_some, List.mem_append, List.mem_singleton] at hj
  rcases hj with hj | rfl
  · exact h j hj
  · exact hi

namespace Node

variable {s s' : Node C (traced S)}

/-- What a drive is about to do when nothing but a cancellation has ended the fold. -/
def Bound (order : List C.Feeder) (result : C.Feeder → Slot Agent Demand) : Drive → Prop
  | .awaitFold => True
  | .push c => c = .failure Fault.cancelled
  | .awaitFeeder k delivered c => c = .failure Fault.cancelled ∧ (∃ d, delivered = .ok d) ∧
      ∀ i ∈ order.take k, (result i).isComplete = true
  | .settled r => r = .error Fault.cancelled ∧ ∀ i ∈ order, (result i).isComplete = true
  | .cancelFeeder _ _ | .awaitCancelled _ _ => False

/-- Whoever awaits the feeders one by one has seen all those before to be over. -/
theorem bound_awaitFrom {result : C.Feeder → Slot Agent Demand} {k : Nat} {d : Demand}
    (h : ∀ i ∈ order.take k, (result i).isComplete = true) :
    Bound order result (.awaitFrom order.length k (.ok d) (.failure Fault.cancelled)) := by
  rw [Drive.awaitFrom]
  split
  · exact ⟨rfl, ⟨d, rfl⟩, h⟩
  · rename_i hk
    rw [List.take_of_length_le (Nat.le_of_not_lt hk)] at h
    exact ⟨rfl, h⟩

theorem Bound.mono {result result' : C.Feeder → Slot Agent Demand} {d : Drive}
    (h : Bound order result d)
    (hr : ∀ i, (result i).isComplete = true → (result' i).isComplete = true) :
    Bound order result' d := by
  cases d with
  | awaitFold | push | cancelFeeder | awaitCancelled => exact h
  | awaitFeeder k o c => exact ⟨h.1, h.2.1, fun i hi => hr i (h.2.2 i hi)⟩
  | settled r => exact ⟨h.1, fun i hi => hr i (h.2 i hi)⟩

theorem Bound.poll {result : C.Feeder → Slot Agent Demand} {d : Drive}
    (h : Bound order result d) {i : C.Feeder} {slot : Slot Agent Demand} {a : Agent}
    {w : Option Agent} {p : Poll (Outcome Demand)} (hp : (result i).poll a = (slot, w, p)) :
    Bound order (Function.update result i slot) d :=
  h.mono fun _ => Slot.isComplete_update fun hc => (Slot.isComplete_poll hp).trans hc

/-- Nothing has ended a combination, or will end it, but a cancellation, if there was one: so it is
    with its fold, in the run that has led to it, and with its drive. -/
structure Enduring (order : List C.Feeder) (T : List (Seen C)) (s : Node C (traced S)) :
    Prop where
  run : Run Combination.Step (.new C) T s.fold
  harmless : ∀ e ∈ T, e.deed.Harmless
  steady : s.fold.Steady
  tracked : Tracked T s.fold s.feeder
  accepted : ∀ slot o, s.outlet = some (.drive, slot) → slot.result = some o → ∃ d, o = .ok d
  bound : Bound order s.result s.drive

namespace Enduring

theorem kept (h : Enduring order T s) : Combination.Kept T s.fold := Combination.kept_run h.run

theorem new (C : Combiner) (S : (i : C.Feeder) → System (C.Input i)) (order : List C.Feeder) :
    Enduring order [] (Node.new C (traced S)) where
  run := .nil
  harmless _ he := nomatch he
  steady := Combination.steady_new C
  tracked := .start C S
  accepted _ _ ho := nomatch ho
  bound := trivial

/-! ### The fold -/

/-- What becomes of a combination, and of what its fold may still push. -/
structure Endures (order : List C.Feeder) (T : List (Seen C)) (s : Node C (traced S))
    (v : Option C.Output) (T' : List (Seen C)) (s' : Node C (traced S)) : Prop where
  enduring : Enduring order (T ++ T') s'
  pushed : pushed T' = v.toList
  spends : s.fold.consumer.cancelled = true →
    s'.fold.allowance + v.toList.length ≤ s.fold.allowance

/-- The fold takes a step that does not end it. What it may still push when it was cancelled gets
    less by what it pushes. -/
theorem takes (h : Enduring order T s) (hC : C.Records) {e : Seen C}
    (hs : Combination.Step s.fold e s'.fold) (hd : e.deed.Harmless)
    (ht : Tracked (T ++ [e]) s'.fold s'.feeder)
    (ho : ∀ slot o, s'.outlet = some (.drive, slot) → slot.result = some o → ∃ d, o = .ok d)
    (hb : Bound order s'.result s'.drive) : Endures order T s e.deed.pushes [e] s' where
  enduring := {
    run := h.run.snoc hs
    harmless := fun e' he' => by
      rcases List.mem_append.1 he' with he' | he'
      · exact h.harmless e' he'
      · exact List.mem_singleton.1 he' ▸ hd
    steady := h.steady.step h.kept.held hC hs hd
    tracked := ht
    accepted := ho
    bound := hb }
  pushed := by cases hp : e.deed.pushes <;> simp [Streams.pushed, deeds, hp]
  spends hq := (h.steady.nears hq h.kept.held hs hd).allowance

/-- The fold takes a step of its own. -/
theorem follow (h : Enduring order T s) (hC : C.Records) {e : Seen C} {f : Combination C}
    (hs : Combination.Step s.fold e f) (he : ∀ i x k y, e.deed ≠ .sent i x k y)
    (hd : e.deed.Harmless) {outlet : Option (Agent × Slot Agent Demand)}
    (ho : ∀ slot o, outlet = some (.drive, slot) → slot.result = some o → ∃ d, o = .ok d) :
    Endures order T s e.deed.pushes [e] ({ s with outlet := outlet }.follow e f) :=
  h.takes hC hs hd (h.tracked.direct h.kept hs he) ho h.bound

/-- Something is done to the fold by whoever cancels it. -/
theorem revoke (h : Enduring order T s) (hC : C.Records) {e : Seen C} {f : Combination C}
    (hs : Combination.Step s.fold e f) (he : e.deed.Revokes) :
    Endures order T s none [e] (s.change f) := by
  obtain ⟨hd, hp⟩ := he.harmless
  exact hp ▸ h.takes hC hs hd (h.tracked.revoke h.kept hs he) h.accepted h.bound

/-- An event that is sent is a value, unless the channel is closed. -/
theorem harmless_send (h : Enduring order T s) (i : C.Feeder) (e : Event (C.Input i))
    (hv : s.fold.consumer.channel.completion = none → (s.fold.send i e).1.ended i = false) :
    (s.fold.send i e).2.deed.Harmless := by
  rcases hc : s.fold.consumer.channel.completion with _ | y
  · obtain ⟨y, hd, -⟩ := send_seen s.fold i e
    have hn := hv hc
    -- A completion would have ended the feeder.
    rw [(s.fold.send_unanswered i e).2] at hn
    rw [hd]
    rcases e with v | c
    · trivial
    · simp [Combination.count, isCompletion] at hn
  · rw [h.kept.held.send_closed hc i e]
    cases e <;> trivial

/-- A feeder sends an event, which comes into the channel or is refused. -/
theorem receive (h : Enduring order T s) (hC : C.Records) (hk : Kept order x s)
    (hl : ∀ i, Polite (S i)) {i : C.Feeder} {e : Event (C.Input i)}
    {state : (traced S i).State} (hf : (traced S i).Step (s.feeder i) (.calls e) state)
    (hv : s.fold.consumer.channel.completion = none → (s.fold.send i e).1.ended i = false) :
    Endures order T s none [(s.fold.send i e).2] (s.receive i e state) := by
  obtain ⟨hi, hx⟩ := hk.fed.attached.calls (hl i).traced hf
  obtain ⟨y, hy, -⟩ := send_seen s.fold i e
  have hn : (s.fold.send i e).2.deed.pushes = none := by rw [hy]; rfl
  exact hn ▸ h.takes hC (.send i e hi hx) (h.harmless_send i e hv)
    (h.tracked.receive h.kept hi hf) h.accepted h.bound

/-- The fold is left alone. -/
theorem rest (h : Enduring order T s') (hf : s'.fold = s.fold) :
    Endures order T s none [] s' := by
  refine ⟨(List.append_nil T).symm ▸ h, rfl, fun _ => ?_⟩
  rw [hf]
  exact Nat.le_refl _

/-! ### The downstream -/

/-- The downstream answers, and accepts the completion if it was sent. -/
theorem answer (h : Enduring order T s) (hu : Brittle.Utters m ⟨s, false⟩)
    (hm : m.calling = true) {o : Outcome Demand} (ho : ∀ c, m = .last c → ∃ d, o = .ok d) :
    Enduring order T (s.answer o) := by
  rw [Node.answer]
  rcases hn : s.outlet with _ | ⟨a, slot⟩
  · exact h
  · refine { h with accepted := ?_ }
    rintro _ o' ⟨⟩ hr
    obtain ⟨-, c, -, ha⟩ := hu.pushing hn
    have hmood := ha.mood
    rw [Mood.upon] at hmood
    split at hmood
    · rename_i hs
      have hr : slot.result.orElse (fun _ => some o) = some o' := hr
      rw [hs] at hr
      exact Option.some.inj hr ▸ ho c hmood
    · -- An answer that has come would be the end of the call.
      rw [hmood] at hm
      cases hm

/-- The fold of a combination whose downstream is kind hears that more is wanted. -/
theorem hears (hu : Brittle.Utters m ⟨s, false⟩) (hm : m ≠ .quit)
    {slot slot' : Slot Agent Demand} {w : Option Agent} {o : Outcome Demand}
    (ho : s.outlet = some (.fold, slot)) (hp : slot.poll .fold = (slot', w, .ready o)) :
    o = .ok .more := by
  have hs := hu.spoken
  simp only [ho] at hs
  generalize s.fold.machine.downstreamEnded = ended at hs
  cases hs with
  | value ha =>
    rw [ha.take hp, Mood.hears] at hm
    split at hm
    · exact absurd rfl hm
    · rename_i hd
      exact dismisses_eq_false (Bool.eq_false_iff.2 hd)

/-! ### The drive -/

/-- Who awaits the fold learns that it was cancelled. -/
theorem learns (h : Enduring order T s) (hk : Kept order x s) (hu : Brittle.Utters m ⟨s, false⟩)
    {slot : Slot Agent Final} {w : Option Agent} {o : Outcome Final} (hd : s.drive = .awaitFold)
    (hp : s.final.poll .drive = (slot, w, .ready o)) :
    Bound order s.result (Drive.next order.length .awaitFold o) := by
  have hg := hu.stage
  simp only [hd, Brittle.Stage] at hg
  obtain ⟨hr, -⟩ := Slot.poll_ready hp hg.2.2.1
  rcases hg.2.2.2.2 o hr with ⟨hn, -⟩ | ⟨-, rfl, -⟩
  · cases hn
  · obtain ⟨c, hc⟩ := hk.stopped (by rw [Slot.isComplete, hr]; rfl)
    obtain ⟨-, rfl⟩ := h.steady.consumer.stops c (by rw [hc]; rfl)
    have hx : s.fold.final.completion = some (.failure Fault.cancelled) :=
      h.steady.recorded _ (by rw [hc]; rfl)
    rw [Drive.next, hx]
    split
    · exact bound_awaitFrom (by simp)
    · rfl

/-- Who awaits a feeder finds that it is over, and awaits the next one. -/
theorem leaves (h : Enduring order T s) {k : Nat} {i : C.Feeder} {slot : Slot Agent Demand}
    {w : Option Agent} {o : Outcome Demand} (hd : s.drive.awaits = some k)
    (hi : order[k]? = some i) (hp : (s.result i).poll .drive = (slot, w, .ready o)) :
    Bound order s.result (s.drive.passed order.length) := by
  have hb := h.bound
  cases hs : s.drive with
  | awaitFold | push | settled | cancelFeeder => simp [hs, Drive.awaits] at hd
  | awaitCancelled => simp [hs, Bound] at hb
  | awaitFeeder k' delivered c =>
    rw [hs] at hb hd
    obtain rfl := Option.some.inj hd
    obtain ⟨rfl, ⟨d, rfl⟩, hr⟩ := hb
    exact bound_awaitFrom (complete_take_succ hr hi (Slot.isComplete_ready hp))

/-- The drive goes on, and the fold is left alone. -/
theorem drives (h : Enduring order T s) {d : Drive} {final : Slot Agent Final}
    {outlet : Option (Agent × Slot Agent Demand)} {result : C.Feeder → Slot Agent Demand}
    {finished : Bool} {awake : Agent → Bool}
    (ho : ∀ slot o, outlet = some (.drive, slot) → slot.result = some o → ∃ d, o = .ok d)
    (hb : Bound order result d) : Endures order T s none [] { s with
      drive := d
      final := final
      outlet := outlet
      result := result
      finished := finished
      awake := awake } :=
  rest { h with accepted := ho, bound := hb } rfl

/-- Whatever is done in a combination that was started, nothing but a cancellation ends it, if its
    downstream is kind, and if its feeders send no completion as long as the channel is open. -/
theorem step (h : Enduring order T s) (hk : Kept order x s) (hu : Brittle.Utters m ⟨s, false⟩)
    (hm : m ≠ .quit) (hC : C.Records) (hR : C.Remembers) (hl : ∀ i, Polite (S i))
    (hs : Step order s a s') (hn : s.started = true)
    (hv : s.fold.consumer.channel.completion = none → ∀ i, s'.fold.ended i = false) :
    ∃ T', Endures order T s a.value? T' s' := by
  cases hs with
  | launch ha hs => cases hn.symm.trans hs
  | @fold e f ha hs he =>
    obtain ⟨hn, -⟩ := hs.inward he hR
    obtain ⟨hd, -, hp⟩ := he.harmless
    have hx := h.follow hC hs hn hd h.accepted
    rw [hp] at hx
    exact ⟨_, hx⟩
  | park ha hp => exact ⟨_, rest { h with } rfl⟩
  | @push v ps as f ha ho hs =>
    refine ⟨_, h.follow hC hs (by simp) trivial ?_⟩
    rintro _ o ⟨⟩
  | @reply slot slot' w o v ps as f ha ho hp hs =>
    obtain rfl := hears hu hm ho hp
    refine ⟨_, h.follow hC hs (by simp) rfl ?_⟩
    rintro _ o ⟨⟩
  | stop ha hc => exact ⟨_, h.drives h.accepted h.bound⟩
  | @wait a slot slot' w ha hs ho hp =>
    refine ⟨_, rest { h with accepted := ?_ } rfl⟩
    rintro _ o ⟨⟩ hr
    cases (Slot.poll_pending hp).2.result.symm.trans hr
  | attend ha hs hd hp => exact ⟨_, h.drives h.accepted h.bound⟩
  | learn ha hs hd hp => exact ⟨_, h.drives h.accepted (h.learns hk hu hd hp)⟩
  | complete ha hs hd ho =>
    refine ⟨_, h.drives ?_ h.bound⟩
    rintro _ o ⟨⟩ hr
    cases hr
  | @completed c slot slot' w o ha hs hd ho hp =>
    refine ⟨_, h.drives (by simp) ?_⟩
    obtain ⟨-, c', -, hq⟩ := hu.pushing ho
    obtain ⟨d, rfl⟩ := h.accepted slot o ho (Slot.poll_ready hp hq.untaken).1
    have hb := h.bound
    rw [hd] at hb
    obtain rfl : c = .failure Fault.cancelled := hb
    exact bound_awaitFrom (by simp)
  | dismiss ha hs hd hi =>
    have hb := h.bound
    rw [hd] at hb
    exact hb.elim
  | @linger k i slot w ha hs hd hi hp =>
    exact ⟨_, h.drives h.accepted (h.bound.poll hp)⟩
  | leave ha hs hd hi hp =>
    exact ⟨_, h.drives h.accepted ((h.leaves hd hi hp).poll hp)⟩
  | finish ha hs hd => exact ⟨_, h.drives h.accepted h.bound⟩
  | feeder hs hf => exact ⟨_, rest { h with tracked := h.tracked.mute rfl hf } rfl⟩
  | @receive i e state hs hf => exact ⟨_, h.receive hC hk hl hf fun hc => hv hc i⟩
  | @release i r state hs hf =>
    have hb : Bound order (Function.update s.result i ((s.result i).complete r).1) s.drive :=
      h.bound.mono fun _ => Slot.isComplete_update fun _ => Slot.isComplete_complete _ r
    exact ⟨_, rest { h with
      tracked := h.tracked.mute rfl hf
      bound := hb } rfl⟩

end Enduring

end Node

end ResumeOnce.Network
