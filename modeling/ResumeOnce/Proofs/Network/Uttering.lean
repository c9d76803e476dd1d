import ResumeOnce.Proofs.Network.Conduct
import ResumeOnce.Proofs.Network.Voicing

/-!
# What combinations say

The fold of a combination says the values, until it has ended or has broken down. Then the drive
says the completion, but only if the fold has come to something and was not told to stop.

* `Spoken`: what was said, according to who waits for an answer;
* `Brittle.Stage`, `Brittle.Utters`: what holds of a combination in a mood;
* `Brittle.voice`: a combination keeps to the grammar.
-/

namespace ResumeOnce.Streams.Combination

open Fold (Consumer Turn)

variable {C : Combiner} {s s' : Combination C} {e : Seen C} {v : C.Output} {ps : List C.Right}
  {as : Answers C.Right} {o : Outcome Demand}

theorem Step.sound (hs : Step s e s') (h : s.consumer.Sound) : s'.consumer.Sound := by
  rcases hs.consumer with he | ⟨e', he⟩
  · exact he ▸ h
  · exact he.sound h

/-- Nobody comes to the begin who is not there. -/
theorem Step.of_start (hs : Step s e s') (h : s.consumer.Sound)
    (ht : s'.consumer.turn = .start) : s.consumer.turn = .start := by
  rcases hs.consumer with he | ⟨e', he⟩
  · rw [← he, ht]
  · exact (he.leads h).of_start ht

/-- A tacit step of a fold is neither at its begin nor at an emission. -/
theorem tacit_turn {f f' : Consumer Nat C.Action} (hs : Consumer.Step f .tacit f') :
    f.turn ≠ .start ∧ f.turn ≠ .emit := by
  cases hs with
  | checkpoint ht | read p ht | resume ht | drain ht => exact ⟨ht ▸ nofun, ht ▸ nofun⟩

/-- Without its downstream, a fold does not go on from a value that is downstream, and does not
    make forget, behind its begin, that the downstream has ended it. -/
theorem Step.inwardly (hs : Step s e s') (he : e.deed.Inward) (hC : C.Remembers) :
    (s.consumer.turn = .emit → s.delivering = none) ∧ (s.consumer.turn ≠ .start →
      s'.machine.downstreamEnded = s.machine.downstreamEnded) := by
  cases hs with
  | send i x hi hx =>
    rw [Combination.send] at he
    split at he <;> cases he
  | cancel | close | push | reply => cases he
  | start ht => exact ⟨fun he => (by cases ht.symm.trans he), fun hn => absurd ht hn⟩
  | tacit hf => exact ⟨fun ht => absurd ht (tacit_turn hf).2, fun _ => rfl⟩
  | idle ht hd => exact ⟨fun _ => hd, fun _ => rfl⟩
  | finalize ht => exact ⟨fun he => (by cases ht.symm.trans he), fun _ => hC _ _⟩
  | reduce ht | finish ht | dispose ht =>
    exact ⟨fun he => (by cases ht.symm.trans he), fun _ => rfl⟩

/-- A value is pushed at an emission. -/
theorem Step.pushed_turn (hs : Step s ⟨.pushed v ps, as⟩ s') : s.consumer.turn = .emit ∧
    s'.consumer = s.consumer := by
  generalize he : (⟨.pushed v ps, as⟩ : Seen C) = e at hs
  cases hs with
  | send i x hi hx =>
    rw [Combination.send] at he
    split at he <;> cases he
  | push ht hd hm => exact ⟨ht, rfl⟩
  | _ => cases he

/-- A fold that is told to stop ends its loop, and remembers it. -/
theorem Step.replied_ended (hs : Step s ⟨.replied v ps o, as⟩ s') :
    s'.machine.downstreamEnded = (s.machine.downstreamEnded || Network.dismisses o) ∧
      (Network.dismisses o = true → s'.consumer.turn.completion? ≠ none) := by
  generalize he : (⟨.replied v ps o, as⟩ : Seen C) = e at hs
  cases hs with
  | send i x hi hx =>
    rw [Combination.send] at he
    split at he <;> cases he
  | reply answer ht hd =>
    cases he
    rcases o with f | _ | _
    · exact ⟨rfl, fun _ hx => by cases hx⟩
    · exact ⟨rfl, fun hx => by cases hx⟩
    · exact ⟨rfl, fun _ hx => by cases hx⟩
  | _ => cases he

end ResumeOnce.Streams.Combination

/-! ## Combinations -/

namespace ResumeOnce.Network

open Streams

variable {C : Combiner} {S : (i : C.Feeder) → System (C.Input i)} {order : List C.Feeder}
  {m : Mood}

/-- What was said by a combination, according to who waits for an answer, and to whether the
    fold was told to stop. -/
inductive Spoken (m : Mood) : Option (Agent × Slot Agent Demand) → Bool → Prop
  | free (hm : m = .free) : Spoken m none false
  | quit (hm : m = .quit) : Spoken m none true
  | closed (c : Completion) (hm : m = .closed c) : Spoken m none false
  | value {slot : Slot Agent Demand} (h : Asked .waits m slot) :
      Spoken m (some (.fold, slot)) false
  | completion {slot : Slot Agent Demand} (c : Completion) (h : Asked (.last c) m slot) :
      Spoken m (some (.drive, slot)) false

namespace Brittle

/-- What holds of a combination that breaks down or goes on, according to what its drive is about
    to do. -/
def Stage (m : Mood) (s : Brittle C S) : Drive → Prop
  | .awaitFold => m.completion? = none ∧ s.node.finished = false ∧ s.node.final.taken = false ∧
      (s.node.awake .drive = true ∨ s.node.final.Guards .drive) ∧
      ∀ o, s.node.final.result = some o →
        s.crashed = true ∧ (∃ f, o = .error f) ∨
        s.crashed = false ∧ o = .ok s.node.fold.final ∧ s.node.outlet = none
  | .push c => ∃ f, s.final? = some f ∧ f.downstreamEnded = false ∧
      f.completion.getD .finished = c ∧ (∀ slot, s.node.outlet ≠ some (.fold, slot)) ∧
      (s.node.outlet = none →
        m = .free ∧ s.node.finished = false ∧ s.node.awake .drive = true)
  | .awaitFeeder _ _ _ => s.final?.isSome ∧ s.node.outlet = none ∧ m ≠ .free
  | .settled _ => s.crashed = true ∧ m.completion? = none ∨
      s.final?.isSome ∧ s.node.outlet = none ∧ m ≠ .free
  | .cancelFeeder _ _ | .awaitCancelled _ _ => s.crashed = true ∧ m.completion? = none

/-- What holds of a combination in a mood. -/
structure Utters (m : Mood) (s : Brittle C S) : Prop where
  sound : s.node.fold.consumer.Sound
  spoken : Spoken m s.node.outlet s.node.fold.machine.downstreamEnded
  carried : s.node.fold.delivering.isSome = true ↔ ∃ slot, s.node.outlet = some (.fold, slot)
  emitting : s.node.fold.delivering.isSome = true → s.node.fold.consumer.turn = .emit
  begun : s.node.final.isComplete = false → s.node.fold.consumer.turn = .start → m = .free
  stopped : s.node.fold.machine.downstreamEnded = true →
    s.node.fold.consumer.turn.completion? ≠ none
  started : s.node.final.isComplete = true → s.node.started = true
  broken : s.crashed = true → s.node.final.isComplete = true
  /-- A completion was sent for a fold that has come to it. -/
  concluded : ∀ c, m.completion? = some c → ∃ f, s.final? = some f ∧
    f.downstreamEnded = false ∧ f.completion.getD .finished = c
  stage : Stage m s s.node.drive

variable {s s' : Node C S} {b : Bool}

theorem final?_eq_some {f : Final} : (⟨s, b⟩ : Brittle C S).final? = some f ↔
    s.final.isComplete = true ∧ b = false ∧ s.fold.final = f := by
  simp [final?, and_assoc]

theorem isSome_final? : (⟨s, b⟩ : Brittle C S).final?.isSome = true ↔
    s.final.isComplete = true ∧ b = false := by
  simp [final?]

/-- Combinations that differ neither for their downstream nor for their drive, but that more may
    be started or awake. -/
structure Alike (s s' : Node C S) : Prop where
  sound : s.fold.consumer.Sound → s'.fold.consumer.Sound
  turn : s'.fold.consumer.turn = s.fold.consumer.turn
  delivering : s'.fold.delivering = s.fold.delivering
  machine : s'.fold.machine = s.fold.machine
  outlet : s'.outlet = s.outlet
  final : s'.final = s.final
  drive : s'.drive = s.drive
  finished : s'.finished = s.finished
  started : s.started = true → s'.started = true
  awake : s.awake .drive = true → s'.awake .drive = true

theorem Alike.final? (h : Alike s s') :
    (⟨s', b⟩ : Brittle C S).final? = (⟨s, b⟩ : Brittle C S).final? := by
  simp [Brittle.final?, h.final, Combination.final, h.machine]

namespace Utters

theorem alike (h : Utters m ⟨s, b⟩) (ha : Alike s s') : Utters m ⟨s', b⟩ where
  sound := ha.sound h.sound
  spoken := by
    show Spoken m s'.outlet s'.fold.machine.downstreamEnded
    rw [ha.outlet, ha.machine]
    exact h.spoken
  carried := by
    show s'.fold.delivering.isSome = true ↔ ∃ slot, s'.outlet = some (.fold, slot)
    rw [ha.outlet, ha.delivering]
    exact h.carried
  emitting hd := ha.turn.trans (h.emitting (ha.delivering ▸ hd))
  begun hf ht := h.begun (ha.final ▸ hf) (ha.turn.symm.trans ht)
  stopped he := by
    show s'.fold.consumer.turn.completion? ≠ none
    rw [ha.turn]
    exact h.stopped (by rw [← ha.machine]; exact he)
  started hf := ha.started (h.started (ha.final ▸ hf))
  broken hb := by
    show s'.final.isComplete = true
    rw [ha.final]
    exact h.broken hb
  concluded c hc := by
    rw [ha.final?]
    exact h.concluded c hc
  stage := by
    show Stage m ⟨s', b⟩ s'.drive
    have hg := h.stage
    rw [ha.drive]
    revert hg
    cases s.drive with
    | awaitFold =>
      rintro ⟨hm, hv, ht, hw, hr⟩
      refine ⟨hm, ha.finished.trans hv, ?_, ?_, ?_⟩
      · rw [ha.final]
        exact ht
      · rw [ha.final]
        exact hw.imp_left ha.awake
      · simpa [ha.final, ha.outlet, Combination.final, ha.machine] using hr
    | push c =>
      rintro ⟨f, hf, he, hc, ho, hm⟩
      refine ⟨f, ha.final?.trans hf, he, hc, ?_, fun hn => ?_⟩
      · rw [ha.outlet]
        exact ho
      · obtain ⟨hm, hv, hw⟩ := hm (ha.outlet.symm.trans hn)
        exact ⟨hm, ha.finished.trans hv, ha.awake hw⟩
    | awaitFeeder k o c =>
      rintro ⟨hf, ho, hm⟩
      exact ⟨ha.final? ▸ hf, ha.outlet.trans ho, hm⟩
    | settled r =>
      refine Or.imp_right ?_
      rintro ⟨hf, ho, hm⟩
      exact ⟨ha.final? ▸ hf, ha.outlet.trans ho, hm⟩
    | cancelFeeder | awaitCancelled => exact id

/-! ### The fold -/

theorem alike_change {f : Combination C} {feeder : (i : C.Feeder) → (S i).State}
    (hs : s.fold.consumer.Sound → f.consumer.Sound)
    (ht : f.consumer.turn = s.fold.consumer.turn) (hd : f.delivering = s.fold.delivering)
    (hm : f.machine = s.fold.machine) : Alike s ({ s with feeder := feeder }.change f) where
  sound := hs
  turn := ht
  delivering := hd
  machine := hm
  outlet := rfl
  final := rfl
  drive := rfl
  finished := rfl
  started := id
  awake hw := by simp [Node.change, Node.wake, hw]

/-- The fold is cancelled. -/
theorem cancelFold (h : Utters m ⟨s, b⟩) : Utters m ⟨s.cancelFold, b⟩ := by
  refine Node.cancelFold_of (P := fun s => Utters m ⟨s, b⟩) h (h.alike ?_)
  refine alike_change (fun hs => ?_) (Combination.quit_turn h.sound) rfl rfl
  exact (Fold.Consumer.Step.close _).sound (Fold.Consumer.Step.cancel.sound hs)

/-- As long as the fold goes on, it is awaited. -/
theorem awaits (h : Utters m ⟨s, b⟩) (hf : s.final.isComplete = false) :
    s.drive = .awaitFold ∧ b = false ∧ m.completion? = none ∧ s.finished = false ∧
      s.final.taken = false ∧ (s.awake .drive = true ∨ s.final.Guards .drive) := by
  have hb : b = false := Bool.eq_false_iff.2 fun hb => nomatch hf.symm.trans (h.broken hb)
  have hn : (⟨s, b⟩ : Brittle C S).final?.isSome = false := by simp [Brittle.final?, hf]
  have hg := h.stage
  subst hb
  cases hd : s.drive with
  | awaitFold =>
    simp only [hd, Stage] at hg
    exact ⟨rfl, rfl, hg.1, hg.2.1, hg.2.2.1, hg.2.2.2.1⟩
  | push c =>
    simp only [hd, Stage] at hg
    obtain ⟨f, hf, -⟩ := hg
    simp [hf] at hn
  | awaitFeeder | settled | cancelFeeder | awaitCancelled => simp [hd, Stage, hn] at hg

/-- As long as the fold goes on, nobody but the fold has called the downstream. -/
theorem outlet_fold (h : Utters m ⟨s, b⟩) (hm : m.completion? = none)
    (hd : s.fold.delivering = none) : s.outlet = none := by
  have hp := h.spoken
  have hc := h.carried
  rcases ho : s.outlet with _ | ⟨_ | _, slot⟩
  · rfl
  · simp [ho, hd] at hc
  · simp only [ho] at hp
    generalize s.fold.machine.downstreamEnded = ended at hp
    cases hp with
    | completion c ha => cases hm.symm.trans ha.completion?

/-- The fold goes on, with its downstream or without it. -/
theorem goOn (h : Utters m ⟨s, b⟩) (hf : s.final.isComplete = false) {m' : Mood}
    {f : Combination C} {feeder : (i : C.Feeder) → (S i).State}
    {outlet : Option (Agent × Slot Agent Demand)} (hs : f.consumer.Sound)
    (hp : Spoken m' outlet f.machine.downstreamEnded)
    (hc : f.delivering.isSome = true ↔ ∃ slot, outlet = some (.fold, slot))
    (he : f.delivering.isSome = true → f.consumer.turn = .emit)
    (hb : f.consumer.turn = .start → m' = .free)
    (ht : f.machine.downstreamEnded = true → f.consumer.turn.completion? ≠ none)
    (hm : m'.completion? = none) :
    Utters m' ⟨{ s with outlet := outlet, feeder := feeder }.change f, b⟩ := by
  obtain ⟨hd, rfl, -, hv, hx, hw⟩ := h.awaits hf
  have hr : s.final.result = none := by
    have hi := hf
    rw [Slot.isComplete, hx, Bool.or_false] at hi
    simpa using hi
  exact {
    sound := hs
    spoken := hp
    carried := hc
    emitting := he
    begun := fun _ => hb
    stopped := ht
    started := fun hn => by cases hf.symm.trans hn
    broken := fun hx => by cases hx
    concluded := fun c hn => by cases hm.symm.trans hn
    stage := by
      show Stage m' _ s.drive
      rw [hd]
      refine ⟨hm, hv, hx, hw.imp_left fun hw => ?_, fun o ho => by cases hr.symm.trans ho⟩
      simp [Node.change, Node.wake, hw] }

/-- The fold takes a step without its downstream. -/
theorem follow (h : Utters m ⟨s, b⟩) (hC : C.Remembers) (ha : s.Runs .fold) {e : Seen C}
    {f : Combination C} (hs : Combination.Step s.fold e f) (he : e.deed.Inward) :
    Utters m ⟨s.follow e f, b⟩ := by
  obtain ⟨-, hd, hn⟩ := hs.inward he hC
  obtain ⟨hi, hk⟩ := hs.inwardly he hC
  have hc : s.fold.delivering = none := by
    by_contra hx
    exact hx (hi (h.emitting (Option.isSome_iff_ne_none.2 hx)))
  have hm := (h.awaits ha.2.1).2.2.1
  have ho : s.outlet = none := h.outlet_fold hm hc
  have hend : f.machine.downstreamEnded = s.fold.machine.downstreamEnded := by
    by_cases ht : s.fold.consumer.turn = .start
    · -- At its begin the downstream cannot have ended it.
      have hx : s.fold.machine.downstreamEnded = false :=
        Bool.eq_false_iff.2 fun hx => h.stopped hx (by rw [ht]; rfl)
      rw [hx]
      exact Bool.eq_false_iff.2 fun hf => nomatch hx.symm.trans (hn hf)
    · exact hk ht
  refine h.goOn ha.2.1 (hs.sound h.sound) ?_ ?_ ?_ ?_ ?_ hm
  · rw [hend]
    exact h.spoken
  · rw [hd]
    exact h.carried
  · simp [hd, hc]
  · exact fun ht => h.begun ha.2.1 (hs.of_start h.sound ht)
  · intro hf
    obtain ⟨c, hc⟩ := Option.ne_none_iff_exists'.1 (h.stopped (hend ▸ hf))
    simp [hs.completion? h.sound hc]

/-- The fold pushes a value. -/
theorem push (h : Utters m ⟨s, b⟩) (ha : s.Runs .fold) (ho : s.outlet = none) {v : C.Output}
    {ps : List C.Right} {as : Answers C.Right} {f : Combination C}
    (hs : Combination.Step s.fold ⟨.pushed v ps, as⟩ f) :
    m = .free ∧ Utters .waits ⟨(s.call .fold).follow ⟨.pushed v ps, as⟩ f, b⟩ := by
  obtain ⟨-, hd, hm⟩ := hs.pushed
  obtain ⟨ht, hk⟩ := hs.pushed_turn
  have hn : s.fold.machine.downstreamEnded = false :=
    Bool.eq_false_iff.2 fun hx => h.stopped hx (by rw [ht]; rfl)
  refine ⟨?_, h.goOn ha.2.1 (hk ▸ h.sound) ?_ ?_ ?_ ?_ ?_ rfl⟩
  · have hp := h.spoken
    simp only [ho, hn] at hp
    cases hp with
    | free hm => exact hm
    | closed c hm =>
      have hx := (h.awaits ha.2.1).2.2.1
      rw [hm] at hx
      cases hx
  · rw [hm, hn]
    exact .value (.new _)
  · simp [hd, Node.call]
  · exact fun _ => hk ▸ ht
  · exact fun hx => nomatch (hk ▸ ht).symm.trans hx
  · exact fun hx => nomatch (hm.symm.trans hx).symm.trans hn

/-- The value of the fold is answered. -/
theorem reply (h : Utters m ⟨s, b⟩) (ha : s.Runs .fold) {slot slot' : Slot Agent Demand}
    {w : Option Agent} {o : Outcome Demand} (ho : s.outlet = some (.fold, slot))
    (hp : slot.poll .fold = (slot', w, .ready o)) {v : C.Output} {ps : List C.Right}
    {as : Answers C.Right} {f : Combination C}
    (hs : Combination.Step s.fold ⟨.replied v ps o, as⟩ f) :
    Utters m ⟨{ s with outlet := none }.follow ⟨.replied v ps o, as⟩ f, b⟩ := by
  obtain ⟨ht, -, hd, -⟩ := hs.replied
  obtain ⟨hm, hc⟩ := hs.replied_ended
  have hx := h.spoken
  have hn : s.fold.machine.downstreamEnded = false :=
    Bool.eq_false_iff.2 fun hx => h.stopped hx (by rw [ht]; rfl)
  simp only [ho, hn] at hx
  cases hx with
  | value hq =>
    have hmood := hq.take hp
    rw [hn, Bool.false_or] at hm
    refine h.goOn ha.2.1 (hs.sound h.sound) ?_ (by simp [hd]) (by simp [hd]) ?_ ?_ ?_
    · rw [hm]
      cases hdis : dismisses o
      · exact .free (by rw [hmood, Mood.hears, hdis]; rfl)
      · exact .quit (by rw [hmood, Mood.hears, hdis]; rfl)
    · exact fun hx => by cases ht.symm.trans (hs.of_start h.sound hx)
    · exact fun hx => hc (hm ▸ hx)
    · exact hq.completion?

/-- The fold ends or breaks down, and whoever waits for it is woken. -/
theorem ends (h : Utters m ⟨s, b⟩) (hf : s.final.isComplete = false) (hs : s.started = true)
    {b' : Bool} {r : Outcome Final} (hr : b' = true ∧ (∃ f, r = .error f) ∨
      b' = false ∧ r = .ok s.fold.final ∧ s.outlet = none) :
    Utters m ⟨({ s with final := (s.final.complete r).1 }.wake (s.final.complete r).2).sleep .fold,
      b'⟩ := by
  obtain ⟨hd, rfl, hm, hv, hx, hw⟩ := h.awaits hf
  have hn : s.final.result = none := by
    have hi := hf
    rw [Slot.isComplete, hx, Bool.or_false] at hi
    simpa using hi
  have hc : (s.final.complete r).1 = ⟨some r, false, none⟩ := by
    rw [Slot.complete, Slot.takeWaker, hn, hx]
    rfl
  exact {
    sound := h.sound
    spoken := h.spoken
    carried := h.carried
    emitting := h.emitting
    begun := fun hn => by cases (Slot.isComplete_complete ..).symm.trans hn
    stopped := h.stopped
    started := fun _ => hs
    broken := fun _ => Slot.isComplete_complete ..
    concluded := fun c hn => by cases hm.symm.trans hn
    stage := by
      show Stage m _ s.drive
      rw [hd]
      refine ⟨hm, hv, by rw [Node.sleep, Node.wake, hc], .inl ?_, fun o ho => ?_⟩
      · rcases hw with hw | hg
        · simp [Node.sleep, Node.wake, hw]
        · simp [Node.sleep, Node.wake, hg.complete]
      · rw [Node.sleep, Node.wake, hc] at ho
        obtain rfl := Option.some.inj ho
        exact hr }

/-- The fold ends, and leaves what it comes to. -/
theorem conclude (h : Utters m ⟨s, b⟩) (ha : s.Runs .fold) {c : Completion}
    (hc : s.fold.consumer.turn = .stop c) : Utters m ⟨s.conclude, b⟩ := by
  obtain ⟨-, rfl, hm, -⟩ := h.awaits ha.2.1
  refine h.ends ha.2.1 ha.1 (.inr ⟨rfl, rfl, h.outlet_fold hm ?_⟩)
  by_contra hd
  cases hc.symm.trans (h.emitting (Option.isSome_iff_ne_none.2 hd))

/-! ### Whoever waits for an answer -/

/-- Whoever has called the downstream goes on waiting, or has its answer. -/
theorem respond (h : Utters m ⟨s, b⟩) {a : Agent} {slot slot' : Slot Agent Demand}
    (ho : s.outlet = some (a, slot)) {m' : Mood}
    (hp : Spoken m' (some (a, slot')) s.fold.machine.downstreamEnded)
    (hm : m'.completion? = m.completion?) {awake : Agent → Bool}
    (hw : a = .fold → s.awake .drive = true → awake .drive = true) :
    Utters m' ⟨{ s with outlet := some (a, slot'), awake := awake }, b⟩ := by
  have hc : s.fold.delivering.isSome = true ↔ a = .fold :=
    h.carried.trans (by simp [ho])
  exact {
    sound := h.sound
    spoken := hp
    carried := hc.trans (by simp)
    emitting := h.emitting
    begun := fun hf ht => by
      -- Whoever waits for an answer is not at its begin.
      have hx := (h.awaits hf).2.2.1
      have hn : s.outlet = none := by
        refine h.outlet_fold hx ?_
        by_contra hd
        cases ht.symm.trans (h.emitting (Option.isSome_iff_ne_none.2 hd))
      cases ho.symm.trans hn
    stopped := h.stopped
    started := h.started
    broken := h.broken
    concluded := fun c hx => h.concluded c (hm.symm.trans hx)
    stage := by
      have hg := h.stage
      show Stage m' _ s.drive
      revert hg
      cases hd : s.drive with
      | awaitFold =>
        rintro ⟨hx, hv, ht, hw', hr⟩
        have ha : a = .fold := by
          cases a with
          | fold => rfl
          | drive =>
            generalize s.fold.machine.downstreamEnded = ended at hp
            cases hp with
            | completion c hq => cases (hm.trans hx).symm.trans hq.completion?
        refine ⟨hm.trans hx, hv, ht, hw'.imp_left (hw ha), fun o ho' => ?_⟩
        refine (hr o ho').imp_right ?_
        rintro ⟨-, -, hn⟩
        cases ho.symm.trans hn
      | push c =>
        rintro ⟨f, hf, he, hx, hn, -⟩
        refine ⟨f, hf, he, hx, fun slot'' hs => ?_, nofun⟩
        cases hs
        exact hn slot ho
      | awaitFeeder k o c =>
        rintro ⟨-, hn, -⟩
        cases ho.symm.trans hn
      | settled r =>
        rintro (⟨hb, hx⟩ | ⟨-, hn, -⟩)
        · exact .inl ⟨hb, hm.trans hx⟩
        · cases ho.symm.trans hn
      | cancelFeeder | awaitCancelled => exact fun ⟨hb, hx⟩ => ⟨hb, hm.trans hx⟩ }

/-- Whoever has called its downstream finds no answer. -/
theorem wait (h : Utters m ⟨s, b⟩) {a : Agent} {slot slot' : Slot Agent Demand}
    {w : Option Agent} (ho : s.outlet = some (a, slot))
    (hp : slot.poll a = (slot', w, .pending)) :
    Utters m ⟨{ s with outlet := some (a, slot') }.sleep a, b⟩ := by
  refine h.respond ho ?_ rfl fun ha hw => ?_
  · have hs := h.spoken
    simp only [ho] at hs
    generalize s.fold.machine.downstreamEnded = ended at hs
    cases hs with
    | value ha => exact .value (ha.wait hp)
    | completion c ha => exact .completion c (ha.wait hp)
  · simp [ha, hw]

/-- The downstream answers. -/
theorem answer (h : Utters m ⟨s, b⟩) (hm : m.calling = true) (o : Outcome Demand) :
    Utters (m.hears o) ⟨s.answer o, b⟩ := by
  have hs := h.spoken
  simp only at hs
  rw [Node.answer]
  rcases ho : s.outlet with _ | ⟨a, slot⟩
  · rw [ho] at hs
    generalize s.fold.machine.downstreamEnded = ended at hs
    cases hs with
    | free hx | quit hx | closed c hx =>
      rw [hx] at hm
      cases hm
  · refine h.respond ho ?_ (Mood.completion?_hears o m) fun _ hw => by simp [hw]
    rw [ho] at hs
    generalize s.fold.machine.downstreamEnded = ended at hs
    cases hs with
    | value ha => exact .value (ha.answer hm o)
    | completion c ha => exact .completion c (ha.answer hm o)

/-! ### The drive -/

/-- The drive goes on, and the fold is not concerned. -/
theorem drives (h : Utters m ⟨s, b⟩) {m' : Mood} (hk : s'.fold = s.fold)
    (hs : s'.started = s.started) (hc : s'.final.isComplete = s.final.isComplete)
    (ho : ∀ slot, s'.outlet = some (.fold, slot) ↔ s.outlet = some (.fold, slot))
    (hp : Spoken m' s'.outlet s.fold.machine.downstreamEnded)
    (hm : s.final.isComplete = false → m' = m)
    (hf : ∀ c, m'.completion? = some c → ∃ f, (⟨s, b⟩ : Brittle C S).final? = some f ∧
      f.downstreamEnded = false ∧ f.completion.getD .finished = c)
    (hg : Stage m' ⟨s', b⟩ s'.drive) : Utters m' ⟨s', b⟩ where
  sound := by
    show s'.fold.consumer.Sound
    rw [hk]
    exact h.sound
  spoken := by
    show Spoken m' s'.outlet s'.fold.machine.downstreamEnded
    rw [hk]
    exact hp
  carried := by
    show s'.fold.delivering.isSome = true ↔ ∃ slot, s'.outlet = some (.fold, slot)
    rw [hk, exists_congr ho]
    exact h.carried
  emitting := by
    show s'.fold.delivering.isSome = true → s'.fold.consumer.turn = .emit
    rw [hk]
    exact h.emitting
  begun := by
    show s'.final.isComplete = false → s'.fold.consumer.turn = .start → m' = .free
    rw [hk, hc]
    exact fun hf ht => (hm hf).trans (h.begun hf ht)
  stopped := by
    show s'.fold.machine.downstreamEnded = true → s'.fold.consumer.turn.completion? ≠ none
    rw [hk]
    exact h.stopped
  started := by
    show s'.final.isComplete = true → s'.started = true
    rw [hc, hs]
    exact h.started
  broken hb := hc.trans (h.broken hb)
  concluded c hx := by
    have hq : (⟨s', b⟩ : Brittle C S).final? = (⟨s, b⟩ : Brittle C S).final? := by
      simp [Brittle.final?, hc, hk]
    rw [hq]
    exact hf c hx
  stage := hg

/-- Who awaits the feeders has come to something, and has nothing more to say. -/
theorem stage_awaitFrom {n k : Nat} {o : Outcome Demand} {c : Completion}
    (hf : (⟨s, b⟩ : Brittle C S).final?.isSome = true) (ho : s.outlet = none) (hm : m ≠ .free) :
    Stage m ⟨s, b⟩ (.awaitFrom n k o c) := by
  rw [Drive.awaitFrom]
  split
  · exact ⟨hf, ho, hm⟩
  · exact .inr ⟨hf, ho, hm⟩

theorem stage_cancelFrom {n k : Nat} {f : Fault} (hm : m.completion? = none) :
    Stage m (⟨s, true⟩ : Brittle C S) (.cancelFrom n k f) := by
  rw [Drive.cancelFrom]
  split
  · exact ⟨rfl, hm⟩
  · exact .inl ⟨rfl, hm⟩

/-- Who awaits the fold finds nothing, and leaves its waker. -/
theorem attend (h : Utters m ⟨s, b⟩) {slot : Slot Agent Final} {w : Option Agent}
    (hd : s.drive = .awaitFold) (hp : s.final.poll .drive = (slot, w, .pending)) :
    Utters m ⟨{ s with final := slot }.sleep .drive, b⟩ := by
  obtain ⟨-, hg⟩ := Slot.poll_pending hp
  refine h.drives rfl rfl (Slot.isComplete_poll hp) (fun _ => .rfl) h.spoken (fun _ => rfl)
    h.concluded ?_
  have hq := h.stage
  simp only [hd, Stage] at hq
  show Stage m _ s.drive
  rw [hd]
  exact ⟨hq.1, hq.2.1, hg.taken, .inr hg, fun o ho => nomatch hg.result.symm.trans ho⟩

/-- Who awaits the fold learns what it has come to, or that it broke down. -/
theorem learn (h : Utters m ⟨s, b⟩) (ha : s.Runs .drive) {slot : Slot Agent Final}
    {w : Option Agent} {o : Outcome Final} (hd : s.drive = .awaitFold)
    (hp : s.final.poll .drive = (slot, w, .ready o)) {n : Nat} :
    Utters m ⟨{ s with final := slot, drive := Drive.next n .awaitFold o }, b⟩ := by
  have hc := Slot.isComplete_poll hp
  refine h.drives rfl rfl hc (fun _ => .rfl) h.spoken (fun _ => rfl) h.concluded ?_
  have hq := h.stage
  simp only [hd, Stage] at hq
  obtain ⟨hm, hv, ht, -, hr⟩ := hq
  obtain ⟨hr', rfl⟩ := Slot.poll_ready hp ht
  rcases hr o hr' with ⟨rfl, f, rfl⟩ | ⟨rfl, rfl, ho⟩
  · exact stage_cancelFrom hm
  · have hs := h.spoken
    simp only [ho] at hs
    have hf : s.final.isComplete = true := by rw [Slot.isComplete, hr']; rfl
    rw [Drive.next]
    split
    · rename_i he
      refine stage_awaitFrom (isSome_final?.2 ⟨rfl, rfl⟩) ho ?_
      rw [show s.fold.machine.downstreamEnded = true from he] at hs
      cases hs with
      | quit hm =>
        subst hm
        exact fun hx => by cases hx
    · rename_i he
      have he : s.fold.machine.downstreamEnded = false := Bool.eq_false_iff.2 he
      refine ⟨s.fold.final, final?_eq_some.2 ⟨rfl, rfl, rfl⟩, he, rfl, by simp [ho], fun _ => ?_⟩
      rw [he] at hs
      cases hs with
      | free hm => exact ⟨hm, hv, ha.2⟩
      | closed c hx =>
        rw [hx] at hm
        cases hm

/-- The completion is pushed. -/
theorem complete (h : Utters m ⟨s, b⟩) {c : Completion} (hd : s.drive = .push c)
    (ho : s.outlet = none) : m = .free ∧ Utters (.last c) ⟨s.call .drive, b⟩ := by
  have hq := h.stage
  simp only [hd, Stage] at hq
  obtain ⟨f, hf, he, hc, hn, hm⟩ := hq
  obtain ⟨hfc, -, rfl⟩ := final?_eq_some.1 hf
  refine ⟨(hm ho).1, h.drives rfl rfl rfl (by simp [Node.call, ho]) ?_ ?_ ?_ ?_⟩
  · rw [show s.fold.machine.downstreamEnded = false from he]
    exact .completion c (.new _)
  · exact fun hx => nomatch hx.symm.trans hfc
  · rintro _ ⟨⟩
    exact ⟨_, hf, he, hc⟩
  · show Stage _ _ s.drive
    rw [hd]
    exact ⟨_, hf, he, hc, by simp [Node.call], nofun⟩

/-- Only who pushes its completion has called the downstream, but for the fold. -/
theorem pushing (h : Utters m ⟨s, b⟩) {slot : Slot Agent Demand}
    (ho : s.outlet = some (.drive, slot)) : s.fold.machine.downstreamEnded = false ∧
      ∃ c, s.drive = .push c ∧ Asked (.last c) m slot := by
  have hs := h.spoken
  simp only [ho] at hs
  generalize hend : s.fold.machine.downstreamEnded = ended at hs ⊢
  cases hs with
  | completion c ha =>
    refine ⟨rfl, c, ?_, ha⟩
    have hm : m.completion? = some c := ha.completion?
    obtain ⟨f, hf, -, hc⟩ := h.concluded c hm
    have hq := h.stage
    revert hq
    cases hd : s.drive with
    | push c' =>
      rintro ⟨f', hf', -, hc', -⟩
      cases hf.symm.trans hf'
      rw [← hc, hc']
    | awaitFold => exact fun hq => nomatch hm.symm.trans hq.1
    | awaitFeeder => exact fun hq => nomatch ho.symm.trans hq.2.1
    | settled =>
      rintro (⟨-, hx⟩ | ⟨-, hn, -⟩)
      · exact nomatch hm.symm.trans hx
      · exact nomatch ho.symm.trans hn
    | cancelFeeder | awaitCancelled => exact fun hq => nomatch hm.symm.trans hq.2

/-- The completion is answered. -/
theorem completed (h : Utters m ⟨s, b⟩) {c : Completion} {slot slot' : Slot Agent Demand}
    {w : Option Agent} {o : Outcome Demand} (hd : s.drive = .push c)
    (ho : s.outlet = some (.drive, slot)) (hp : slot.poll .drive = (slot', w, .ready o))
    {n : Nat} :
    Utters m ⟨{ s with outlet := none, drive := Drive.next n (.push c) o }, b⟩ := by
  obtain ⟨he, c', hc, ha⟩ := h.pushing ho
  cases hd.symm.trans hc
  have hm : m = .closed c := ha.take hp
  have hq := h.stage
  simp only [hd, Stage] at hq
  obtain ⟨f, hf, -⟩ := hq
  refine h.drives rfl rfl rfl (by simp [ho]) ?_ (fun _ => rfl) h.concluded ?_
  · rw [he]
    exact .closed c hm
  · exact stage_awaitFrom (isSome_final?.2 ((final?_eq_some.1 hf).imp_right And.left)) rfl
      (hm ▸ nofun)

/-- Who awaits a feeder, or cancels it, goes on. -/
theorem leave (h : Utters m ⟨s, b⟩) {k n : Nat} (hd : s.drive.awaits = some k)
    {result : C.Feeder → Slot Agent Demand} :
    Utters m ⟨{ s with result := result, drive := s.drive.passed n }, b⟩ := by
  refine h.drives rfl rfl rfl (fun _ => .rfl) h.spoken (fun _ => rfl) h.concluded ?_
  have hq := h.stage
  show Stage m _ (s.drive.passed n)
  revert hq
  cases hs : s.drive with
  | awaitFold | push | settled | cancelFeeder => simp [hs, Drive.awaits] at hd
  | awaitCancelled i f =>
    rintro ⟨hb, hm⟩
    obtain rfl : b = true := hb
    exact stage_cancelFrom hm
  | awaitFeeder i o c =>
    rintro ⟨hf, ho, hm⟩
    exact stage_awaitFrom hf ho hm

/-- A drive that awaits a feeder may sleep. -/
theorem linger (h : Utters m ⟨s, b⟩) {k : Nat} (hd : s.drive.awaits = some k)
    {result : C.Feeder → Slot Agent Demand} :
    Utters m ⟨{ s with result := result }.sleep .drive, b⟩ := by
  refine h.drives rfl rfl rfl (fun _ => .rfl) h.spoken (fun _ => rfl) h.concluded ?_
  have hq := h.stage
  show Stage m _ s.drive
  revert hq
  cases hs : s.drive with
  | awaitFold | push | settled | cancelFeeder => simp [hs, Drive.awaits] at hd
  | awaitCancelled | awaitFeeder => exact id

/-- A feeder of a fold that broke down is cancelled. -/
theorem dismiss (h : Utters m ⟨s, b⟩) {k n : Nat} {f : Fault} (hd : s.drive = .cancelFeeder k f)
    {feeder : (i : C.Feeder) → (S i).State} :
    Utters m ⟨{ s with feeder := feeder, drive := Drive.next n (.cancelFeeder k f) () }, b⟩ := by
  refine h.drives rfl rfl rfl (fun _ => .rfl) h.spoken (fun _ => rfl) h.concluded ?_
  have hq := h.stage
  simp only [hd, Stage] at hq
  exact hq

/-- The drive ends. -/
theorem finish (h : Utters m ⟨s, b⟩) {r : Outcome Demand} (hd : s.drive = .settled r) :
    Utters m ⟨{ s with finished := true }.sleep .drive, b⟩ := by
  refine h.drives rfl rfl rfl (fun _ => .rfl) h.spoken (fun _ => rfl) h.concluded ?_
  have hq := h.stage
  show Stage m _ s.drive
  rw [hd] at hq ⊢
  exact hq

/-- The drive breaks down as it pushes the completion. -/
theorem collapse (h : Utters m ⟨s, b⟩) {slot : Slot Agent Demand}
    (ho : s.outlet = some (.drive, slot)) : Utters m (collapse ⟨s, b⟩) := by
  obtain ⟨-, c, hd, -⟩ := h.pushing ho
  refine h.drives rfl rfl rfl (fun _ => .rfl) h.spoken (fun _ => rfl) h.concluded ?_
  have hq := h.stage
  show Stage m _ s.drive
  simp only [hd, Stage] at hq ⊢
  obtain ⟨f, hf, he, hc, hn, -⟩ := hq
  exact ⟨f, hf, he, hc, hn, fun hx => nomatch ho.symm.trans hx⟩

/-! ### Every step -/

theorem new (C : Combiner) (S : (i : C.Feeder) → System (C.Input i)) :
    Utters .free (⟨.new C S, false⟩ : Brittle C S) where
  sound := Fold.Consumer.sound_new _
  spoken := .free rfl
  carried := by simp [Node.new, Combination.new]
  emitting := nofun
  begun _ _ := rfl
  stopped := nofun
  started := nofun
  broken := nofun
  concluded := nofun
  stage := ⟨rfl, rfl, rfl, .inl rfl, nofun⟩

/-- The tasks of a combination and its feeders go on, and nobody calls the downstream. -/
theorem step (h : Utters m ⟨s, b⟩) (hC : C.Remembers) {a : Move C.Output}
    (hs : Node.Step order s a s') (ha : ∀ e, a ≠ .calls e) : Utters m ⟨s', b⟩ := by
  cases hs with
  | launch hr hs =>
    have hk : Utters m ⟨{ s with started := true }, b⟩ :=
      h.alike ⟨id, rfl, rfl, rfl, rfl, rfl, rfl, rfl, fun _ => rfl, id⟩
    exact Node.launch_of (P := fun s => Utters m ⟨s, b⟩) hk fun _ => cancelFold
  | fold hr hs he => exact h.follow hC hr hs he
  | park hr hp =>
    exact h.alike ⟨id, rfl, rfl, rfl, rfl, rfl, rfl, rfl, id, fun hw => by simp [Node.sleep, hw]⟩
  | push | complete => exact absurd rfl (ha _)
  | reply hr ho hp hs => exact h.reply hr ho hp hs
  | stop hr hc => exact h.conclude hr hc
  | wait hr hs ho hp => exact h.wait ho hp
  | attend hr hs hd hp => exact h.attend hd hp
  | learn hr hs hd hp => exact h.learn hr hd hp
  | completed hr hs hd ho hp => exact h.completed hd ho hp
  | dismiss hr hs hd hi => exact h.dismiss hd
  | linger hr hs hd hi hp => exact h.linger hd
  | leave hr hs hd hi hp => exact h.leave hd
  | finish hr hs hd => exact h.finish hd
  | feeder hs hf => exact h.alike ⟨id, rfl, rfl, rfl, rfl, rfl, rfl, rfl, id, id⟩
  | @receive i e state hs hf =>
    obtain ⟨hd, hm⟩ := s.fold.send_delivering i e
    exact h.alike (alike_change (fun hs => (Combination.send_step s.fold i e).sound hs)
      (Combination.send_turn h.sound i e) hd hm)
  | release hs hf =>
    exact h.alike ⟨id, rfl, rfl, rfl, rfl, rfl, rfl, rfl, id, fun hw => by
      simp [Node.release, Node.wake, hw]⟩

end Utters

/-- A combination keeps to the grammar, whatever its feeders do and whatever breaks down. -/
theorem voice (hC : C.Remembers) (order : List C.Feeder) :
    Voice (System.brittle C S order) fun m s => Utters m s where
  start := .new C S
  silent {m s a s'} h hs ha := by
    obtain ⟨s, b⟩ := s
    cases hs with
    | work hs => exact h.step hC hs ha
    | crash f hs hf => exact h.ends hf hs (.inl ⟨rfl, f, rfl⟩)
    | forget r o hb => exact h.alike ⟨id, rfl, rfl, rfl, rfl, rfl, rfl, rfl, id, id⟩
    | collapse f hr ho => exact h.collapse ho
  calls {m s e s'} h hs := by
    obtain ⟨s, b⟩ := s
    cases hs with
    | work hs =>
      cases hs with
      | push hr ho hs => exact h.push hr ho hs
      | complete hr hs hd ho => exact h.complete hd ho
  answer {m s} o h hm := h.answer hm o
  cancel {m s} h := by
    obtain ⟨s, b⟩ := s
    have hc : Utters m ⟨{ s with cancelled := true }, b⟩ :=
      h.alike ⟨id, rfl, rfl, rfl, rfl, rfl, rfl, rfl, id, id⟩
    exact Node.cancel_of (P := fun s => Utters m ⟨s, b⟩) h hc fun _ => Utters.cancelFold

end Brittle

end ResumeOnce.Network
