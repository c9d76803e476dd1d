import ResumeOnce.Proofs.Fold.Relabelling
import ResumeOnce.Proofs.Reactor.Folding
import ResumeOnce.Proofs.Reactor.Guise
import ResumeOnce.Proofs.Streams.Custody

/-!
# A combination in the world

The frame of a fold that combines streams, together with its channel in the world, looks
like a combination in the guise of its combiner. Whatever the frame does at a turn of its
own, whatever it does behind an answer, and whatever is done to its channel is a step of
that combination, with the answers that it gives; and so the theorems on combinations tell
of the combinations in the world.

The rights to answer are numbered as they are made. Which number a right gets is told in
advance, for the whole run.

* `Shows`, `shows_new`: a frame in a world looks like a combination;
* `enter_shows`, `cancel_shows`, `close_shows`: what others do to a combination;
* `Goes`, `stepFold_goes`: a turn of a combination is a step of it, by one lemma for each turn;
* `stepFold_never_crashes`: no event of feeders that keep to the rules crashes it;
* `stepFold_finalizes`: the turn at which it lets its feeders go is a step, too;
* `stepFoldAnswer_resumes`, `stepFoldAnswer_replies`: so is the answer that it waited for.
-/

namespace ResumeOnce.Reactor

open Fold (Consumer Turn)
open Streams (Combiner Delivery Seen settlement)

variable {C : Combiner} {G : Guise C} {num : C.Right → Nat} {env : Env} {w w' : World}
  {run : FoldRun} {s : Streams.Combination C} {stepped : Stepped}
  {awaited : Option (Nat × Option (Outcome Cargo))}

/-- How far the emission of a combination is, given the value that is downstream. -/
def emittingOf (num : C.Right → Nat) : Option (C.Output × List C.Right) → Emitting
  | none => .idle
  | some (_, ps) => .delivering (ps.map num)

/-- The frame of a fold in a world looks like a combination, given the numbers of the rights. -/
structure Shows (G : Guise C) (num : C.Right → Nat) (run : FoldRun) (w : World)
    (awaited : Option (Nat × Option (Outcome Cargo))) (s : Streams.Combination C) : Prop where
  folder : ∃ d fs, run.folder = .combining G.isZip d fs ∧ fs.length = Fintype.card C.Feeder
  consumer : run.consumer w awaited = s.consumer.map (G.cargo num)
  /-- The state is made at the first turn. -/
  state : s.consumer.turn ≠ .start → run.state = G.state num s.machine
  emitting : run.emitting = emittingOf num s.delivering

namespace Shows

theorem turn (h : Shows G num run w awaited s) : run.turn = s.consumer.turn.map (G.cargo num) :=
  congrArg Consumer.turn h.consumer

theorem awaits (h : Shows G num run w none s) : s.consumer.awaited = none :=
  Option.map_eq_none_iff.1 (congrArg Consumer.awaited h.consumer).symm

/-- Nothing is seen of what no fold notices. -/
theorem same (h : Shows G num run w awaited s) (hw : Same w w') : Shows G num run w' awaited s :=
  { h with consumer := (hw.consumer run awaited).trans h.consumer }

/-- Who has still to be answered is seen at the feeders alone. -/
theorem tell (h : Shows G num run w awaited s) (as : Streams.Answers C.Right) :
    Shows G num run w awaited (s.tell as) :=
  ⟨h.folder, h.consumer, h.state, h.emitting⟩

theorem count (h : Shows G num run w awaited s) (i : C.Feeder) (e : Event (C.Input i)) :
    Shows G num run w awaited (s.count i e) :=
  ⟨h.folder, h.consumer, h.state, h.emitting⟩

/-- The consumer has gone on, and nothing else. -/
theorem goOn (h : Shows G num run w awaited s) {turn : Turn Cargo} {f : Consumer Nat C.Action}
    {awaited' : Option (Nat × Option (Outcome Cargo))}
    (hc : ({ run with turn } : FoldRun).consumer w' awaited' = f.map (G.cargo num))
    (ht : s.consumer.turn ≠ .start) :
    Shows G num { run with turn } w' awaited' { s with consumer := f } :=
  ⟨h.folder, hc, fun _ => h.state ht, h.emitting⟩

/-- An operation has changed the channel. -/
theorem exchange (h : Shows G num run w awaited s) {e : Exchanged Nat C.Action β}
    {awaited' : Option (Nat × Option (Outcome Cargo))}
    (hc : run.consumer w' awaited' = (s.consumer.exchange e).map (G.cargo num)) :
    Shows G num run w' awaited' { s with consumer := s.consumer.exchange e } := by
  refine ⟨h.folder, hc, fun ht => h.state ?_, h.emitting⟩
  rwa [Consumer.exchange_eq] at ht

end Shows

/-- A fold over a new channel looks like a combination at its begin, with the room that the channel
    has. -/
theorem shows_new {n token : Nat} {d : Downstream} {fs : List Nat} {b : Buffering}
    (hc : (w.channels.getD n default).channel = .new b)
    (hl : (w.lifecycles.getD token default).status ≠ .cancelled)
    (hn : fs.length = Fintype.card C.Feeder) :
    Shows G num ⟨n, .combining G.isZip d fs, .unstarted, token, .start, .idle⟩ w none
      { Streams.Combination.new C with consumer := .new b } := by
  refine ⟨⟨d, fs, rfl, hn⟩, ?_, fun ht => absurd rfl ht, rfl⟩
  rw [FoldRun.consumer, hc, decide_eq_false hl]
  rfl

/-! ## What others do -/

/-- The number of a new right to answer is the first that is free, and no fold notices it. -/
theorem newResumption_on {policy : LeakPolicy} {party slot : Nat}
    (hw : w.circumstances.isShutdown = false)
    (h : (newResumption policy).on w = (.ok (party, slot), w')) :
    party = w.resumptions.size ∧ Same w w' := by
  have hs := (quiet_newResumption policy).same hw h
  cases h
  exact ⟨rfl, hs⟩

/-- An event is written with a new right to answer it; what else is done no fold notices. -/
theorem enter_on {n : Nat} {inlet : Inlet} {e : Event Datum} {slot : Nat}
    (hw : w.circumstances.isShutdown = false)
    (he : (enter env n inlet e).on w = (.ok slot, w')) : ∃ w₁ w₂ r, Same w w₁ ∧
      (tryWrite env n (inlet.cargo e w.resumptions.size)).on w₁ = (.ok r, w₂) ∧
        (w₂.circumstances.isShutdown = false → Same w₂ w') := by
  obtain ⟨policy, _, hp, he⟩ := on_bind_ok he
  cases hp
  obtain ⟨⟨sender, slot'⟩, w₁, hr, he⟩ := on_bind_ok he
  obtain ⟨rfl, hw₁⟩ := newResumption_on hw hr
  obtain ⟨r, w₂, ht, he⟩ := on_bind_ok he
  refine ⟨w₁, w₂, r, hw₁, ht, fun hw₂ => ?_⟩
  cases r with
  | refused refusal =>
    obtain ⟨_, w₃, ha, he⟩ := on_bind_ok he
    cases he
    exact (quiet_answerAll _).same hw₂ ha
  | handed =>
    cases he
    exact .refl _
  | queued =>
    cases he
    exact .refl _

/-- An event that enters the channel of a combination is sent by its feeder. -/
theorem enter_shows (h : Shows G num run w awaited s) {i : C.Feeder} {e : Event Datum} {slot : Nat}
    (hn : num (i, s.sent i) = w.resumptions.size) (hw : w.circumstances.isShutdown = false)
    (hb : run.channel < w.channels.size)
    (he : (enter env run.channel (G.inlet i) e).on w = (.ok slot, w')) :
    ∃ awaited', Shows G num run w' awaited' (s.send i (e.map (G.input i))).1 := by
  obtain ⟨w₁, w₂, r, hw₁, ht, hs⟩ := enter_on hw he
  rw [← hn, G.cargo_inlet] at ht
  obtain ⟨rfl, hw₂, awaited', hc⟩ := consumer_exchange (hw₁.shutdown.trans hw)
    (by rwa [hw₁.channels]) ht ((hw₁.consumer run awaited).trans h.consumer)
  rw [Consumer.write_map] at hc
  have hx := (h.count i (e.map (G.input i))).exchange hc
  refine ⟨awaited', Shows.same ?_ (hs hw₂)⟩
  rw [Streams.Combination.send]
  split
  · exact hx.tell _
  · exact hx

/-- The fold is cancelled. -/
theorem cancel_shows (h : Shows G num run w awaited s) {l : Lifecycle Hook}
    (hl : l.status = .cancelled) (hb : run.token < w.lifecycles.size)
    (hs : (setLifecycle run.token l).on w = (.ok (), w')) :
    Shows G num run w' awaited { s with consumer := { s.consumer with cancelled := true } } := by
  refine ⟨h.folder, ?_, h.state, h.emitting⟩
  cases hs
  change ({ run.consumer w awaited with cancelled := _ } : Consumer Nat Cargo) =
    { s.consumer.map (G.cargo num) with cancelled := true }
  rw [h.consumer]
  simp [hb, hl]

/-- Its channel is closed. -/
theorem close_shows (h : Shows G num run w awaited s) {c : Completion} {r : Bool}
    (hw : w.circumstances.isShutdown = false) (hb : run.channel < w.channels.size)
    (he : (exchange env run.channel (·.close c)).on w = (.ok r, w')) :
    ∃ awaited', Shows G num run w' awaited' { s with
      consumer := s.consumer.exchange (s.consumer.channel.close c) } := by
  obtain ⟨-, -, awaited', hc⟩ := consumer_exchange hw hb he h.consumer
  rw [Consumer.close_map] at hc
  exact ⟨awaited', h.exchange hc⟩

/-- What happens to another channel is not seen. -/
theorem exchange_elsewhere {n : Nat} {op : Channel Nat Cargo → Exchanged Nat Cargo β} {b : β}
    (h : Shows G num run w awaited s) (hn : n ≠ run.channel)
    (hw : w.circumstances.isShutdown = false) (he : (exchange env n op).on w = (.ok b, w')) :
    Shows G num run w' awaited s ∧ w'.circumstances.isShutdown = false := by
  obtain ⟨-, hs⟩ := exchange_on hw he
  refine ⟨Shows.same { h with consumer := ?_ } hs, hs.shutdown.trans hw⟩
  rw [← h.consumer]
  simp [FoldRun.consumer, Array.getElem?_modify, hn]

/-- The downstream of a combination is not the combination itself. -/
theorem push_shows {d : Downstream} {e : Event Datum} {child : Frame}
    (h : Shows G num run w awaited s) (hd : d.channel? ≠ some run.channel)
    (hw : w.circumstances.isShutdown = false) (hp : (push env d e).on w = (.ok child, w')) :
    Shows G num run w' awaited s := by
  induction d generalizing e with
  | sink n =>
    cases hp
    exact h
  | channel n inlet =>
    obtain ⟨slot, _, hp, he⟩ := on_bind_ok hp
    cases he
    obtain ⟨w₁, w₂, r, hw₁, ht, hs⟩ := enter_on hw hp
    obtain ⟨h₂, hw₂⟩ := exchange_elsewhere (h.same hw₁) (fun hn => hd (congrArg some hn))
      (hw₁.shutdown.trans hw) ht
    exact h₂.same (hs hw₂)
  | flattened inner ih => exact ih hd hp

/-! ## The turns of a combination -/

/-- What a combination does at a turn of its own: it goes on, waits for the answer to a read,
    pushes a value, crashes by an event against the rules, or ends. The answers that it gives are
    given to the senders of that number. -/
inductive Goes (G : Guise C) (num : C.Right → Nat) (env : Env) (run : FoldRun) (w w' : World)
    (s : Streams.Combination C) : Stepped → Prop
  | again (run' : FoldRun) (e : Seen C) (s' : Streams.Combination C)
      (hc : run'.channel = run.channel) (ht : run'.token = run.token)
      (hs : Streams.Combination.Step s e s') (h : Shows G num run' w' none s')
      (ha : e.answers = [] ∨ (answerAll env (e.answers.rename num)).on w = (.ok (), w')) :
      Goes G num env run w w' s (.again (.fold run'))
  | waits (party slot : Nat) (s' : Streams.Combination C)
      (hs : Streams.Combination.Step s ⟨.tacit, []⟩ s')
      (h : Shows G num run w' (some (party, none)) s') :
      Goes G num env run w w' s (.call (.fold run) (.waiting slot .waiter))
  | pushes (run' : FoldRun) (child : Frame) (v : C.Output) (ps : List C.Right)
      (s' : Streams.Combination C) (hc : run'.channel = run.channel) (ht : run'.token = run.token)
      (hs : Streams.Combination.Step s ⟨.pushed v ps, []⟩ s') (h : Shows G num run' w' none s') :
      Goes G num env run w w' s (.call (.fold run') child)
  | crashes (run' : FoldRun) (x : C.Action) (v : Streams.Violation C.Right)
      (ht : s.consumer.turn = .reduce x) (hv : C.reduce s.machine.current x = .error v) :
      Goes G num env run w w' s (.crash (.fold run') (v.abandoned.map num) v.message)
  | stops (c : Completion) (ht : s.consumer.turn = .stop c) :
      Goes G num env run w w' s
        (.done (.ok (.final ⟨s.machine.completion, s.machine.downstreamEnded⟩)))

namespace Shows

/-- A combination begins with the machine of its combiner. -/
theorem start_goes (h : Shows G num run w none s) (ht : s.consumer.turn = .start)
    (hs : (stepFold env run).on w = (.ok stepped, w')) : Goes G num env run w w' s stepped := by
  obtain ⟨d, fs, hf, hn⟩ := h.folder
  have hr := h.turn
  rw [ht] at hr
  simp only [stepFold, hr, Turn.map, hf, G.startState_eq env _ d fs num hn] at hs
  cases hs
  refine .again _ _ _ rfl rfl (.start ht) ?_ (.inl rfl)
  refine ⟨⟨d, fs, rfl, hn⟩, ?_, fun _ => rfl, h.emitting⟩
  exact congrArg (Consumer.goOn · (Turn.next .start ())) h.consumer

theorem checkpoint_goes (h : Shows G num run w none s) (ht : s.consumer.turn = .checkpoint)
    (hs : (stepFold env run).on w = (.ok stepped, w')) : Goes G num env run w w' s stepped := by
  have hr := h.turn
  rw [ht] at hr
  obtain ⟨rfl, rfl⟩ := stepFold_checkpoint hr hs
  have hc : (run.consumer w' none).checkpoint = s.consumer.checkpoint :=
    congrArg Consumer.checkpoint h.consumer
  refine .again _ _ _ rfl rfl (.tacit (.checkpoint ht)) (h.goOn ?_ (by simp [ht])) (.inl rfl)
  rw [hc, ← Consumer.goOn_map, Turn.next_checkpoint_map]
  exact congrArg (Consumer.goOn · _) h.consumer

theorem read_goes (h : Shows G num run w none s) (ht : s.consumer.turn = .read)
    (hw : w.circumstances.isShutdown = false) (hb : run.channel < w.channels.size)
    (hs : (stepFold env run).on w = (.ok stepped, w')) : Goes G num env run w w' s stepped := by
  have hr := h.turn
  rw [ht] at hr
  obtain ⟨party, ⟨turn, rfl, hc⟩ | ⟨slot, rfl, hc⟩⟩ := stepFold_read hw hb hr hs
  · rw [h.consumer, Consumer.read_map] at hc
    exact .again _ _ _ rfl rfl (.tacit (.read party ht h.awaits)) (h.goOn hc (by simp [ht]))
      (.inl rfl)
  · rw [h.consumer, Consumer.read_map] at hc
    exact .waits party slot _ (.tacit (.read party ht h.awaits))
      ⟨h.folder, hc, fun _ => h.state (by simp [ht]), h.emitting⟩

/-- A combination reduces an event, and gives the answers that its machine decides on. -/
theorem reduce_goes (h : Shows G num run w none s) {x : C.Action}
    (ht : s.consumer.turn = .reduce x) (hw : w.circumstances.isShutdown = false)
    (hs : (stepFold env run).on w = (.ok stepped, w')) : Goes G num env run w w' s stepped := by
  have hr := h.turn
  rw [ht] at hr
  simp only [stepFold, hr, Turn.map, h.state (by simp [ht])] at hs
  obtain ⟨r, w₁, hred, hs⟩ := on_bind_ok hs
  rw [G.reduce_eq] at hred
  cases hq : C.reduce s.machine.current x with
  | error v =>
    rw [hq] at hred
    cases hred
    cases hs
    exact .crashes _ x v ht hq
  | ok r =>
    rw [hq] at hred
    obtain ⟨_, _, ha, hred⟩ := on_bind_ok hred
    cases hred
    cases hs
    refine .again _ _ _ rfl rfl (.reduce ht hq) (Shows.tell ?_ _) (.inr ha)
    refine ⟨h.folder, ?_, fun _ => rfl, h.emitting⟩
    rw [← Consumer.goOn_map, Turn.next_reduce_map]
    exact congrArg (Consumer.goOn · _)
      ((((quiet_answerAll _).same hw ha).consumer run none).trans h.consumer)

/-- A combination pushes the value that is ready, if there is one. -/
theorem emit_goes (h : Shows G num run w none s) (ht : s.consumer.turn = .emit)
    (hd : s.delivering = none)
    (hx : ∀ b d fs, run.folder = .combining b d fs → d.channel? ≠ some run.channel)
    (hw : w.circumstances.isShutdown = false)
    (hs : (stepFold env run).on w = (.ok stepped, w')) : Goes G num env run w w' s stepped := by
  obtain ⟨d, fs, hf, hn⟩ := h.folder
  have hr := h.turn
  rw [ht] at hr
  simp only [stepFold, hr, Turn.map, stepEmit, hf, h.state (by simp [ht]), G.emission?_eq] at hs
  cases hq : C.emission? s.machine.current with
  | none =>
    rw [hq] at hs
    cases hs
    refine .again _ _ _ rfl rfl (.idle ht hd hq) ?_ (.inl rfl)
    refine ⟨⟨d, fs, hf, hn⟩, ?_, fun _ => h.state (by simp [ht]), ?_⟩
    · exact congrArg (Consumer.goOn · _) h.consumer
    · exact congrArg (emittingOf num) hd.symm
  | some m =>
    rw [hq] at hs
    obtain ⟨child, w₁, hp, hs⟩ := on_bind_ok hs
    cases hs
    refine .pushes _ _ _ _ _ rfl rfl (.push ht hd hq) ⟨⟨d, fs, rfl, hn⟩, ?_, fun _ => rfl, rfl⟩
    rw [← (push_shows h (hx _ _ _ hf) hw hp).consumer]
    simp [FoldRun.consumer, hr, Turn.map]

theorem close_goes (h : Shows G num run w none s) {c : Completion}
    (ht : s.consumer.turn = .close c) (hw : w.circumstances.isShutdown = false)
    (hb : run.channel < w.channels.size)
    (hs : (stepFold env run).on w = (.ok stepped, w')) : Goes G num env run w w' s stepped := by
  have hr := h.turn
  rw [ht] at hr
  obtain ⟨turn, rfl, hc⟩ := stepFold_close hw hb hr hs
  rw [h.consumer, Consumer.finish_map] at hc
  exact .again _ _ _ rfl rfl (.finish ht) (h.goOn hc (by simp [ht])) (.inl rfl)

theorem drain_goes (h : Shows G num run w none s) {c : Completion}
    (ht : s.consumer.turn = .drain c) (hw : w.circumstances.isShutdown = false)
    (hb : run.channel < w.channels.size)
    (hs : (stepFold env run).on w = (.ok stepped, w')) : Goes G num env run w w' s stepped := by
  have hr := h.turn
  rw [ht] at hr
  obtain ⟨turn, rfl, hc⟩ := stepFold_drain hw hb hr hs
  rw [h.consumer, Consumer.drain_map] at hc
  exact .again _ _ _ rfl rfl (.tacit (.drain ht)) (h.goOn hc (by simp [ht])) (.inl rfl)

/-- Whoever is left in the channel at the end is settled. -/
theorem dispose_goes (h : Shows G num run w none s) {x : C.Action} {c : Completion}
    (ht : s.consumer.turn = .dispose x c) (hw : w.circumstances.isShutdown = false)
    (hs : (stepFold env run).on w = (.ok stepped, w')) : Goes G num env run w w' s stepped := by
  have hr := h.turn
  rw [ht] at hr
  simp only [stepFold, hr, Turn.map, G.dispose_eq] at hs
  obtain ⟨_, w₁, ha, hs⟩ := on_bind_ok hs
  cases hs
  refine .again _ _ _ rfl rfl (.dispose ht) (Shows.tell (h.goOn ?_ (by simp [ht])) _) (.inr ha)
  exact congrArg (Consumer.goOn · _)
    ((((quiet_answerAll _).same hw ha).consumer run none).trans h.consumer)

theorem stop_goes (h : Shows G num run w none s) {c : Completion}
    (ht : s.consumer.turn = .stop c)
    (hs : (stepFold env run).on w = (.ok stepped, w')) : Goes G num env run w w' s stepped := by
  have hr := h.turn
  rw [ht] at hr
  simp only [stepFold, hr, Turn.map, h.state (by simp [ht]), G.value_eq] at hs
  obtain ⟨_, w₁, ha, hs⟩ := on_bind_ok hs
  cases hs
  exact .stops c ht

end Shows

/-- What a combination does at a turn of its own, apart from that at which it lets its feeders go,
    is a step of it. -/
theorem stepFold_goes (h : Shows G num run w none s) (hd : s.delivering = none)
    (hf : ∀ c, s.consumer.turn ≠ .finalize c)
    (hx : ∀ b d fs, run.folder = .combining b d fs → d.channel? ≠ some run.channel)
    (hw : w.circumstances.isShutdown = false) (hb : run.channel < w.channels.size)
    (hs : (stepFold env run).on w = (.ok stepped, w')) : Goes G num env run w w' s stepped := by
  cases ht : s.consumer.turn with
  | start => exact h.start_goes ht hs
  | checkpoint => exact h.checkpoint_goes ht hs
  | read => exact h.read_goes ht hw hb hs
  | reduce x => exact h.reduce_goes ht hw hs
  | emit => exact h.emit_goes ht hd hx hw hs
  | close c => exact h.close_goes ht hw hb hs
  | finalize c => exact absurd ht (hf c)
  | drain c => exact h.drain_goes ht hw hb hs
  | dispose x c => exact h.dispose_goes ht hw hs
  | stop c => exact h.stop_goes ht hs

/-- As long as its feeders keep to the rules, a combination does not crash. -/
theorem stepFold_never_crashes {t : List (Seen C)} (hk : Streams.Combination.Held t s)
    (h : Shows G num run w none s) (hd : s.delivering = none)
    (hf : ∀ c, s.consumer.turn ≠ .finalize c)
    (hx : ∀ b d fs, run.folder = .combining b d fs → d.channel? ≠ some run.channel)
    (hw : w.circumstances.isShutdown = false) (hb : run.channel < w.channels.size)
    {self : Frame} {loose : List Nat} {text : String} :
    (stepFold env run).on w ≠ (.ok (.crash self loose text), w') := by
  intro hs
  cases stepFold_goes h hd hf hx hw hb hs with
  | crashes run' x v ht hv =>
    obtain ⟨i, e, k, r, -, -, hr, -⟩ := hk.reduces ht
    cases hv.symm.trans hr

/-- When its feeders are cancelled, which is done without touching the combination itself, the
    values that it holds have been settled. -/
theorem stepFold_finalizes (h : Shows G num run w none s) {c : Completion}
    (ht : s.consumer.turn = .finalize c)
    (hq : ∀ b d fs, run.folder = .combining b d fs → ∀ w₁ w₂,
      (cancelAll env fs).on w₁ = (.ok (), w₂) → run.consumer w₂ none = run.consumer w₁ none)
    (hw : w.circumstances.isShutdown = false)
    (hs : (stepFold env run).on w = (.ok stepped, w')) : ∃ run' s' w₁,
      stepped = .again (.fold run') ∧
      Streams.Combination.Step s ⟨.finalized c, (C.finalize s.machine c).2⟩ s' ∧
      Shows G num run' w' none s' ∧
      (answerAll env ((C.finalize s.machine c).2.rename num)).on w = (.ok (), w₁) := by
  have hr := h.turn
  obtain ⟨d, fs, hfold, hlen⟩ := h.folder
  rw [ht] at hr
  simp only [stepFold, hr, Turn.map, hfold, h.state (by simp [ht]), G.finalize_eq] at hs
  obtain ⟨state, _, hfin, hs⟩ := on_bind_ok hs
  obtain ⟨_, w₁, ha, hfin⟩ := on_bind_ok hfin
  obtain ⟨_, w₂, hc, hfin⟩ := on_bind_ok hfin
  cases hfin
  cases hs
  have hcons : run.consumer w' none = s.consumer.map (G.cargo num) :=
    (hq _ d fs hfold _ _ hc).trans
      ((((quiet_answerAll _).same hw ha).consumer run none).trans h.consumer)
  refine ⟨_, _, w₁, rfl, .finalize ht, Shows.tell ⟨⟨d, fs, rfl, hlen⟩, ?_, fun _ => rfl, ?_⟩ _, ha⟩
  · exact congrArg (Consumer.goOn · _) hcons
  · exact h.emitting

/-! ## Behind an answer -/

/-- The answer to a read that had to wait is what the combination goes on with. -/
theorem stepFoldAnswer_resumes {p : Nat} {r : Reply}
    (h : Shows G num run w (some (p, some (r.map Parcel.toCargo))) s)
    (ht : s.consumer.turn = .read) (hs : (stepFoldAnswer env run r).on w = (.ok stepped, w')) :
    ∃ run' s', stepped = .again (.fold run') ∧ Streams.Combination.Step s ⟨.tacit, []⟩ s' ∧
      Shows G num run' w' none s' := by
  have hr := h.turn
  rw [ht] at hr
  simp only [stepFoldAnswer, hr, Turn.map] at hs
  cases hs
  obtain ⟨o, ha, ho⟩ : ∃ o, s.consumer.awaited = some (p, some o) ∧
      o.map (G.cargo num) = r.map Parcel.toCargo := by
    have ha : some (p, some (r.map Parcel.toCargo)) =
        (s.consumer.map (G.cargo num)).awaited := congrArg Consumer.awaited h.consumer
    rcases hs : s.consumer.awaited with _ | ⟨q, _ | o⟩ <;>
      simp_all [Consumer.map]
  refine ⟨_, _, rfl, .tacit (.resume ht ha), h.goOn ?_ (by simp [ht])⟩
  rw [← Consumer.goOn_map, Turn.next_read_map, ho]
  have hc := congrArg (fun f => ({ f with awaited := none } : Consumer Nat Cargo)) h.consumer
  exact congrArg (Consumer.goOn · _) hc

/-- The answer of the downstream to a value is passed on to those who produced it. -/
theorem stepFoldAnswer_replies {v : C.Output} {ps : List C.Right} {r : Reply}
    (h : Shows G num run w none s) (ht : s.consumer.turn = .emit)
    (hd : s.delivering = some (v, ps)) (hw : w.circumstances.isShutdown = false)
    (hs : (stepFoldAnswer env run r).on w = (.ok stepped, w')) : ∃ run' e s',
      stepped = .again (.fold run') ∧ e.deed = .replied v ps (r.map Parcel.toDemand) ∧
      Streams.Combination.Step s e s' ∧ Shows G num run' w' none s' ∧
      (answerAll env (e.answers.rename num)).on w = (.ok (), w') := by
  have hr := h.turn
  have he := h.emitting
  rw [ht] at hr
  rw [hd] at he
  simp only [stepFoldAnswer, hr, Turn.map, stepEmitAnswer, he, emittingOf,
    h.state (by simp [ht]), G.deliver_eq] at hs
  obtain ⟨_, _, ha, hs⟩ := on_bind_ok hs
  cases hs
  refine ⟨_, _, _, rfl, rfl, .reply _ ht hd, Shows.tell ?_ _, ?_⟩
  · refine ⟨h.folder, ?_, fun _ => rfl, rfl⟩
    rw [← Consumer.goOn_map, Turn.next_emit_map]
    exact congrArg (Consumer.goOn · _)
      ((((quiet_answerAll _).same hw ha).consumer run none).trans h.consumer)
  · rw [Streams.Answers.rename, List.map_map]
    rwa [List.map_map] at ha

end ResumeOnce.Reactor
