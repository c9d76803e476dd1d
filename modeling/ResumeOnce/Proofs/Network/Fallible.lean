import ResumeOnce.Proofs.Network.Discourse
import ResumeOnce.Proofs.Network.Enduring
import ResumeOnce.Proofs.Streams.Finalizing

/-!
# Combinations whose folds fail

The fold of a combination runs the code of others: it calls the downstream with a value, and
that may panic. Then the fold fails with a fault, which is what its drive will learn. The drive
itself does not break down as it pushes the completion. The feeders are any streams at all, and
the channel has any buffering.

* `Fallible`, `Fallible.Step`: a combination, and the fault with which its fold has failed;
* `System.fallible`: such a combination as a stream;
* `Fallible.voice`: it keeps to the grammar;
* `Fallible.tended_run`: its feeders are streams that go on for themselves;
* `Node.Step.folds`, `Fallible.folded_run`: what its fold went through, as long as it has not
  failed.
-/

namespace ResumeOnce.Network

open Streams

/-- A combination, and the fault with which its fold has failed. -/
structure Fallible (C : Combiner) (S : (i : C.Feeder) → System (C.Input i)) where
  node : Node C S
  fault : Option Fault

variable {C : Combiner} {S : (i : C.Feeder) → System (C.Input i)} {order : List C.Feeder}
  {b : Buffering}

namespace Fallible

/-- A combination whose channel has a given buffering, at its begin. -/
def new (C : Combiner) (S : (i : C.Feeder) → System (C.Input i)) (b : Buffering) :
    Fallible C S :=
  ⟨{ Node.new C S with fold := .buffered C b }, none⟩

/-- The combination, when it does not matter how its fold has failed. -/
def brittle (s : Fallible C S) : Brittle C S := ⟨s.node, s.fault.isSome⟩

/-- What happens in a combination: its tasks and its feeders go on, or the fold fails. Whoever the
    fold had still to answer is then answered by somebody else. -/
inductive Step (order : List C.Feeder) : Fallible C S → Move C.Output → Fallible C S → Prop
  | work {s : Fallible C S} {m : Move C.Output} {node : Node C S} : s.node.Step order m node →
      Step order s m { s with node := node }
  | fail {s : Fallible C S} (f : Fault) : s.node.started = true →
      s.node.final.isComplete = false → Step order s .tacit ⟨(s.brittle.crash f).node, some f⟩
  | forget {s : Fallible C S} (r : C.Right) (o : Outcome Demand) : s.fault.isSome = true →
      Step order s .tacit { s with node := (s.brittle.forget r o).node }

theorem Step.brittle {s s' : Fallible C S} {m : Move C.Output} (hs : Step order s m s') :
    Brittle.Step order s.brittle m s'.brittle := by
  cases hs with
  | work hs => exact .work hs
  | fail f hs hf => exact .crash f hs hf
  | forget r o hb => exact .forget r o hb

end Fallible

/-- The stream of a combination whose fold may fail, with any buffering of its channel. Its feeders
    are awaited in some order. -/
def System.fallible (C : Combiner) (S : (i : C.Feeder) → System (C.Input i))
    (order : List C.Feeder) (b : Buffering) : System C.Output where
  State := Fallible C S
  start := .new C S b
  Step := Fallible.Step order
  answer o s := { s with node := s.node.answer o }
  cancel s := { s with node := s.node.cancel }
  Runnable s := (System.brittle C S order).Runnable s.brittle

/-! ## The fold -/

namespace Node

variable {s s' : Node C S} {a : Move C.Output}

/-- A fold that is cancelled goes on, and pushes nothing by that. -/
theorem folds_cancelFold {f : Combination C} (h : ∃ T, Run Unruly f T s.fold ∧ pushed T = []) :
    ∃ T, Run Unruly f T s.cancelFold.fold ∧ pushed T = [] := by
  refine cancelFold_of (P := fun s => ∃ T, Run Unruly f T s.fold ∧ pushed T = []) h ?_
  obtain ⟨T, hr, hp⟩ := h
  refine ⟨_, (hr.snoc (.go .cancel)).snoc (.go (.close rfl)), ?_⟩
  rw [pushed_append, pushed_append, hp]
  rfl

theorem folds_cancel (s : Node C S) : ∃ T, Run Unruly s.fold T s.cancel.fold ∧ pushed T = [] :=
  cancel_of (P := fun s' => ∃ T, Run Unruly s.fold T s'.fold ∧ pushed T = []) ⟨[], .nil, rfl⟩
    ⟨[], .nil, rfl⟩ fun _ => folds_cancelFold

/-- What a fold goes through in a step of its combination, with the value that it pushes. -/
theorem Step.folds (hs : Step order s a s') :
    ∃ T, Run Unruly s.fold T s'.fold ∧ pushed T = a.value?.toList := by
  cases hs with
  | launch =>
    exact launch_of (P := fun s' => ∃ T, Run Unruly s.fold T s'.fold ∧ pushed T = [])
      ⟨[], .nil, rfl⟩ fun _ => folds_cancelFold
  | @fold e f ha hs he =>
    exact ⟨[e], Run.nil.snoc (.go hs), by simp [pushed, deeds, he.harmless.2.2, Move.value?]⟩
  | push ha ho hs => exact ⟨_, Run.nil.snoc (.go hs), rfl⟩
  | reply ha ho hp hs => exact ⟨_, Run.nil.snoc (.go hs), rfl⟩
  | @receive i e state hs hf =>
    obtain ⟨y, hd, -⟩ := send_seen s.fold i e
    refine ⟨_, Run.nil.snoc (.send i e), ?_⟩
    simp [pushed, deeds, hd, Deed.pushes, Move.value?]
  | _ => exact ⟨[], .nil, rfl⟩

/-- A fold that is final is left as it is, but for what its feeders send. -/
structure Rested (s s' : Node C S) : Prop where
  machine : s'.fold.machine = s.fold.machine
  turn : s'.fold.consumer.turn = s.fold.consumer.turn
  final : s'.final.isComplete = true

theorem Rested.cancelFold (h : Rested s s') : Rested s s'.cancelFold := by
  rw [Node.cancelFold, if_pos (by simp [h.final])]
  exact h

theorem Step.rested (hs : Step order s a s') (h : s.fold.consumer.Sound)
    (hf : s.final.isComplete = true) : Rested s s' := by
  cases hs with
  | launch => exact launch_of (P := Rested s) ⟨rfl, rfl, hf⟩ fun _ => Rested.cancelFold
  | fold ha | push ha | reply ha | stop ha => cases hf.symm.trans ha.2.1
  | attend hr hs hd hp | learn hr hs hd hp =>
    exact ⟨rfl, rfl, (Slot.isComplete_poll hp).trans hf⟩
  | @receive i e state hs he =>
    exact ⟨(s.fold.send_delivering i e).2, Combination.send_turn h i e, hf⟩
  | _ => exact ⟨rfl, rfl, hf⟩

end Node

namespace Fallible

variable {s s' : Fallible C S} {t : List (Act C.Output)} {x : Standing}

/-- A combination keeps to the grammar, whatever its feeders do and whenever its fold fails. -/
theorem voice (hC : C.Remembers) (S : (i : C.Feeder) → System (C.Input i))
    (order : List C.Feeder) (b : Buffering) :
    Voice (System.fallible C S order b) fun m s => Brittle.Utters m (brittle s) where
  start := (Brittle.Utters.new C S).alike
    ⟨fun _ => Fold.Consumer.sound_new b, rfl, rfl, rfl, rfl, rfl, rfl, rfl, id, id⟩
  silent h hs ha := (Brittle.voice hC order).silent h (Step.brittle hs) ha
  calls h hs := (Brittle.voice hC order).calls h (Step.brittle hs)
  answer o h hm := h.answer hm o
  cancel h := (Brittle.voice hC order).cancel h

/-- The feeders of a combination are streams that go on for themselves, whatever they send and
    whenever the fold fails. -/
theorem tended_run (hC : C.Remembers) (h : Reaches (System.fallible C S order b) x s) :
    Tended S s.node.fold s.node.feeder s.node.result True :=
  h.invariant
    (P := fun _ (s : Fallible C S) => Tended S s.node.fold s.node.feeder s.node.result True)
    (.start S _) (fun h hs => Brittle.tended_step hC h (Step.brittle hs))
    (fun o h _ => Brittle.tended_answer h o) Brittle.tended_cancel

/-- What the fold of a combination went through in a run, as long as it has not failed: it has
    pushed the values that the downstream was called with. -/
structure Folded (b : Buffering) (T : List (Seen C)) (t : List (Act C.Output))
    (s : Fallible C S) : Prop where
  run : Run Unruly (.buffered C b) T s.node.fold
  pushed : pushed T = values t

theorem Folded.append {T T' : List (Seen C)} (h : Folded b T t s) {a : Act C.Output}
    (hr : Run Unruly s.node.fold T' s'.node.fold) (hp : Streams.pushed T' = values [a]) :
    Folded b (T ++ T') (t ++ [a]) s' where
  run := h.run.append hr
  pushed := by rw [pushed_append, values_append, h.pushed, hp]

theorem folded_run (h : Run Exposed.Step (.new (System.fallible C S order b)) t ⟨x, s⟩)
    (hf : s.fault = none) : ∃ T, Folded b T t s := by
  refine h.invariant (P := fun t e => e.state.fault = none → ∃ T, Folded b T t e.state)
    (fun _ => ⟨[], .nil, rfl⟩) ?_ hf
  rintro t e a e' ih hs hf
  cases hs with
  | @move x s s' m hs =>
    cases hs with
    | work hs =>
      obtain ⟨T, hT⟩ := ih hf
      obtain ⟨T', hr, hp⟩ := hs.folds
      refine ⟨_, hT.append hr (hp.trans ?_)⟩
      rcases m with _ | ⟨v | c⟩ | r <;> rfl
    | fail f => cases hf
    | forget r o hb => simp [show s.fault = none from hf] at hb
  | @answer x s o hx =>
    obtain ⟨T, hT⟩ := ih hf
    have hr : Run Unruly s.node.fold [] (s.node.answer o).fold := by
      rw [Node.answer]
      split <;> exact .nil
    exact ⟨_, hT.append hr rfl⟩
  | @cancel x s =>
    obtain ⟨T, hT⟩ := ih hf
    obtain ⟨T', hr, hp⟩ := s.node.folds_cancel
    exact ⟨_, hT.append hr hp⟩

end Fallible

end ResumeOnce.Network
