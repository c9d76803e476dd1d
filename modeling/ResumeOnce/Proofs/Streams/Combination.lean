import Mathlib.Logic.Function.Basic
import ResumeOnce.Proofs.Fold.Consumer
import ResumeOnce.Proofs.Streams.Combiner

/-!
# Combinations among their feeders

A combination is a fold whose actions come from its feeders. A feeder sends one event
at a time, and at most one completion; its event enters the channel with the right to
answer it, or is settled at once if the channel refuses it. In between the downstream
answers what it likes to the values that it gets, and anybody may cancel the fold.

* `Combination`: the fold, its machine, and the feeders;
* `Combination.Step`: what can happen next, with the answers that it gives;
* `answers`, `deeds`: the answers of a run, and what was done;
* `Combination.Step.consumer`: a step of a combination is a step of its fold, or none.
-/

namespace ResumeOnce.Streams

open Fold (Consumer Turn Effect)

/-- What is done in a combination. -/
inductive Deed (C : Combiner) where
  | sent (i : C.Feeder) (event : Event (C.Input i)) (number : Nat) (refusal : Option Fault)
  | cancelled
  | closed
  | reduced (action : C.Action) (effect : Effect)
  | pushed (value : C.Output) (producers : List C.Right)
  | replied (value : C.Output) (producers : List C.Right) (answer : Outcome Demand)
  | finalized (c : Completion)
  | disposed (action : C.Action) (c : Completion)
  | tacit

/-- What is seen of a step: what is done, and the answers that are given. -/
structure Seen (C : Combiner) where
  deed : Deed C
  answers : Answers C.Right

variable {C : Combiner}

/-- The answers that were given, in order. -/
def answers (t : List (Seen C)) : Answers C.Right := t.flatMap Seen.answers

/-- What was done, in order. -/
def deeds (t : List (Seen C)) : List (Deed C) := t.map Seen.deed

@[simp]
theorem answers_snoc (t : List (Seen C)) (e : Seen C) :
    answers (t ++ [e]) = answers t ++ e.answers := by simp [answers]

@[simp]
theorem deeds_snoc (t : List (Seen C)) (e : Seen C) :
    deeds (t ++ [e]) = deeds t ++ [e.deed] := by simp [deeds]

theorem mem_deeds_snoc {t : List (Seen C)} {d : Deed C} (h : d ∈ deeds t) (e : Seen C) :
    d ∈ deeds (t ++ [e]) := by
  rw [deeds_snoc]
  exact List.mem_append_left _ h

/-- Whether an event is a completion. -/
def isCompletion : Event α → Bool
  | .value _ => false
  | .completion _ => true

/-- A combination and its feeders. -/
structure Combination (C : Combiner) where
  consumer : Consumer Nat C.Action
  machine : Machine C.State
  /-- The value that is downstream, and who produced it. -/
  delivering : Option (C.Output × List C.Right)
  /-- The number of events that a feeder has sent. -/
  sent : C.Feeder → Nat
  /-- The event of a feeder that has no answer yet. -/
  unanswered : C.Feeder → Option C.Right
  /-- Whether a feeder has sent its completion. -/
  ended : C.Feeder → Bool

namespace Combination

/-- A combination at its begin. -/
def new (C : Combiner) : Combination C where
  consumer := .new C.buffering
  machine := .new C.initial
  delivering := none
  sent _ := 0
  unanswered _ := none
  ended _ := false

/-- Feeders are answered. -/
def tell (s : Combination C) (as : Answers C.Right) : Combination C :=
  { s with unanswered := fun i => (s.unanswered i).filter fun r => r ∉ as.map Prod.fst }

/-- A feeder has sent an event, whatever becomes of it. -/
def count (s : Combination C) (i : C.Feeder) (e : Event (C.Input i)) : Combination C :=
  { s with
    sent := Function.update s.sent i (s.sent i + 1)
    unanswered := Function.update s.unanswered i (some (i, s.sent i))
    ended := fun j => s.ended j || (j == i && isCompletion e) }

/-- A feeder sends an event. -/
def send (s : Combination C) (i : C.Feeder) (e : Event (C.Input i)) :
    Combination C × Seen C :=
  let k := s.sent i
  let w := s.consumer.channel.write none (C.inlet i e k)
  let s' := { s.count i e with consumer := s.consumer.exchange w }
  match w.result with
  | .refused refusal =>
    let as := [((i, k), settlement (.ofFault refusal.fault))]
    (s'.tell as, ⟨.sent i e k (some refusal.fault), as⟩)
  | _ => (s', ⟨.sent i e k none, []⟩)

/-- What can happen to a combination. -/
inductive Step : Combination C → Seen C → Combination C → Prop
  | send {s : Combination C} (i : C.Feeder) (e : Event (C.Input i)) : s.unanswered i = none →
      (isCompletion e = true → s.ended i = false) → Step s (s.send i e).2 (s.send i e).1
  | cancel {s : Combination C} :
      Step s ⟨.cancelled, []⟩ { s with consumer := { s.consumer with cancelled := true } }
  | close {s : Combination C} : s.consumer.cancelled = true →
      Step s ⟨.closed, []⟩ { s with
        consumer := s.consumer.exchange (s.consumer.channel.close (.failure Fault.cancelled)) }
  | start {s : Combination C} : s.consumer.turn = .start →
      Step s ⟨.tacit, []⟩ { s with
        consumer := s.consumer.goOn (Turn.next .start ())
        machine := .new C.initial }
  | tacit {s : Combination C} {f : Consumer Nat C.Action} : Consumer.Step s.consumer .tacit f →
      Step s ⟨.tacit, []⟩ { s with consumer := f }
  | reduce {s : Combination C} {x : C.Action} {r : Reduced C.State C.Right} :
      s.consumer.turn = .reduce x → C.reduce s.machine.current x = .ok r →
      Step s ⟨.reduced x r.effect, r.answers⟩ (tell { s with
        consumer := s.consumer.goOn (Turn.next (.reduce x) r.effect)
        machine := { s.machine with current := r.current } } r.answers)
  | idle {s : Combination C} : s.consumer.turn = .emit → s.delivering = none →
      C.emission? s.machine.current = none →
      Step s ⟨.tacit, []⟩ { s with consumer := s.consumer.goOn (Turn.next .emit (.ok ())) }
  | push {s : Combination C} {m : Emission C.State C.Right C.Output} :
      s.consumer.turn = .emit → s.delivering = none →
      C.emission? s.machine.current = some m →
      Step s ⟨.pushed m.value m.producers, []⟩ { s with
        machine := { s.machine with current := m.current }
        delivering := some (m.value, m.producers) }
  | reply {s : Combination C} {v : C.Output} {ps : List C.Right} (answer : Outcome Demand) :
      s.consumer.turn = .emit → s.delivering = some (v, ps) →
      Step s ⟨.replied v ps answer, ps.map (·, (Delivery.ofAnswer answer).reply)⟩ (tell { s with
        consumer := s.consumer.goOn (Turn.next .emit (Delivery.ofAnswer answer).result)
        machine := s.machine.deliver (Delivery.ofAnswer answer)
        delivering := none } (ps.map (·, (Delivery.ofAnswer answer).reply)))
  | finish {s : Combination C} {c : Completion} : s.consumer.turn = .close c →
      Step s ⟨.tacit, []⟩ { s with consumer := s.consumer.finish c }
  | finalize {s : Combination C} {c : Completion} : s.consumer.turn = .finalize c →
      Step s ⟨.finalized c, (C.finalize s.machine c).2⟩ (tell { s with
        consumer := s.consumer.goOn (Turn.next (.finalize c) ())
        machine := (C.finalize s.machine c).1 } (C.finalize s.machine c).2)
  | dispose {s : Combination C} {x : C.Action} {c : Completion} :
      s.consumer.turn = .dispose x c →
      Step s ⟨.disposed x c, [(C.sender x, settlement c)]⟩ (tell { s with
        consumer := s.consumer.goOn (Turn.next (.dispose x c) ()) } [(C.sender x, settlement c)])

/-! ## A combination is a fold -/

variable {s s' : Combination C}

@[simp]
theorem tell_consumer (s : Combination C) (as : Answers C.Right) :
    (s.tell as).consumer = s.consumer := rfl

@[simp]
theorem tell_machine (s : Combination C) (as : Answers C.Right) :
    (s.tell as).machine = s.machine := rfl

@[simp]
theorem tell_delivering (s : Combination C) (as : Answers C.Right) :
    (s.tell as).delivering = s.delivering := rfl

theorem tell_nil (s : Combination C) : s.tell [] = s := by
  have hu : (fun i => (s.unanswered i).filter fun _ => true) = s.unanswered := by
    funext i
    cases s.unanswered i <;> rfl
  simp [tell, hu]

theorem count_sent_self (s : Combination C) (i : C.Feeder) (e : Event (C.Input i)) :
    (s.count i e).sent i = s.sent i + 1 := Function.update_self ..

theorem count_sent_ne (s : Combination C) {i j : C.Feeder} (h : j ≠ i) (e : Event (C.Input i)) :
    (s.count i e).sent j = s.sent j := Function.update_of_ne h ..

theorem count_unanswered_self (s : Combination C) (i : C.Feeder) (e : Event (C.Input i)) :
    (s.count i e).unanswered i = some (i, s.sent i) := Function.update_self ..

theorem count_unanswered_ne (s : Combination C) {i j : C.Feeder} (h : j ≠ i)
    (e : Event (C.Input i)) : (s.count i e).unanswered j = s.unanswered j :=
  Function.update_of_ne h ..

theorem send_consumer (s : Combination C) (i : C.Feeder) (e : Event (C.Input i)) :
    (s.send i e).1.consumer =
      s.consumer.exchange (s.consumer.channel.write none (C.inlet i e (s.sent i))) := by
  rw [send]
  split <;> rfl

theorem send_delivering (s : Combination C) (i : C.Feeder) (x : Event (C.Input i)) :
    (s.send i x).1.delivering = s.delivering ∧ (s.send i x).1.machine = s.machine := by
  rw [send]
  split <;> exact ⟨rfl, rfl⟩

theorem send_step (s : Combination C) (i : C.Feeder) (e : Event (C.Input i)) :
    Consumer.Step s.consumer (.wrote (C.inlet i e (s.sent i))
      (s.consumer.channel.write none (C.inlet i e (s.sent i))).result) (s.send i e).1.consumer := by
  rw [send_consumer]
  exact .write none _

/-- A step of a combination is a step of its fold, or does not touch it. -/
theorem Step.consumer {e : Seen C} (h : Step s e s') : s'.consumer = s.consumer ∨
    ∃ e', Consumer.Step s.consumer e' s'.consumer := by
  cases h with
  | send i e hi he => exact .inr ⟨_, send_step s i e⟩
  | cancel => exact .inr ⟨_, .cancel⟩
  | close hc => exact .inr ⟨_, .close _⟩
  | start ht => exact .inr ⟨_, .start ht⟩
  | tacit hf => exact .inr ⟨_, hf⟩
  | reduce ht hr => exact .inr ⟨_, .reduce _ ht⟩
  | idle ht hd hn => exact .inr ⟨_, .emit _ ht⟩
  | push ht hd hm => exact .inl rfl
  | reply answer ht hd => exact .inr ⟨_, .emit _ ht⟩
  | finish ht => exact .inr ⟨_, .finish ht⟩
  | finalize ht => exact .inr ⟨_, .finalize ht⟩
  | dispose ht => exact .inr ⟨_, .dispose ht⟩

end Combination

end ResumeOnce.Streams
