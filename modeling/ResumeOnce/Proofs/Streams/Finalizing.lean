import ResumeOnce.Proofs.Network.Uttering
import ResumeOnce.Proofs.Streams.Bounds
import ResumeOnce.Proofs.Streams.Ceasing

/-!
# What a fold is finalized with

A fold is finalized once, when its loop has ended. From then on nothing changes its machine: the
machine stays in its last state, and keeps the completion. This is so for feeders that send what
they like, and whatever room there is in the channel.

* `finalizations`: the completions that a fold was finalized with;
* `Plain.terminal`, `terminates`: the last state of a plain combination;
* `Combination.Finalized`, `finalized_run`: what is known of a fold by its turn.
-/

namespace ResumeOnce.Fold.Consumer

variable {ρ α : Type} [DecidableEq ρ] {s s' : Consumer ρ α}

/-- A consumer that goes on by itself stays finalized, if it was. -/
theorem Step.finalized?_eq (ht : Step s .tacit s') (hs : s.Sound) :
    s'.turn.finalized? = s.turn.finalized? := by
  rcases hc : s'.turn.finalized? with _ | c
  · cases ht with
    | checkpoint hq | read p hq | resume hq => simp [hq, Turn.finalized?]
    | drain hq =>
      rcases hx : s.channel.tryRead.result with f | a <;>
        simp [hx, Turn.next, Turn.finalized?] at hc
  · exact (ht.finalized? hs hc).symm

end ResumeOnce.Fold.Consumer

namespace ResumeOnce.Streams

open Fold (Consumer)

variable {C : Combiner}

/-- The completion that a fold is finalized with. -/
def Deed.finalizes : Deed C → Option Completion
  | .finalized c => some c
  | _ => none

/-- The completions that a fold was finalized with, in order. -/
def finalizations (t : List (Seen C)) : List Completion := (deeds t).filterMap Deed.finalizes

/-- Whether a machine that is finalized comes to its last state. -/
def Combiner.Terminates (C : Combiner) (terminal : Completion → C.State) : Prop :=
  ∀ m c, (C.finalize m c).1.current = terminal c

/-- The last state of a plain combination: finished, or errored with the fault. -/
def Plain.terminal : (p : Plain) → Completion → p.combiner.State
  | zip _ _ => Zip.terminal
  | select _ _ | merge _ _ => Merge.terminal

theorem terminates (p : Plain) : p.combiner.Terminates p.terminal := by
  cases p <;> exact fun _ _ => rfl

namespace Combination

variable {terminal : Completion → C.State} {t : List (Seen C)} {s s' : Combination C} {e : Seen C}

/-- What is known of a fold by its turn: how often it was finalized, and what its machine keeps
    of that. -/
structure Finalized (terminal : Completion → C.State) (t : List (Seen C)) (s : Combination C) :
    Prop where
  sound : s.consumer.Sound
  once : finalizations t = s.consumer.turn.finalized?.toList
  kept : ∀ c, s.consumer.turn.finalized? = some c →
    s.machine.completion = some c ∧ s.machine.current = terminal c

namespace Finalized

/-- Whatever does not finalize a fold leaves the machine alone, if it was finalized before. -/
theorem snoc (h : Finalized terminal t s) (hs : s'.consumer.Sound)
    (he : e.deed.finalizes = none)
    (ht : s'.consumer.turn.finalized? = s.consumer.turn.finalized?)
    (hm : s.consumer.turn.finalized? ≠ none → s'.machine = s.machine) :
    Finalized terminal (t ++ [e]) s' where
  sound := hs
  once := by
    rw [ht, ← h.once, finalizations, deeds_snoc, List.filterMap_append, finalizations]
    simp [he]
  kept c hc := by
    rw [ht] at hc
    rw [hm (by simp [hc])]
    exact h.kept c hc

theorem send (h : Finalized terminal t s) (i : C.Feeder) (x : Event (C.Input i)) :
    Finalized terminal (t ++ [(s.send i x).2]) (s.send i x).1 := by
  refine h.snoc ((send_step s i x).sound h.sound) ?_ ?_ fun _ => (s.send_delivering i x).2
  · rw [Combination.send]
    split <;> rfl
  · rw [send_turn h.sound]

theorem step (h : Finalized terminal t s) (hR : C.Records) (hT : C.Terminates terminal)
    (hs : Step s e s') : Finalized terminal (t ++ [e]) s' := by
  have hw := hs.sound h.sound
  cases hs with
  | send i x hi hx => exact h.send i x
  | cancel => exact h.snoc hw rfl rfl fun _ => rfl
  | push ht => exact h.snoc hw rfl rfl fun hn => absurd (by rw [ht]; rfl) hn
  | close =>
    exact h.snoc hw rfl (congrArg Fold.Turn.finalized? (h.sound.close _).turn) fun _ => rfl
  | tacit hf => exact h.snoc hw rfl (hf.finalized?_eq h.sound) fun _ => rfl
  | @reduce x r ht hr =>
    refine h.snoc hw rfl ?_ fun hn => absurd (by rw [ht]; rfl) hn
    rw [ht]
    cases r.effect <;> rfl
  | reply answer ht hd =>
    refine h.snoc hw rfl ?_ fun hn => absurd (by rw [ht]; rfl) hn
    rw [ht]
    rcases answer with f | _ | _ <;> rfl
  | start ht | idle ht hd hn | finish ht =>
    exact h.snoc hw rfl (by rw [ht]; rfl) fun hn => absurd (by rw [ht]; rfl) hn
  | @finalize c ht =>
    have ho := h.once
    rw [ht] at ho
    refine ⟨hw, ?_, ?_⟩
    · rw [finalizations, deeds_snoc, List.filterMap_append, ← finalizations, ho]
      rfl
    · rintro _ ⟨⟩
      exact ⟨hR _ _, hT _ _⟩
  | dispose ht => exact h.snoc hw rfl (by rw [ht]; rfl) fun _ => rfl

end Finalized

theorem finalized_run (hR : C.Records) (hT : C.Terminates terminal) {b : Buffering}
    (h : Run Unruly (buffered C b) t s) : Finalized terminal t s := by
  refine h.invariant (P := fun t s => Finalized terminal t s)
    ⟨Consumer.sound_new b, rfl, fun _ hc => by cases hc⟩ ?_
  intro t s e s' hf hs
  cases hs with
  | send i x => exact hf.send i x
  | go hs => exact hf.step hR hT hs

end Combination

end ResumeOnce.Streams
