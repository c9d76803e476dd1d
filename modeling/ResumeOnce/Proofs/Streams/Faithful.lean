import ResumeOnce.Proofs.Streams.Finalizing
import ResumeOnce.Proofs.Streams.Overflow

/-!
# Feeders that follow their scripts as long as they may

A feeder of a zip is a stream like any other: it follows its script as long as more is wanted of
its values and nobody cancels it, and nothing is known of what it sends otherwise. That is enough.
Whatever goes into a pair, or ends the zip, was sent before.

* `Encouraged`, `Faithful`: feeders that follow their scripts as long as they may;
* `Heeding`: so whatever a zip reduces is what its scripts say;
* `Smooth`, `Matched`: if the downstream wants more and nobody cancels the zip, it pairs by
  position;
* `gentle_end`, `gentle_answer`: what it comes to, and what it answers, if the downstream is not
  so kind, but has no fault.
-/

namespace ResumeOnce.Streams

open Fold (Turn)

section

variable {C : Combiner} {x : (i : C.Feeder) → Script (C.Input i)} {t : List (Seen C)} {e : Seen C}

/-- Whether a feeder was told nothing but to go on. -/
def Encouraged (t : List (Seen C)) (i : C.Feeder) : Prop :=
  (∀ k o, ((i, k), o) ∈ answers t → o = .ok .more) ∧ finalizations t = []

/-- Whether the feeders follow their scripts, each of them as long as it is told to go on. -/
def Faithful (x : (i : C.Feeder) → Script (C.Input i)) (t : List (Seen C)) : Prop :=
  ∀ t₁ e t₂, t = t₁ ++ e :: t₂ → ∀ i y k f, e.deed = .sent i y k f → Encouraged t₁ i →
    (x i).event? k = some y

namespace Faithful

theorem nil (x : (i : C.Feeder) → Script (C.Input i)) : Faithful x [] := by
  intro t₁ e t₂ ht
  simp at ht

theorem of_snoc (h : Faithful x (t ++ [e])) : Faithful x t := by
  rintro t₁ e' t₂ rfl
  exact h t₁ e' (t₂ ++ [e]) (by simp)

theorem last (h : Faithful x (t ++ [e])) {i : C.Feeder} {y : Event (C.Input i)} {k : Nat}
    {f : Option Fault} (he : e.deed = .sent i y k f) (hi : Encouraged t i) :
    (x i).event? k = some y :=
  h t e [] rfl i y k f he hi

theorem snoc (h : Faithful x t)
    (he : ∀ i y k f, e.deed = .sent i y k f → Encouraged t i → (x i).event? k = some y) :
    Faithful x (t ++ [e]) := by
  intro t₁ e' t₂ ht
  rcases t₂.eq_nil_or_concat with rfl | ⟨l, b, rfl⟩
  · obtain ⟨rfl, he'⟩ := List.append_inj' ht rfl
    cases he'
    exact he
  · rw [List.concat_eq_append, ← List.cons_append, ← List.append_assoc] at ht
    exact h t₁ e' l (List.append_inj' ht rfl).1

end Faithful

/-- A fold whose loop goes on has not been finalized. -/
theorem Combination.Finalized.not_yet {s : Combination C} {terminal : Completion → C.State}
    (h : Combination.Finalized terminal t s) (hn : s.consumer.turn.completion? = none) :
    finalizations t = [] := by
  rw [h.once, Turn.finalized?_of_none hn]
  rfl

/-- What is known of the end of a plain combination with the room that it has by default. -/
theorem finalized_plain (p : Plain) {t : List (Seen p.combiner)} {s : Combination p.combiner}
    (h : Run Combination.Step (.new p.combiner) t s) : Combination.Finalized p.terminal t s :=
  Combination.finalized_run (records p) (terminates p) (b := p.combiner.buffering)
    (h.invariant (P := Run Unruly _) .nil fun hr hs => hr.snoc (.go hs))

end

variable {α β : Type} {left : Script α} {right : Script β} {t : List (Seen (Combiner.zip α β))}
  {e : Seen (Combiner.zip α β)} {s s' : Combination (Combiner.zip α β)}

/-- The scripts of the sides of a zip. -/
def sides (left : Script α) (right : Script β) :
    (i : (Combiner.zip α β).Feeder) → Script ((Combiner.zip α β).Input i)
  | .left => left
  | .right => right

/-! ## What a zip reduces -/

/-- What holds of a zip whose feeders follow their scripts as long as they may: as long as it goes
    on, they have done so, and so it does not matter what they send then. -/
structure Heeding (left : Script α) (right : Script β) (t : List (Seen (Combiner.zip α β)))
    (s : Combination (Combiner.zip α β)) : Prop where
  encouraged : s.consumer.turn.completion? = none → s.consumer.channel.completion = none →
    ∀ i, Encouraged t i
  accepted : s.consumer.turn.completion? = none → ∀ i y k, .sent i y k none ∈ deeds t →
    (sides left right i).event? k = some y
  reduced : ∀ i c k effect,
    .reduced ((Combiner.zip α β).inlet i (.completion c) k) effect ∈ deeds t →
    (sides left right i).completion? = some c

/-- A zip that goes on, and whose channel is open, answers with nothing but a demand for more. -/
theorem Combination.Held.asks (h : Combination.Held t s) (hs : Combination.Step s e s')
    (hn : s'.consumer.turn.completion? = none) (ho : s'.consumer.channel.completion = none)
    {r : (Combiner.zip α β).Right} {o : Outcome Demand} (hm : (r, o) ∈ e.answers) :
    o = .ok .more := by
  cases hs with
  | send i y hi hy => exact absurd ⟨hn, ho⟩ (not_and_or.2 ((h.refusal hi hm).imp id id))
  | @reduce x r' ht hr =>
    obtain ⟨i, y, k, r'', rfl, -, hr', hx⟩ := h.reduces ht
    obtain rfl : r' = r'' := Except.ok.inj (hr.symm.trans hr')
    cases hx with
    | held a m => cases hm
    | passed c m => cases Pairing.effect_completion hr
    | ended c m => cases hn
  | @reply v ps answer ht hd =>
    obtain ⟨q, -, hq⟩ := List.mem_map.1 hm
    obtain ⟨-, rfl⟩ := Prod.mk.inj hq
    rw [ofAnswer_reply]
    rcases answer with f | _ | _
    · cases hn
    · rfl
    · cases hn
  | finalize | dispose => cases hn
  | _ => cases hm

/-- A channel that is open was open before. -/
theorem Combination.Step.opened (hs : Combination.Step s e s') (h : s.consumer.Sound)
    (ho : s'.consumer.channel.completion = none) : s.consumer.channel.completion = none := by
  rcases hs.consumer with he | ⟨e', he⟩
  · exact he ▸ ho
  · by_contra hx
    have hc := he.closed h (Option.isSome_iff_ne_none.2 hx)
    rw [ho] at hc
    cases hc

namespace Heeding

theorem new (left : Script α) (right : Script β) :
    Heeding left right [] (.new (Combiner.zip α β)) where
  encouraged _ _ _ := ⟨fun _ _ hm => (nomatch hm), rfl⟩
  accepted _ _ _ _ hm := nomatch hm
  reduced _ _ _ _ hm := nomatch hm

theorem step (h : Heeding left right t s) (hk : Combination.Held t s)
    (hz : Combination.Finalized (Plain.terminal (.zip α β)) (t ++ [e]) s')
    (hf : Faithful (sides left right) (t ++ [e])) (hs : Combination.Step s e s') :
    Heeding left right (t ++ [e]) s' := by
  have hback : s'.consumer.turn.completion? = none → s.consumer.turn.completion? = none := by
    intro hn
    refine Option.eq_none_iff_forall_ne_some.2 fun c hc => ?_
    rw [hk.completion? hs hc] at hn
    cases hn
  refine ⟨fun hn ho i => ⟨fun k o hm => ?_, hz.not_yet hn⟩,
    fun hn i y k hm => ?_, fun i c k effect hm => ?_⟩
  · rw [answers_snoc, List.mem_append] at hm
    rcases hm with hm | hm
    · exact (h.encouraged (hback hn) (hs.opened hk.sound ho) i).1 k o hm
    · exact hk.asks hs hn ho hm
  · rw [deeds_snoc, List.mem_append, List.mem_singleton] at hm
    rcases hm with hm | hm
    · exact h.accepted (hback hn) i y k hm
    · -- It was accepted, so the channel was open.
      have ho : s.consumer.channel.completion = none := by
        cases hs with
        | send j z hj hz =>
          refine Option.eq_none_iff_forall_ne_some.2 fun c hc => ?_
          rw [hk.send_closed hc] at hm
          cases hm
        | _ => cases hm
      exact hf.last hm.symm (h.encouraged (hback hn) ho i)
  · rw [deeds_snoc, List.mem_append, List.mem_singleton] at hm
    rcases hm with hm | hm
    · exact h.reduced i c k effect hm
    · cases hs with
      | send j z hj hz =>
        rw [Combination.send] at hm
        split at hm <;> cases hm
      | @reduce x r ht hr =>
        obtain ⟨j, z, l, r', rfl, hd, -⟩ := hk.reduces ht
        obtain ⟨rfl, rfl, rfl⟩ := (Plain.zip α β).tally.completion (Deed.reduced.inj hm).1.symm
        exact (Script.length_of_event? (h.accepted (by rw [ht]; rfl) _ _ _ hd)).2
      | _ => cases hm

end Heeding

theorem heeding_run (h : Run Combination.Step (.new (Combiner.zip α β)) t s)
    (hf : Faithful (sides left right) t) : Heeding left right t s := by
  refine (h.invariant (P := fun t s => Run Combination.Step (.new (Combiner.zip α β)) t s ∧
    (Faithful (sides left right) t → Heeding left right t s)) ⟨.nil, fun _ => .new left right⟩
    fun ⟨hr, hp⟩ hs => ⟨hr.snoc hs, fun hf => ?_⟩).2 hf
  exact (hp hf.of_snoc).step (Combination.kept_run hr).held
    (finalized_plain (.zip α β) (hr.snoc hs)) hf hs

/-! ## A zip that nobody disturbs -/

/-- Whether the downstream wants more of every value, and nobody cancels the zip. -/
structure Smooth (t : List (Seen (Combiner.zip α β))) : Prop where
  welcomed : ∀ v ps o, .replied v ps o ∈ deeds t → o = .ok .more
  uncancelled : .cancelled ∉ deeds t

theorem Smooth.of_snoc (h : Smooth (t ++ [e])) : Smooth t where
  welcomed v ps o hm := h.welcomed v ps o (mem_deeds_snoc hm e)
  uncancelled hm := h.uncancelled (mem_deeds_snoc hm e)

/-- What holds of a zip whose feeders follow their scripts as long as they may, and which nobody
    disturbs: as long as it goes on, they do, and so it pairs by position. -/
structure Matched (left : Script α) (right : Script β) (t : List (Seen (Combiner.zip α β)))
    (s : Combination (Combiner.zip α β)) : Prop where
  pairing : Pairing left right t s
  regular : s.consumer.turn.completion? = none → Regular left right t

namespace Matched

theorem step (h : Matched left right t s) (hg : Heeding left right t s)
    (hk : Combination.Held t s) (hf : Faithful (sides left right) (t ++ [e]))
    (hm : Smooth (t ++ [e])) (hs : Combination.Step s e s') : Matched left right (t ++ [e]) s' := by
  rcases hn : s.consumer.turn.completion? with _ | c
  · -- As long as the zip goes on every feeder is encouraged, and what it sends is on its script.
    have ho := (h.pairing.looping hn).undisturbed.opened
    have hr : Regular left right (t ++ [e]) := by
      intro d hd
      rw [deeds_snoc, List.mem_append, List.mem_singleton] at hd
      rcases hd with hd | rfl
      · exact h.regular hn d hd
      · cases hd : e.deed with
        | sent i y k f =>
          have hy := hf.last hd (hg.encouraged hn ho i)
          cases i with
          | left => exact hy
          | right => exact hy
        | replied v ps o => exact hm.welcomed v ps o (by simp [hd])
        | cancelled => exact hm.uncancelled (by simp [hd])
        | _ => trivial
    exact ⟨h.pairing.step_looping hk hr hs hn, fun _ => hr⟩
  · -- Once it has ended it pushes no more, whatever the feeders do.
    refine ⟨h.pairing.step_ended hk hs hn, fun hx => ?_⟩
    cases (hk.completion? hs hn).symm.trans hx

end Matched

theorem matched_run (h : Run Combination.Step (.new (Combiner.zip α β)) t s)
    (hf : Faithful (sides left right) t) (hm : Smooth t) : Matched left right t s := by
  refine (h.invariant (P := fun t s => Run Combination.Step (.new (Combiner.zip α β)) t s ∧
    (Faithful (sides left right) t → Smooth t → Matched left right t s))
    ⟨.nil, fun _ _ => ⟨pairing_new, fun _ _ hd => (nomatch hd)⟩⟩
    fun ⟨hr, hp⟩ hs => ⟨hr.snoc hs, fun hf hm => ?_⟩).2 hf hm
  exact (hp hf.of_snoc hm.of_snoc).step (heeding_run hr hf.of_snoc)
    (Combination.kept_run hr).held hf hm hs

/-- The shorter script tells how many pairs there were at the end. -/
theorem Ended.length_eq {c : Completion} (h : Ended left right t c) :
    ((pushed t).length : ℕ∞) = min left.length right.length := by
  rcases h.shorter with ⟨hl, -⟩ | ⟨hr, -⟩
  · rw [← hl]
    exact (min_eq_left (hl ▸ h.right)).symm
  · rw [← hr]
    exact (min_eq_right (hr ▸ h.left)).symm

/-- A zip of scripts that do not fail does not fail either. -/
theorem Ended.finished {c : Completion} (h : Ended left right t c) (hl : left.Finishes)
    (hr : right.Finishes) : c = .finished :=
  h.shorter.elim (fun hx => hl c hx.2) fun hx => hr c hx.2

/-! ## A downstream without faults -/

section Gentle

variable {c : Completion}

/-- Whether the downstream answers no value with a fault. -/
def Gentle (t : List (Seen (Combiner.zip α β))) : Prop :=
  ∀ v ps o, .replied v ps o ∈ deeds t → ∃ d, o = .ok d

/-- If the scripts do not fail, and the downstream answers no value with a fault, a zip finishes
    unless it is cancelled. -/
theorem gentle_end (h : Run Combination.Step (.new (Combiner.zip α β)) t s)
    (hf : Faithful (sides left right) t) (hl : left.Finishes) (hr : right.Finishes)
    (hg : Gentle t) (hc : s.consumer.turn.completion? = some c) :
    c = .finished ∨ c = .failure Fault.cancelled ∧ .cancelled ∈ deeds t := by
  cases (spilling_run (b := (Combiner.zip α β).buffering) h).ends.ended c hc with
  | reduced i c k hm =>
    have hx := (heeding_run h hf).reduced i c k _ hm
    cases i with
    | left => exact .inl (hl c hx)
    | right => exact .inl (hr c hx)
  | replied v ps o f hm hx =>
    obtain ⟨d, rfl⟩ := hg v ps o hm
    cases d with
    | more => cases hx
    | done =>
      cases hx
      exact .inl rfl
  | cancelled hm => exact .inr ⟨rfl, hm⟩

/-- Nobody gets a fault then, but for the cancellation. -/
theorem gentle_answer (h : Run Combination.Step (.new (Combiner.zip α β)) t s)
    (hf : Faithful (sides left right) t) (hl : left.Finishes) (hr : right.Finishes)
    (hg : Gentle t) {r : (Combiner.zip α β).Right} {o : Outcome Demand} (hm : (r, o) ∈ answers t) :
    (∃ d, o = .ok d) ∨ o = .error Fault.cancelled ∧ .cancelled ∈ deeds t := by
  have hk := Combination.kept_run h
  have hset : ∀ c, c = .finished ∨ c = .failure Fault.cancelled ∧ .cancelled ∈ deeds t →
      (∃ d, settlement c = .ok d) ∨
        settlement c = .error Fault.cancelled ∧ .cancelled ∈ deeds t := by
    rintro c (rfl | ⟨rfl, hx⟩)
    · exact .inl ⟨_, rfl⟩
    · exact .inr ⟨rfl, hx⟩
  cases hk.told.reasons r o hm with
  | delivered a v ps o hs hc hp hq ha => exact .inl (hg v ps o ha)
  | accepted c effect hs hx => exact .inl ⟨_, rfl⟩
  | settled y c hs hc => exact hset c (gentle_end h hf hl hr hg hc)
  | refused y f hs =>
    obtain ⟨-, z, rfl, hz⟩ := hk.told.refused r.1 y r.2 f hs
    have hz : z = .finished ∨ z = .failure Fault.cancelled ∧ .cancelled ∈ deeds t :=
      hz.elim (gentle_end h hf hl hr hg) .inr
    -- The channel was closed when the zip had come to its end, or was cancelled.
    refine hset _ ?_
    rcases hz with rfl | ⟨rfl, hx⟩
    · exact .inl rfl
    · exact .inr ⟨rfl, hx⟩

end Gentle

end ResumeOnce.Streams
