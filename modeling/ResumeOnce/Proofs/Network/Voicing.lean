import ResumeOnce.Proofs.Network.Brittle
import ResumeOnce.Proofs.Network.Grammar

/-!
# What sources say

Whoever sends an event waits at a slot until it is answered, whatever breaks down in the
meantime. A source sends one event after another, each when the one before is answered.

* `Asked`: an event and the slot of its answer;
* `Sourcing.Voiced`: what a source is about to do in a mood;
* `Sourcing.voice`: a source keeps to the grammar.
-/

namespace ResumeOnce.Network

open Streams

/-! ## Slots -/

section Asked

variable {ω : Type} {m m₀ : Mood} {slot slot' : Slot ω Demand} {a : ω} {w : Option ω}
  {o : Outcome Demand}

/-- The mood of who waits at a slot since it was in a mood. -/
def Mood.upon (m : Mood) (slot : Slot ω Demand) : Mood :=
  match slot.result with
  | none => m
  | some o => m.hears o

/-- Somebody sent an event, and waits at a slot for the answer. -/
structure Asked (m₀ m : Mood) (slot : Slot ω Demand) : Prop where
  untaken : slot.taken = false
  mood : m = m₀.upon slot

namespace Asked

theorem new (m : Mood) : Asked m m (.new : Slot ω Demand) := ⟨rfl, rfl⟩

theorem wait (h : Asked m₀ m slot) (hp : slot.poll a = (slot', w, .pending)) :
    Asked m₀ m slot' := by
  obtain ⟨hn, hg⟩ := Slot.poll_pending hp
  refine ⟨hg.taken, ?_⟩
  rw [h.mood, Mood.upon, Mood.upon, hn, hg.result]

theorem take (h : Asked m₀ m slot) (hp : slot.poll a = (slot', w, .ready o)) :
    m = m₀.hears o := by
  rw [h.mood, Mood.upon, (Slot.poll_ready hp h.untaken).1]

/-- The answer comes. -/
theorem answer (h : Asked m₀ m slot) (hm : m.calling = true) (o : Outcome Demand) :
    Asked m₀ (m.hears o) (slot.complete o).1 := by
  have hmood := h.mood
  rw [Mood.upon] at hmood
  split at hmood
  · rename_i hr
    refine ⟨h.untaken, ?_⟩
    rw [Slot.complete, Slot.takeWaker, Mood.upon, hr, hmood]
    rfl
  · rw [hmood, Mood.calling_hears] at hm
    cases hm

theorem completion? (h : Asked m₀ m slot) : m.completion? = m₀.completion? := by
  rw [h.mood, Mood.upon]
  split
  · rfl
  · exact Mood.completion?_hears _ _

end Asked

end Asked

/-! ## Sources -/

namespace Sourcing

variable {σ α : Type} {draw : σ → Option (α × σ)} {c : Completion} {m : Mood} {a : Move α}
  {s s' : Sourcing σ α}

/-- What a source is about to do in a mood. -/
inductive Voiced (m : Mood) (s : Sourcing σ α) : Prop
  | free (hc : s.call = none) (hm : m = .free)
  | value {a : α} {rest : σ} {slot : Slot Unit Demand} (hs : s.source = .push a rest)
      (hc : s.call = some slot) (h : Asked .waits m slot)
  | completion {slot : Slot Unit Demand} (c : Completion) (hs : s.source = .complete)
      (hc : s.call = some slot) (h : Asked (.last c) m slot)
  | settled {r : Outcome Demand} (hs : s.source = .settled r) (hc : s.call = none)
      (hm : m.calling = false)

namespace Voiced

theorem congr (h : Voiced m s) (hs : s'.source = s.source) (hc : s'.call = s.call) :
    Voiced m s' := by
  cases h with
  | free hc' hm => exact .free (hc.trans hc') hm
  | value hs' hc' h => exact .value (hs.trans hs') (hc.trans hc') h
  | completion c hs' hc' h => exact .completion c (hs.trans hs') (hc.trans hc') h
  | settled hs' hc' hm => exact .settled (hs.trans hs') (hc.trans hc') hm

theorem step (h : Voiced m s) (hs : Step draw c s a s') (ha : ∀ e, a ≠ .calls e) :
    Voiced m s' := by
  cases hs with
  | look hr hsource =>
    cases h with
    | free hc hm => exact .free hc hm
    | value hs | completion c hs | settled hs => cases hsource.symm.trans hs
  | call hr hc he => exact absurd rfl (ha _)
  | wait hr hc hp =>
    cases h with
    | value hs hc' h =>
      cases hc.symm.trans hc'
      exact .value hs rfl (h.wait hp)
    | completion c hs hc' h =>
      cases hc.symm.trans hc'
      exact .completion c hs rfl (h.wait hp)
    | free hc' | settled hs hc' => cases hc.symm.trans hc'
  | @take slot slot' w o hr hc hp =>
    cases h with
    | value hs hc' h =>
      cases hc.symm.trans hc'
      have hm := h.take hp
      rcases o with f | _ | _
      · exact .settled (by rw [hs]; rfl) rfl (hm ▸ rfl)
      · exact .free rfl hm
      · exact .settled (by rw [hs]; rfl) rfl (hm ▸ rfl)
    | completion c hs hc' h =>
      cases hc.symm.trans hc'
      exact .settled (by rw [hs]; rfl) rfl (h.take hp ▸ rfl)
    | free hc' | settled hs hc' => cases hc.symm.trans hc'
  | finish hr hsource => exact h.congr rfl rfl

/-- A source sends an event when it has an answer to the one before. -/
theorem calls (h : Voiced m s) {e : Event α} (hs : Step draw c s (.calls e) s') :
    m = .free ∧ Voiced (.behind e) s' := by
  cases hs with
  | call hr hc he =>
    have hm : m = .free := by
      cases h with
      | free hc hm => exact hm
      | settled hs =>
        rw [hs] at he
        cases he
      | value hs hc' | completion c hs hc' => cases hc.symm.trans hc'
    refine ⟨hm, ?_⟩
    rcases hsource : s.source with _ | ⟨v, rest⟩ | _ | _ <;> rw [hsource] at he <;> cases he
    · exact .value rfl rfl (.new _)
    · exact .completion c rfl rfl (.new _)

theorem answer (h : Voiced m s) (hm : m.calling = true) (o : Outcome Demand) :
    Voiced (m.hears o) (s.answer o) := by
  cases h with
  | free hc hm' =>
    subst hm'
    cases hm
  | settled hs hc hm' => cases hm.symm.trans hm'
  | value hs hc h =>
    rw [Sourcing.answer, hc]
    exact .value hs rfl (h.answer hm o)
  | completion c hs hc h =>
    rw [Sourcing.answer, hc]
    exact .completion c hs rfl (h.answer hm o)

theorem cancel (h : Voiced m s) : Voiced m s.cancel := by
  rw [Sourcing.cancel]
  split
  · exact h
  · exact h.congr rfl rfl

end Voiced

/-- A source keeps to the grammar, also if it may break down. -/
theorem voice (supply : Supply σ α) (c : Completion) :
    Voice (System.frail supply c) fun m s => Voiced m s where
  start := .free rfl rfl
  silent h hs ha := by
    cases hs with
    | work hs => exact h.step hs ha
    | crash f hr => exact h.congr rfl rfl
  calls h hs := by
    cases hs with
    | work hs => exact h.calls hs
  answer o h hm := h.answer hm o
  cancel h := h.cancel

end Sourcing

end ResumeOnce.Network
