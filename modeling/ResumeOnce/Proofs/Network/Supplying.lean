import ResumeOnce.Proofs.Network.Reciting

/-!
# Sources recite what they draw

A source pushes the values that it draws from its supply, one after the other, and then its
completion. So it recites the script of these values.

* `Supply.drawn`, `Supplies`: what is drawn from a supply, and a script that tells it;
* `Sourcing.Reaching`: how far a source has come;
* `recites_source`, `recites_ofList`, `recites_ofFn`: a source recites its supply.
-/

namespace ResumeOnce.Streams

variable {σ α : Type} {supply : Supply σ α} {x : Script α} {c : Completion} {k : Nat}

/-- What is drawn from a supply with a number, and what is left then. -/
def Supply.drawn (supply : Supply σ α) : Nat → Option (α × σ)
  | 0 => supply.draw supply.state
  | k + 1 => (supply.drawn k).bind fun v => supply.draw v.2

theorem Supply.draw_drop (values : List α) (k : Nat) :
    (Supply.ofList values).draw (values.drop k) =
      values[k]?.map fun a => (a, values.drop (k + 1)) := by
  rw [← List.head?_drop, ← List.tail_drop]
  cases values.drop k <;> rfl

theorem Supply.drawn_ofList (values : List α) (k : Nat) :
    (Supply.ofList values).drawn k = values[k]?.map fun a => (a, values.drop (k + 1)) := by
  induction k with
  | zero => exact Supply.draw_drop values 0
  | succ k ih =>
    rw [Supply.drawn, ih]
    rcases hk : values[k]? with _ | a
    · have hn : values[k + 1]? = none := by
        rw [List.getElem?_eq_none_iff] at hk ⊢
        omega
      rw [hn]
      rfl
    · exact Supply.draw_drop values (k + 1)

/-- The supply of the values of a function, one after the other and without end. -/
def Supply.ofFn (values : Nat → α) : Supply Nat α where
  state := 0
  draw k := some (values k, k + 1)

theorem Supply.drawn_ofFn (values : Nat → α) (k : Nat) :
    (Supply.ofFn values).drawn k = some (values k, k + 1) := by
  induction k with
  | zero => rfl
  | succ k ih =>
    rw [Supply.drawn, ih]
    rfl

/-- Whether a script tells of what is drawn from a supply, with a completion behind. -/
structure Supplies (supply : Supply σ α) (c : Completion) (x : Script α) : Prop where
  value : ∀ k, x.value? k = (supply.drawn k).map Prod.fst
  completion : ∀ c', x.completion? = some c' → c' = c

namespace Supplies

theorem event?_value (h : Supplies supply c x) {a : α} {rest : σ}
    (hk : supply.drawn k = some (a, rest)) : x.event? k = some (.value a) :=
  Script.event?_of_value? (by rw [h.value, hk]; rfl)

/-- When nothing more is drawn, the completion comes. -/
theorem event?_completion (h : Supplies supply c x) (hk : supply.drawn k = none)
    (hb : ∀ j, k = j + 1 → ∃ v, supply.drawn j = some v) : x.event? k = some (.completion c) := by
  have hv := h.value
  cases x with
  | finite values c' =>
    obtain rfl := h.completion c' rfl
    refine Script.event?_of_length (congrArg Nat.cast ?_) rfl
    have hle : values.length ≤ k := by
      rw [← List.getElem?_eq_none_iff]
      exact (hv k).trans (by rw [hk]; rfl)
    rcases k with _ | j
    · exact Nat.le_zero.1 hle
    · obtain ⟨v, hj⟩ := hb j rfl
      have hj : values[j]? = some v.1 := (hv j).trans (by rw [hj]; rfl)
      have hlt := (List.getElem?_eq_some_iff.1 hj).1
      omega
  | endless values =>
    have hn : some (values k) = none := (hv k).trans (by rw [hk]; rfl)
    cases hn

end Supplies

end ResumeOnce.Streams

namespace ResumeOnce.Network

open Streams

variable {σ α : Type} {supply : Supply σ α} {x : Script α} {c : Completion}
  {t : List (Act α)} {y : Standing}

namespace Sourcing

variable {s s' : Sourcing σ α} {n : Nat} {m : Move α}

/-- How far a source has come that has called with so many events: it is about to push the value
    that was drawn with the next number, or waits for the answer to the last one. -/
def Reaching (supply : Supply σ α) (n : Nat) : Source σ α → Option (Slot Unit Demand) → Prop
  | .checkpoint a rest, call => call = none ∧ supply.drawn n = some (a, rest)
  | .push a rest, none => supply.drawn n = some (a, rest)
  | .push a rest, some _ => ∃ j, n = j + 1 ∧ supply.drawn j = some (a, rest)
  | .complete, none => supply.drawn n = none ∧ ∀ j, n = j + 1 → ∃ v, supply.drawn j = some v
  | .complete, some _ => True
  | .settled _, call => call = none

/-- Whoever waits has come as far at any slot. -/
theorem Reaching.slot {source : Source σ α} {slot slot' : Slot Unit Demand}
    (h : Reaching supply n source (some slot)) : Reaching supply n source (some slot') := by
  cases source with
  | checkpoint => exact nomatch h.1
  | push | complete => exact h
  | settled => exact nomatch h

/-- The source that goes on has come to the next number. -/
theorem reaching_draw {s : σ} (hs : supply.drawn n = supply.draw s)
    (hb : ∀ j, n = j + 1 → ∃ v, supply.drawn j = some v) :
    Reaching supply n (Source.draw supply.draw s) none := by
  rw [Source.draw]
  rcases hd : supply.draw s with _ | ⟨a, rest⟩
  · exact ⟨hs.trans hd, hb⟩
  · exact ⟨rfl, hs.trans hd⟩

/-- What holds of a source as long as more is wanted of its values and nobody cancels it. -/
structure Recital (supply : Supply σ α) (x : Script α) (t : List (Act α)) (s : Sourcing σ α) :
    Prop where
  uncancelled : s.cancelled = false
  reaching : Reaching supply (called t).length s.source s.call
  welcomed : ∀ slot, s.call = some slot → slot.taken = false ∧
    ∀ o, slot.result = some o → o = .ok .more
  recited : ∀ k e, (called t)[k]? = some e → x.event? k = some e

namespace Recital

theorem new (supply : Supply σ α) (x : Script α) : Recital supply x [] (.new supply) where
  uncancelled := rfl
  reaching := reaching_draw rfl nofun
  welcomed _ hc := nomatch hc
  recited _ _ hk := nomatch hk

/-- Nothing is said. -/
theorem extend (h : Recital supply x t s) {a : Act α} (ha : called [a] = []) :
    Recital supply x (t ++ [a]) s := by
  have ht : called (t ++ [a]) = called t := by rw [called_append, ha, List.append_nil]
  exact ⟨h.uncancelled, ht ▸ h.reaching, h.welcomed, ht ▸ h.recited⟩

theorem step (h : Recital supply x t s) (hx : Supplies supply c x)
    (hs : Step supply.draw c s m s') : Recital supply x (t ++ [.moved m]) s' := by
  have hr := h.reaching
  cases hs with
  | @look a rest ha hsource =>
    have hg := h.extend (a := .moved .tacit) rfl
    have hr := hg.reaching
    rw [hsource] at hr
    obtain ⟨hc, hd⟩ := hr
    refine { hg with reaching := ?_ }
    rw [checkpoint, h.uncancelled, hc]
    exact hd
  | @call e ha hc he =>
    rw [hc] at hr
    refine ⟨h.uncancelled, ?_, ?_, fun k e' hk => ?_⟩
    · rw [called_append, called_calls, List.length_append]
      rcases hsource : s.source with _ | _ | _ | _ <;> rw [hsource] at he hr <;> cases he
      · exact ⟨_, rfl, hr⟩
      · trivial
    · rintro _ ⟨⟩
      exact ⟨rfl, fun _ ho => by cases ho⟩
    · -- Only the last event is new, and its number is that of the events before.
      rw [called_append, called_calls, getElem?_snoc] at hk
      rcases hk with hk | ⟨rfl, rfl⟩
      · exact h.recited k e' hk
      · rcases hsource : s.source with _ | _ | _ | _ <;> rw [hsource] at he hr <;> cases he
        · exact hx.event?_value hr
        · exact hx.event?_completion hr.1 hr.2
  | @wait slot slot' w ha hc hp =>
    have hg := h.extend (a := .moved .tacit) rfl
    have hr := hg.reaching
    obtain ⟨-, hw⟩ := Slot.poll_pending hp
    refine { hg with reaching := ?_, welcomed := ?_ }
    · rw [hc] at hr
      exact hr.slot
    · rintro _ ⟨⟩
      exact ⟨hw.taken, fun o ho => by cases hw.result.symm.trans ho⟩
  | @take slot slot' w o ha hc hp =>
    have hg := h.extend (a := .moved .tacit) rfl
    have hr := hg.reaching
    obtain ⟨ht, ho⟩ := h.welcomed slot hc
    obtain rfl := ho o (Slot.poll_ready hp ht).1
    refine { hg with reaching := ?_, welcomed := fun _ hs => by cases hs }
    rw [hc] at hr
    revert hr
    cases s.source with
    | checkpoint => exact fun hn => by cases hn.1
    | push a rest =>
      -- More is wanted, so the next value is drawn.
      rintro ⟨j, hj, hd⟩
      rw [hj]
      refine reaching_draw (by rw [Supply.drawn, hd]; rfl) ?_
      rintro _ ⟨⟩
      exact ⟨_, hd⟩
    | complete => exact fun _ => rfl
    | settled => exact fun hn => by cases hn
  | finish ha hsource => exact { h.extend (a := .moved (.ends _)) rfl with }

/-- Whoever answers wants more. -/
theorem answer (h : Recital supply x t s) :
    Recital supply x (t ++ [.answered (.ok .more)]) (s.answer (.ok .more)) := by
  have hg := h.extend (a := .answered (.ok .more)) rfl
  have hr := hg.reaching
  rw [Sourcing.answer]
  rcases hc : s.call with _ | slot
  · exact hg
  · obtain ⟨ht, ho⟩ := h.welcomed slot hc
    rw [hc] at hr
    refine { hg with reaching := hr.slot, welcomed := ?_ }
    rintro _ ⟨⟩
    rcases hn : slot.result with _ | o
    · simp [Slot.complete, Slot.takeWaker, hn, ht]
    · obtain rfl := ho o hn
      simp [Slot.complete, Slot.takeWaker, hn, ht]

end Recital

end Sourcing

/-- A source recites what it draws from its supply. -/
theorem recites_source (hx : Supplies supply c x) : Recites (System.source supply c) x := by
  intro t e h hm hc
  refine (h.invariant (P := fun t e => (∀ o ∈ answered t, o = .ok .more) → .cancelled ∉ t →
    Sourcing.Recital supply x t e.state) (fun _ _ => .new supply x) ?_ hm hc).recited
  intro t e a e' ih hs hm hc
  have hr := ih (fun o ho => hm o (by simp [ho])) fun hn => hc (List.mem_append_left _ hn)
  cases hs with
  | move hs => exact hr.step hx hs
  | answer o hy =>
    obtain rfl := hm o (by simp)
    exact hr.answer
  | cancel => exact absurd (by simp) hc

theorem recites_ofList (values : List α) (c : Completion) :
    Recites (System.source (.ofList values) c) (.finite values c) := by
  refine recites_source ⟨fun k => ?_, fun c' hc => (Option.some.inj hc).symm⟩
  rw [Supply.drawn_ofList, Option.map_map]
  exact (Option.map_id' ..).symm

theorem recites_ofFn (values : Nat → α) (c : Completion) :
    Recites (System.source (.ofFn values) c) (.endless values) := by
  refine recites_source (c := c) ⟨fun k => ?_, nofun⟩
  rw [Supply.drawn_ofFn]
  rfl

end ResumeOnce.Network
