import ResumeOnce.Proofs.Network.System

/-!
# Streams whose values are changed

Changing the values of a stream takes no task: the events are changed as the stream calls its
downstream.

* `System.map`: the stream of the changed values;
* `run_of_map`: its runs are those of the other one;
* `lively_map`: it is as lively as the other one.
-/

namespace ResumeOnce.Network

open Streams

variable {α β : Type} {S : System α} {g : α → β} {x : Standing} {s : S.State}

/-- What a stream does, with its values changed. -/
def Move.map (g : α → β) : Move α → Move β
  | tacit => tacit
  | calls e => calls (e.map g)
  | ends r => ends r

/-- A stream with its values changed. -/
def System.map (g : α → β) (S : System α) : System β where
  State := S.State
  start := S.start
  Step s m s' := ∃ m₀, S.Step s m₀ s' ∧ m₀.map g = m
  answer := S.answer
  cancel := S.cancel
  Runnable := S.Runnable

theorem isCompletion_map (g : α → β) (e : Event α) : isCompletion (e.map g) = isCompletion e := by
  cases e <;> rfl

/-- Others know the same of both streams. -/
theorem Standing.after_map (x : Standing) (g : α → β) (m : Move α) :
    x.after (.moved (m.map g)) = x.after (.moved m) := by
  cases m with
  | calls e => rw [Move.map, Standing.after, Standing.after, isCompletion_map]
  | _ => rfl

theorem Reaches.of_map (h : Reaches (S.map g) x s) : Reaches S x s := by
  refine Reaches.invariant (S := S.map g) (P := Reaches S) (.start S) ?_
    (fun o h hx => h.answer hx o) (fun h => h.cancel) h
  rintro x s _ s' h ⟨m, hs, rfl⟩
  rw [Standing.after_map]
  exact h.move hs

/-- What is done by a stream or to it, with its values changed. -/
def Act.map (g : α → β) : Act α → Act β
  | moved m => moved (m.map g)
  | answered o => answered o
  | cancelled => cancelled

/-- A run of a stream whose values are changed is one of the stream, with its values changed. -/
theorem run_of_map {t : List (Act β)} {e : Exposed (S.map g)}
    (h : Run Exposed.Step (.new (S.map g)) t e) :
    ∃ t₀, t = t₀.map (Act.map g) ∧ Run Exposed.Step (.new S) t₀ ⟨e.standing, e.state⟩ := by
  refine h.invariant (P := fun t e => ∃ t₀, t = t₀.map (Act.map g) ∧
    Run Exposed.Step (.new S) t₀ ⟨e.standing, e.state⟩) ⟨[], rfl, .nil⟩ ?_
  rintro t e a e' ⟨t₀, rfl, hr⟩ hs
  cases hs with
  | move hs =>
    obtain ⟨m, hs, rfl⟩ := hs
    rw [Standing.after_map]
    exact ⟨t₀ ++ [.moved m], by rw [List.map_append]; rfl, hr.snoc (.move hs)⟩
  | answer o hx =>
    exact ⟨t₀ ++ [.answered o], by rw [List.map_append]; rfl, hr.snoc (.answer o hx)⟩
  | cancel => exact ⟨t₀ ++ [.cancelled], by rw [List.map_append]; rfl, hr.snoc .cancel⟩

/-- Changing the values of a stream keeps it going. -/
theorem lively_map (h : Lively S) (g : α → β) : Lively (S.map g) where
  runs := by
    rintro s m s' ⟨m₀, hs, -⟩
    exact h.runs hs
  calls := by
    rintro x s e s' hr ⟨m, hs, hm⟩
    cases m with
    | calls e₀ =>
      obtain rfl := Move.calls.inj hm
      rw [isCompletion_map]
      exact h.calls hr.of_map hs
    | _ => cases hm
  ends := by
    rintro x s r s' hr ⟨m, hs, hm⟩
    cases m with
    | ends r₀ => exact h.ends hr.of_map hs
    | _ => cases hm
  live hr := (h.live hr.of_map).imp_right fun hl => hl.imp_right
    fun ⟨m, s', hs⟩ => ⟨m.map g, s', m, hs, rfl⟩

end ResumeOnce.Network
