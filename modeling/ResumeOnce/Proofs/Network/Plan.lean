import ResumeOnce.Proofs.Network.Liveness
import ResumeOnce.Proofs.Network.Mapping
import ResumeOnce.Proofs.Network.Sourcing

/-!
# Streams of streams

Streams are built of sources by zips, selections and merges, one in another. Whatever is
built so is never stuck: as long as it is not over, its downstream has to answer an event, or
some task at some depth is runnable.

* `System.zip`, `System.select`, `System.merge`: plain combinations as streams;
* `Plan`, `Plan.system`: how a stream is built, and the stream that is built so;
* `Plan.lively`: it keeps to the rules, and is never stuck;
* `never_stuck`: what every run comes to.
-/

namespace ResumeOnce.Network

open Streams

variable {α β γ : Type}

/-! ## Plain combinations -/

/-- The zip of two streams. -/
def System.zip (left : System α) (right : System β) : System (α × β) :=
  combine (.zip α β) (fun | .left => left | .right => right) [.left, .right]

/-- The selection of two streams. -/
def System.select (left : System α) (right : System β) : System (Either α β) :=
  combine (.select α β) (fun | .left => left | .right => right) [.left, .right]

/-- The merge of some streams. There is nothing to drive for none of them. -/
def System.merge : {n : Nat} → (Fin n → System α) → System α
  | 0, _ => source (.ofList []) .finished
  | n + 1, feeders => combine (.merge α (n + 1)) feeders (List.finRange (n + 1))

/-- Plain combinations do not forget whether the downstream has ended them. -/
theorem remembers (p : Plain) : p.combiner.Remembers := by
  cases p <;> exact fun _ _ => rfl

/-- A plain combination of streams that are never stuck is never stuck. -/
theorem lively_plain (p : Plain) {S : (i : p.combiner.Feeder) → System (p.combiner.Input i)}
    (i : p.combiner.Feeder) (hl : ∀ i, Lively (S i)) (order : List p.combiner.Feeder) :
    Lively (System.combine p.combiner S order) :=
  have : Nonempty p.combiner.Feeder := ⟨i⟩
  lively_combine p.tally (remembers p) hl order

theorem lively_zip {l : System α} {r : System β} (hl : Lively l) (hr : Lively r) :
    Lively (l.zip r) := by
  refine lively_plain (.zip α β) Side.left (fun i => ?_) _
  cases i with
  | left => exact hl
  | right => exact hr

theorem lively_select {l : System α} {r : System β} (hl : Lively l) (hr : Lively r) :
    Lively (l.select r) := by
  refine lively_plain (.select α β) Side.left (fun i => ?_) _
  cases i with
  | left => exact hl
  | right => exact hr

theorem lively_merge {n : Nat} {feeders : Fin n → System α} (h : ∀ i, Lively (feeders i)) :
    Lively (System.merge feeders) := by
  cases n with
  | zero => exact lively_source _ .finished
  | succ n => exact lively_plain (.merge α (n + 1)) (0 : Fin (n + 1)) h _

/-! ## Plans -/

/-- How a stream is built. -/
inductive Plan : Type → Type 1 where
  /-- The values of a supply. -/
  | values {σ α : Type} (supply : Supply σ α) : Plan α
  /-- Nothing but a failure. -/
  | fail {α : Type} (f : Fault) : Plan α
  | map {α β : Type} (g : α → β) (plan : Plan α) : Plan β
  | zip {α β : Type} (left : Plan α) (right : Plan β) : Plan (α × β)
  | select {α β : Type} (left : Plan α) (right : Plan β) : Plan (Either α β)
  | merge {α : Type} {n : Nat} (feeders : Fin n → Plan α) : Plan α

namespace Plan

/-- One value. -/
def just (a : α) : Plan α := values (.ofList [a])

/-- No value. -/
def empty : Plan α := values (.ofList [])

/-- The triples of the values of three streams. -/
def zip3 (a : Plan α) (b : Plan β) (c : Plan γ) : Plan (α × β × γ) :=
  ((a.zip b).zip c).map fun v => (v.1.1, v.1.2, v.2)

/-- The stream of a plan, subscribed to. -/
def system : {α : Type} → Plan α → System α
  | _, values supply => .source supply .finished
  | α, fail f => .source (.ofList ([] : List α)) (.failure f)
  | _, map g plan => plan.system.map g
  | _, zip left right => left.system.zip right.system
  | _, select left right => left.system.select right.system
  | _, merge feeders => .merge fun i => (feeders i).system

/-- Whatever is built of sources keeps to the rules, and is never stuck. -/
theorem lively (p : Plan α) : Lively p.system := by
  induction p with
  | values supply => exact lively_source supply .finished
  | fail f => exact lively_source _ (.failure f)
  | map g p ih => exact lively_map ih g
  | zip l r hl hr => exact lively_zip hl hr
  | select l r hl hr => exact lively_select hl hr
  | merge feeders ih => exact lively_merge ih

end Plan

/-- Streams built of sources by zips, selections and merges are never stuck. Whatever their
    downstream answers, whenever they are cancelled, and in which order ever their tasks take
    their steps: a stream that is not over waits for its downstream, or some task of it is
    runnable and goes on. -/
theorem never_stuck (p : Plan α) {x : Standing} {s : p.system.State} (h : Reaches p.system x s)
    (ho : x.finished = false) :
    x.calling = true ∨ p.system.Runnable s ∧ ∃ m s', p.system.Step s m s' := by
  rcases p.lively.live h with hx | hx | ⟨m, s', hs⟩
  · exact absurd (ho.symm.trans hx) (by simp)
  · exact .inl hx
  · exact .inr ⟨p.lively.runs hs, m, s', hs⟩

/-- A selection is cancelled while it waits for the first triple of three streams, the third of
    which has sent its value. -/
theorem never_stuck_cancelled : ∃ (p : Plan (Either (Nat × Nat × Nat) Nat)) (x : Standing)
    (s : p.system.State),
    p = (Plan.zip3 (.just 1) (.just 2) (.just 3)).select .empty ∧ Reaches p.system x s ∧
      x = ⟨false, false, true, false⟩ ∧
      (x.calling = true ∨ p.system.Runnable s ∧ ∃ m s', p.system.Step s m s') := by
  have start : Reaches ((Plan.zip3 (.just 1) (.just 2) (.just 3)).select
      (.empty : Plan Nat)).system _ _ := .start _
  have launched := start.move (.launch ⟨rfl, rfl⟩ rfl)
  have begun := launched.move (.fold ⟨rfl, rfl, rfl⟩ (.start rfl) trivial)
  have looked := begun.move (.fold ⟨rfl, rfl, rfl⟩ (.tacit (.checkpoint rfl)) trivial)
  have read := looked.move (.fold ⟨rfl, rfl, rfl⟩ (.tacit (.read 0 rfl rfl)) trivial)
  have parked := read.move (.park ⟨rfl, rfl, rfl⟩ rfl)
  have attending := parked.move (.attend ⟨rfl, rfl⟩ rfl rfl rfl)
  -- The triples are the pairs of the pairs of two streams and the values of the third.
  have zipping := attending.move
    (Node.Step.feeder (C := .select (Nat × Nat × Nat) Nat) (i := Side.left) rfl
      ⟨.tacit, Node.Step.launch ⟨rfl, rfl⟩ rfl, rfl⟩)
  have drawn := zipping.move
    (Node.Step.feeder (C := .select (Nat × Nat × Nat) Nat) (i := Side.left) rfl
      ⟨.tacit, Node.Step.feeder (C := .zip (Nat × Nat) Nat) (i := Side.right) rfl
        (Sourcing.Step.look ⟨rfl, rfl⟩ rfl), rfl⟩)
  have sent := drawn.move
    (Node.Step.feeder (C := .select (Nat × Nat × Nat) Nat) (i := Side.left) rfl
      ⟨.tacit, Node.Step.receive (C := .zip (Nat × Nat) Nat) (i := Side.right) rfl
        (Sourcing.Step.call ⟨rfl, rfl⟩ rfl rfl), rfl⟩)
  have cancelled := sent.cancel
  exact ⟨_, _, _, rfl, cancelled, rfl, never_stuck _ cancelled rfl⟩

end ResumeOnce.Network
