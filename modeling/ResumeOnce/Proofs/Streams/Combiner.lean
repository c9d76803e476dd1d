import Mathlib.Data.Fintype.Card
import ResumeOnce.Channel.Snapshot
import ResumeOnce.Streams.Merge
import ResumeOnce.Streams.Zip

/-!
# Combiners

What zips, selections and merges have in common: some feeders, each of which numbers
its events, and a machine that reduces the events, emits values, and is finalized. An
event comes with the right to answer it, which is known by the feeder and the number.

* `Combiner`: the parts of a combination of streams, with their laws;
* `Combiner.zip`, `Combiner.select`, `Combiner.merge`: the three of them;
* `Plain`: what is combined by default, with room for one event of every feeder.
-/

namespace ResumeOnce.Streams

open Fold (Effect)

/-- One of two sides. -/
inductive Side where
  | left
  | right
  deriving DecidableEq

instance : Fintype Side := ⟨{.left, .right}, fun x => by cases x <;> simp⟩

theorem card_side : Fintype.card Side = 2 := rfl

/-- A way of combining streams. -/
structure Combiner where
  /-- Who feeds it. -/
  Feeder : Type
  [distinct : DecidableEq Feeder]
  [finite : Fintype Feeder]
  /-- The values of a feeder. -/
  Input : Feeder → Type
  /-- The values that it pushes. -/
  Output : Type
  Action : Type
  State : Type
  buffering : Buffering
  initial : State
  /-- The action of the event of a feeder with a number. -/
  inlet : (i : Feeder) → Event (Input i) → Nat → Action
  /-- The right to answer the sender of an action. -/
  sender : Action → Feeder × Nat
  reduce : State → Action → Except (Violation (Feeder × Nat)) (Reduced State (Feeder × Nat))
  emission? : State → Option (Emission State (Feeder × Nat) Output)
  finalize : Machine State → Completion → Machine State × Answers (Feeder × Nat)
  /-- The actions whose senders a state has still to answer. -/
  pending : State → List Action
  /-- Whether the value of a feeder went into a value that was pushed. -/
  carries : (i : Feeder) → Input i → Output → Prop
  /-- Whether a state is ready for an action. -/
  Ready : State → Prop
  admits : ∀ k < Fintype.card Feeder, buffering.admits k
  sender_inlet : ∀ i e k, sender (inlet i e k) = (i, k)
  ready_initial : Ready initial
  pending_initial : pending initial = []
  /-- A state that is ready does not hold a value of every feeder. -/
  ready_free : ∀ {s}, Ready s → Nonempty Feeder → (pending s).length < Fintype.card Feeder
  /-- Nothing is to be emitted by a state that is ready. -/
  emission?_ready : ∀ {s}, Ready s → emission? s = none
  /-- A value is held. -/
  reduce_value : ∀ {s i a k}, Ready s → i ∉ (pending s).map (sender · |>.1) → ∃ s',
    reduce s (inlet i (.value a) k) = .ok ⟨s', [], .none⟩ ∧
      (pending s').Perm (inlet i (.value a) k :: pending s) ∧ (Ready s' ∨ (emission? s').isSome)
  /-- A completion is done with; if it ends the combination, whatever is held is settled. -/
  reduce_completion : ∀ {s i c k}, Ready s → i ∉ (pending s).map (sender · |>.1) →
    (∃ s', reduce s (inlet i (.completion c) k) = .ok ⟨s', [((i, k), .ok .done)], .none⟩ ∧
      pending s' = pending s ∧ Ready s') ∨
    (∃ s', reduce s (inlet i (.completion c) k) =
      .ok ⟨s', ((i, k), .ok .done) :: (pending s).map (sender ·, settlement c), .completion c⟩ ∧
      pending s' = [])
  /-- What is emitted comes of all that is held. -/
  emission?_some : ∀ {s m}, emission? s = some m → Ready m.current ∧ pending m.current = [] ∧
    m.producers = (pending s).map sender ∧
    ∀ i a k, inlet i (.value a) k ∈ pending s → carries i a m.value
  /-- Whatever is held at the end is settled. -/
  finalize_eq : ∀ m c, pending (finalize m c).1.current = [] ∧
    (finalize m c).2 = (pending m.current).map (sender ·, settlement c)

namespace Combiner

attribute [instance] Combiner.distinct Combiner.finite

/-- The right to answer an event: its feeder and its number. -/
abbrev Right (C : Combiner) : Type := C.Feeder × Nat

/-! ## Zips -/

/-- The values of the sides of a zip. -/
abbrev Sides (α β : Type) : Side → Type
  | .left => α
  | .right => β

variable {α β : Type}

/-- The values that a zip holds, as the actions that they came in. -/
def zipPending : Zip α β (Side × Nat) → List (Zip.Action α β (Side × Nat))
  | .hasLeft a ra => [.left (.value a) ra]
  | .hasRight b rb => [.right (.value b) rb]
  | .hasBoth a ra b rb => [.left (.value a) ra, .right (.value b) rb]
  | _ => []

/-- A zip that holds at most one value, of the side that it came from. -/
def ZipReady : Zip α β (Side × Nat) → Prop
  | .nothing => True
  | .hasLeft _ ra => Side.left = ra.1
  | .hasRight _ rb => Side.right = rb.1
  | _ => False

theorem held_zip (z : Zip α β (Side × Nat)) : z.held = (zipPending z).map Zip.Action.sender := by
  cases z <;> rfl

theorem zipPending_terminal (c : Completion) :
    zipPending (Zip.terminal c : Zip α β (Side × Nat)) = [] := by
  cases c <;> rfl

theorem side_held_left {a : α} {r : Side × Nat}
    (h : ZipReady (.hasLeft a r : Zip α β (Side × Nat))) :
    Side.left ∈ (zipPending (.hasLeft a r : Zip α β (Side × Nat))).map (Zip.Action.sender · |>.1) :=
  List.mem_singleton.2 h

theorem side_held_right {b : β} {r : Side × Nat}
    (h : ZipReady (.hasRight b r : Zip α β (Side × Nat))) :
    Side.right ∈
      (zipPending (.hasRight b r : Zip α β (Side × Nat))).map (Zip.Action.sender · |>.1) :=
  List.mem_singleton.2 h

/-- The zip of two streams. -/
def zip (α β : Type) : Combiner where
  Feeder := Side
  Input := Sides α β
  Output := α × β
  Action := Zip.Action α β (Side × Nat)
  State := Zip α β (Side × Nat)
  buffering := .oldest 2
  initial := .nothing
  inlet
    | .left, e, k => .left e (.left, k)
    | .right, e, k => .right e (.right, k)
  sender := Zip.Action.sender
  reduce := Zip.reduce
  emission? := Zip.emission?
  finalize := Zip.finalize
  pending := zipPending
  carries
    | .left, a, v => v.1 = a
    | .right, b, v => v.2 = b
  Ready := ZipReady
  admits k hk := by simpa [Buffering.admits, card_side] using hk
  sender_inlet i e k := by cases i <;> rfl
  ready_initial := trivial
  pending_initial := rfl
  ready_free {s} h _ := by
    cases s with
    | nothing | hasLeft | hasRight => simp [card_side, zipPending]
    | hasBoth | finished | errored => cases h
  emission?_ready {s} h := by cases s <;> first | rfl | cases h
  reduce_value {s i a k} h hi := by
    cases s with
    | nothing => cases i <;> exact ⟨_, rfl, .refl _, .inl rfl⟩
    | hasLeft a' ra =>
      cases i with
      | left => exact absurd (side_held_left h) hi
      | right => exact ⟨_, rfl, .swap .., .inr rfl⟩
    | hasRight b rb =>
      cases i with
      | left => exact ⟨_, rfl, .refl _, .inr rfl⟩
      | right => exact absurd (side_held_right h) hi
    | hasBoth | finished | errored => cases h
  reduce_completion {s i c k} h hi := by
    cases s with
    | nothing => cases i <;> exact .inr ⟨Zip.terminal c, rfl, zipPending_terminal c⟩
    | hasLeft a' ra =>
      cases i with
      | left => exact absurd (side_held_left h) hi
      | right => exact .inr ⟨Zip.terminal c, rfl, zipPending_terminal c⟩
    | hasRight b rb =>
      cases i with
      | left => exact .inr ⟨Zip.terminal c, rfl, zipPending_terminal c⟩
      | right => exact absurd (side_held_right h) hi
    | hasBoth | finished | errored => cases h
  emission?_some {s m} h := by
    cases s with
    | hasBoth a ra b rb =>
      obtain rfl := Option.some.inj h
      refine ⟨trivial, rfl, rfl, ?_⟩
      intro i x k hx
      cases i <;> simp_all [zipPending]
    | _ => cases h
  finalize_eq m c := by
    refine ⟨zipPending_terminal c, ?_⟩
    rw [Zip.finalize, Zip.settle, held_zip, List.map_map]
    rfl

/-! ## Merges -/

section Merging

variable {ι ν : Type}

/-- The value that a merge holds, as the action that it came in. -/
def mergePending : Merge ν (ι × Nat) → List (Merge.Action ν (ι × Nat))
  | .ready a r _ => [⟨.value a, r⟩]
  | _ => []

/-- A merge that holds no value. -/
def MergeReady : Merge ν (ι × Nat) → Prop
  | .nothing _ => True
  | _ => False

theorem held_merge (m : Merge ν (ι × Nat)) :
    m.held = (mergePending m).map Merge.Action.sender := by
  cases m <;> rfl

theorem mergePending_terminal (c : Completion) :
    mergePending (Merge.terminal c : Merge ν (ι × Nat)) = [] := by
  cases c <;> rfl

/-- A merge of streams whose values are tagged as they come in. -/
def merging (ι : Type) [DecidableEq ι] [Fintype ι] (Input : ι → Type) (ν : Type)
    (tag : (i : ι) → Input i → ν) (limit : Nat) (hl : Fintype.card ι ≤ limit) : Combiner where
  Feeder := ι
  Input := Input
  Output := ν
  Action := Merge.Action ν (ι × Nat)
  State := Merge ν (ι × Nat)
  buffering := .oldest limit
  initial := .nothing (Fintype.card ι)
  inlet i e k := ⟨e.map (tag i), i, k⟩
  sender := Merge.Action.sender
  reduce := Merge.reduce
  emission? := Merge.emission?
  finalize := Merge.finalize
  pending := mergePending
  carries i a v := tag i a = v
  Ready := MergeReady
  admits k hk := by simpa [Buffering.admits] using Nat.lt_of_lt_of_le hk hl
  sender_inlet i e k := rfl
  ready_initial := trivial
  pending_initial := rfl
  ready_free {s} h _ := by
    cases s with
    | nothing running => exact Fintype.card_pos
    | ready | finished | errored => cases h
  emission?_ready {s} h := by cases s <;> first | rfl | cases h
  reduce_value {s i a k} h hi := by
    cases s with
    | nothing running => exact ⟨_, rfl, .refl _, .inr rfl⟩
    | ready | finished | errored => cases h
  reduce_completion {s i c k} h hi := by
    cases s with
    | nothing running =>
      cases c with
      | finished =>
        by_cases hr : running - 1 = 0
        · exact .inr ⟨.finished, by simp [Merge.reduce, Event.map, hr, mergePending], rfl⟩
        · exact .inl ⟨.nothing (running - 1), by simp [Merge.reduce, Event.map, hr], rfl, trivial⟩
      | failure f => exact .inr ⟨.errored f, rfl, rfl⟩
    | ready | finished | errored => cases h
  emission?_some {s m} h := by
    cases s with
    | ready v r running =>
      obtain rfl := Option.some.inj h
      refine ⟨trivial, rfl, rfl, ?_⟩
      intro i a k hx
      simp_all [mergePending, Event.map]
    | _ => cases h
  finalize_eq m c := by
    refine ⟨mergePending_terminal c, ?_⟩
    rw [Merge.finalize, held_merge, List.map_map]
    rfl

end Merging

/-- The values of two streams, one by one. -/
def select (α β : Type) : Combiner :=
  merging Side (Sides α β) (Either α β)
    (fun
      | .left => .left
      | .right => .right) 2 (by rw [card_side])

/-- The values of some streams, one by one. -/
def merge (α : Type) (n : Nat) : Combiner :=
  merging (Fin n) (fun _ => α) α (fun _ => id) (max n 1) (by simp)

end Combiner

/-- What is combined, with the room that it has by default. -/
inductive Plain where
  | zip (α β : Type)
  | select (α β : Type)
  | merge (α : Type) (n : Nat)

/-- The combiner of a plain combination. -/
def Plain.combiner : Plain → Combiner
  | zip α β => .zip α β
  | select α β => .select α β
  | merge α n => .merge α n

end ResumeOnce.Streams
