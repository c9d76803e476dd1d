import Mathlib.Data.ENat.Lattice
import Mathlib.Data.List.Induction
import ResumeOnce.Streams.Event

/-!
# Scripts

What a feeder has to send: some values and then a completion, or values without end. The
events of a script are counted from zero.

* `Script`: the values and the completion of a feeder;
* `Script.event?`: the event with a number;
* `pair?`, `pairs`: the values of two scripts, taken together;
* `Script.zip`: what a zip of two scripts has to send;
* `triple?`, `triples`: the values of three scripts, taken together.
-/

namespace ResumeOnce.Streams

/-- What a feeder has to send. -/
inductive Script (α : Type) where
  | finite (values : List α) (c : Completion)
  | endless (values : Nat → α)

namespace Script

variable {α : Type} {x : Script α} {k : Nat}

/-- The number of the values. -/
def length : Script α → ℕ∞
  | finite values _ => values.length
  | endless _ => ⊤

/-- The completion behind the values. -/
def completion? : Script α → Option Completion
  | finite _ c => some c
  | endless _ => none

/-- The value with a number. -/
def value? : Script α → Nat → Option α
  | finite values _, k => values[k]?
  | endless values, k => some (values k)

/-- The event with a number: a value, or the completion behind the last of them. -/
def event? : Script α → Nat → Option (Event α)
  | finite values c, k => if k = values.length then some (.completion c) else values[k]?.map .value
  | endless values, k => some (.value (values k))

theorem value?_of_event? {a : α} (h : x.event? k = some (.value a)) : x.value? k = some a := by
  cases x with
  | finite values c =>
    rw [event?] at h
    split at h
    · cases h
    · simpa [value?] using h
  | endless values => simpa [event?, value?] using h

/-- The completion comes behind all the values. -/
theorem length_of_event? {c : Completion} (h : x.event? k = some (.completion c)) :
    x.length = k ∧ x.completion? = some c := by
  cases x with
  | finite values c' =>
    rw [event?] at h
    split at h
    · cases h
      subst k
      exact ⟨rfl, rfl⟩
    · simp at h
  | endless values => simp [event?] at h

theorem lt_length {a : α} (h : x.value? k = some a) : k < x.length := by
  cases x with
  | finite values c =>
    obtain ⟨hk, -⟩ := List.getElem?_eq_some_iff.1 h
    exact Nat.cast_lt.2 hk
  | endless values => exact ENat.natCast_lt_top k

theorem event?_of_value? {a : α} (h : x.value? k = some a) : x.event? k = some (.value a) := by
  cases x with
  | finite values c =>
    obtain ⟨hk, -⟩ := List.getElem?_eq_some_iff.1 h
    rw [event?, if_neg hk.ne, show values[k]? = some a from h, Option.map_some]
  | endless values => exact congrArg (Option.map Event.value) h

theorem event?_of_length {c : Completion} (hk : x.length = k) (hc : x.completion? = some c) :
    x.event? k = some (.completion c) := by
  cases x with
  | finite values c' =>
    obtain rfl := Option.some.inj hc
    rw [event?, if_pos (Nat.cast_injective hk).symm]
  | endless values => cases hc

/-- A script with as many values as some number has a completion. -/
theorem completion?_of_length (hk : x.length = k) : ∃ c, x.completion? = some c := by
  cases x with
  | finite values c => exact ⟨c, rfl⟩
  | endless values => exact absurd hk (ENat.top_ne_natCast k)

/-- Whether a script does not fail. -/
def Finishes (x : Script α) : Prop := ∀ c, x.completion? = some c → c = .finished

end Script

variable {α β : Type} {left : Script α} {right : Script β}

/-- The values with a number, if both scripts have one. -/
def pair? (left : Script α) (right : Script β) (k : Nat) : Option (α × β) := do
  return (← left.value? k, ← right.value? k)

/-- The pairs of two scripts with the numbers below a bound. -/
def pairs (left : Script α) (right : Script β) (n : Nat) : List (α × β) :=
  (List.range n).filterMap (pair? left right)

theorem pair?_eq_some {k : Nat} {v : α × β} :
    pair? left right k = some v ↔ left.value? k = some v.1 ∧ right.value? k = some v.2 := by
  obtain ⟨a, b⟩ := v
  simp [pair?, Option.bind_eq_some_iff]

/-- Values that are pairs at their places are the first pairs. -/
theorem eq_pairs {vs : List (α × β)} (h : ∀ k v, vs[k]? = some v → pair? left right k = some v) :
    vs = pairs left right vs.length := by
  induction vs using List.reverseRecOn with
  | nil => rfl
  | append_singleton vs v ih =>
    have hp : pair? left right vs.length = some v := h _ v (by simp)
    have hi := ih fun k w hk => h k w (by
      rw [List.getElem?_append_left (List.getElem?_eq_some_iff.1 hk).1]
      exact hk)
    rw [List.length_append, List.length_singleton, pairs, List.range_succ, List.filterMap_append,
      ← pairs, ← hi]
    simp [hp]

theorem length_le_of_pairs {vs : List (α × β)}
    (h : ∀ k v, vs[k]? = some v → pair? left right k = some v) :
    vs.length ≤ left.length ∧ vs.length ≤ right.length := by
  cases hn : vs.length with
  | zero => exact ⟨by simp, by simp⟩
  | succ n =>
    have hv : vs[n]? = some vs[n] := List.getElem?_eq_getElem (by omega)
    obtain ⟨hl, hr⟩ := pair?_eq_some.1 (h n _ hv)
    exact ⟨Order.add_one_le_of_lt (Script.lt_length hl),
      Order.add_one_le_of_lt (Script.lt_length hr)⟩

/-! ## What a zip has to send -/

namespace Script

/-- The values of two scripts that do not fail, taken together. -/
def zip : Script α → Script β → Script (α × β)
  | finite as _, finite bs _ => finite (as.zip bs) .finished
  | finite as _, endless right => finite (as.zipIdx.map fun v => (v.1, right v.2)) .finished
  | endless left, finite bs _ => finite (bs.zipIdx.map fun v => (left v.2, v.1)) .finished
  | endless left, endless right => endless fun k => (left k, right k)

theorem value?_zip (left : Script α) (right : Script β) (k : Nat) :
    (left.zip right).value? k = pair? left right k := by
  refine Option.ext fun v => ?_
  rw [pair?_eq_some]
  obtain ⟨a, b⟩ := v
  cases left with
  | finite as c =>
    cases right with
    | finite bs d => exact List.getElem?_zip_eq_some
    | endless right => simp [zip, value?]
  | endless left =>
    cases right with
    | finite bs d => simp [zip, value?, and_comm]
    | endless right => simp [zip, value?]

theorem length_zip (left : Script α) (right : Script β) :
    (left.zip right).length = min left.length right.length := by
  cases left with
  | finite as c =>
    cases right with
    | finite bs d => simpa [zip, length] using Nat.mono_cast.map_min
    | endless right => simp [zip, length]
  | endless left => cases right <;> simp [zip, length]

theorem finishes_zip (left : Script α) (right : Script β) : (left.zip right).Finishes := by
  intro c hc
  cases left <;> cases right <;> cases hc <;> rfl

end Script

section Triples

variable {γ : Type} {a : Script α} {b : Script β} {c : Script γ}

/-- The values with a number, if all three scripts have one. -/
def triple? (a : Script α) (b : Script β) (c : Script γ) (k : Nat) : Option (α × β × γ) := do
  return (← a.value? k, ← b.value? k, ← c.value? k)

/-- The triples of three scripts with the numbers below a bound. -/
def triples (a : Script α) (b : Script β) (c : Script γ) (n : Nat) : List (α × β × γ) :=
  (List.range n).filterMap (triple? a b c)

/-- Triples are pairs of pairs. -/
theorem map_pairs (a : Script α) (b : Script β) (c : Script γ) (n : Nat) :
    (pairs (a.zip b) c n).map (fun v => (v.1.1, v.1.2, v.2)) = triples a b c n := by
  rw [pairs, List.map_filterMap, triples]
  refine List.filterMap_congr fun k _ => ?_
  rw [pair?, Script.value?_zip, pair?, triple?]
  cases a.value? k <;> cases b.value? k <;> cases c.value? k <;> rfl

end Triples

end ResumeOnce.Streams
