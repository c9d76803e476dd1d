import Mathlib.Algebra.BigOperators.Group.Finset.Piecewise
import Mathlib.Logic.Function.Basic

/-!
# Interleavings

A list interleaves a family of lists if it consists of all their elements, each of them
once, and those of one list in their own order. The elements are tagged as they come in,
so that lists of different types can be interleaved.

* `Interleaving`: what a family of lists is interleaved to;
* `Interleaving.filterMap_eq`: what comes from one of the lists is that list;
* `Interleaving.length_eq`: no element is lost, and none is doubled.
-/

namespace ResumeOnce.Streams

variable {ι : Type u} [DecidableEq ι] {α : ι → Type v} {ν : Type w} {tag : (i : ι) → α i → ν}

/-- What a family of lists is interleaved to: one after the other, an element is taken behind
    those that were taken from its list before. -/
inductive Interleaving (tag : (i : ι) → α i → ν) : ((i : ι) → List (α i)) → List ν → Prop
  | nil : Interleaving tag (fun _ => []) []
  | snoc {ls : (i : ι) → List (α i)} {vs : List ν} (i : ι) (a : α i) : Interleaving tag ls vs →
      Interleaving tag (Function.update ls i (ls i ++ [a])) (vs ++ [tag i a])

namespace Interleaving

variable {ls : (i : ι) → List (α i)} {vs : List ν}

/-- What comes from one of the lists, if it can be told, is that list. -/
theorem filterMap_eq (h : Interleaving tag ls vs) {i : ι} {origin : ν → Option (α i)}
    (hs : ∀ a, origin (tag i a) = some a) (ho : ∀ j ≠ i, ∀ a, origin (tag j a) = none) :
    vs.filterMap origin = ls i := by
  induction h with
  | nil => rfl
  | snoc j a _ ih =>
    rw [List.filterMap_append, ih]
    by_cases hj : j = i
    · subst hj
      rw [Function.update_self, List.filterMap_cons, hs, List.filterMap_nil]
    · rw [Function.update_of_ne (Ne.symm hj), List.filterMap_cons, ho j hj, List.filterMap_nil,
        List.append_nil]

/-- There are as many elements as in all the lists together. -/
theorem length_eq [Fintype ι] (h : Interleaving tag ls vs) :
    vs.length = ∑ i, (ls i).length := by
  induction h with
  | nil => simp
  | @snoc ls vs j a _ ih =>
    have hu : ∀ i, (Function.update ls j (ls j ++ [a]) i).length =
        (ls i).length + if i = j then 1 else 0 := by
      intro i
      by_cases hi : i = j
      · subst hi
        simp
      · simp [hi]
    simp [hu, ih, Finset.sum_add_distrib]

/-- The next element of a list comes behind all that was taken. -/
theorem take_succ (n : ι → Nat) (i : ι) {a : α i} {k : Nat} (hk : k = n i)
    (ha : (ls i)[k]? = some a) (h : Interleaving tag (fun j => (ls j).take (n j)) vs)
    {m : ι → Nat} (hm : ∀ j, m j = n j + if j = i then 1 else 0) :
    Interleaving tag (fun j => (ls j).take (m j)) (vs ++ [tag i a]) := by
  subst hk
  have hu : (fun j => (ls j).take (m j)) =
      Function.update (fun j => (ls j).take (n j)) i ((ls i).take (n i) ++ [a]) := by
    funext j
    by_cases hj : j = i
    · subst hj
      rw [Function.update_self, hm, if_pos rfl, List.take_add_one, ha]
      rfl
    · rw [Function.update_of_ne hj, hm, if_neg hj, Nat.add_zero]
  rw [hu]
  exact h.snoc i a

end Interleaving

end ResumeOnce.Streams
