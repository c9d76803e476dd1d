/-!
# Waiting on a thread

A thread that waits for a computation polls it, sleeps until somebody wakes it,
and polls again. A wake that comes before the sleep is not lost. If nobody wakes
the thread, it sleeps for ever.

* `blockOn`: the polls of a waiting thread;
* `Yielder`: a computation that wakes the thread itself for some polls.
-/

namespace ResumeOnce

/-- What a poll comes to: an answer, or waiting, perhaps with a wake on its way. -/
inductive Polled (α : Type u) where
  | ready (answer : α)
  | waiting (woken : Bool)

/-- The answer of a computation that a thread waits for, with up to `n` polls; none if the
    thread would sleep for ever or needs more polls. -/
def blockOn (poll : σ → Polled α × σ) : Nat → σ → Option (α × σ)
  | 0, _ => none
  | n + 1, s =>
    match poll s with
    | (.ready a, s') => some (a, s')
    | (.waiting true, s') => blockOn poll n s'
    | (.waiting false, _) => none

/-- A computation that waits for some polls, waking its thread each time. -/
structure Yielder where
  left : Nat
  polls : Nat

/-- One poll of a yielder. -/
def Yielder.poll (y : Yielder) : Polled Unit × Yielder :=
  match y.left with
  | 0 => (.ready (), { y with polls := y.polls + 1 })
  | n + 1 => (.waiting true, ⟨n, y.polls + 1⟩)

/-- The polls of a thread that waits for a yielder. -/
def Yielder.pollCount (yields : Nat) : Option Nat :=
  (blockOn Yielder.poll (yields + 1) ⟨yields, 0⟩).map fun (_, y) => y.polls

end ResumeOnce
