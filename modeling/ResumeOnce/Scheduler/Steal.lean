/-!
# Stealing work

Every worker has a deque of its own: it adds and takes at the new end, while an
idle sibling takes from the old end. A thief begins at a random victim, goes
around, and takes half of the first deque that is not empty, rounded up: the
oldest job to run at once, the others onto its own deque, in their order.

* `Randomness.below`: a number below a bound, from a shift register;
* `Deque.stealHalf`: what a thief takes from one victim;
* `steal`: one round of a thief over its victims.
-/

namespace ResumeOnce.Scheduler

/-- The state of a source of random words. -/
structure Randomness where
  state : UInt64
  deriving DecidableEq, Repr, Inhabited

namespace Randomness

/-- The source that begins at a seed, which must not be zero. -/
def ofSeed (seed : UInt64) : Randomness := ⟨if seed = 0 then 1 else seed⟩

/-- The next state of the register. -/
def advance (x : UInt64) : UInt64 :=
  let x := x ^^^ (x <<< 13)
  let x := x ^^^ (x >>> 7)
  x ^^^ (x <<< 17)

/-- A random word and the source behind it. -/
def next (r : Randomness) : UInt64 × Randomness :=
  let x := advance r.state
  (x, ⟨x⟩)

/-- A random number below a bound, and the source behind it. -/
def below (r : Randomness) (bound : Nat) : Nat × Randomness :=
  let (x, r') := r.next
  (x.toNat % bound, r')

end Randomness

/-- The jobs of a worker, oldest first. -/
structure Deque (α : Type u) where
  jobs : List α
  deriving DecidableEq, Repr, Inhabited

namespace Deque

/-- The deque without jobs. -/
def empty : Deque α := ⟨[]⟩

/-- The deque with a job added at the new end. -/
def push (d : Deque α) (job : α) : Deque α := ⟨d.jobs ++ [job]⟩

/-- The newest job and the deque without it. -/
def pop? (d : Deque α) : Option (α × Deque α) :=
  d.jobs.getLast?.map fun job => (job, ⟨d.jobs.dropLast⟩)

/-- Half of the number of jobs, rounded up. -/
def half (d : Deque α) : Nat := (d.jobs.length + 1) / 2

/-- The oldest half of the jobs: the oldest itself, the thief's deque with the others added,
    and what is left to the victim. -/
def stealHalf (victim thief : Deque α) : Option (α × Deque α × Deque α) :=
  match victim.jobs.take victim.half with
  | [] => none
  | first :: others => some (first, ⟨thief.jobs ++ others⟩, ⟨victim.jobs.drop victim.half⟩)

end Deque

/-- What a round of stealing comes to. -/
structure Stolen (α : Type u) where
  job : Option α
  victims : List (Deque α)
  thief : Deque α
  randomness : Randomness

/-- The first of the given victims, by index, that has a job to give. -/
def stealFrom? (victims : List (Deque α)) (thief : Deque α) :
    List Nat → Option (α × Deque α × List (Deque α))
  | [] => none
  | i :: order =>
    match victims[i]?.bind (·.stealHalf thief) with
    | some (job, thief', rest) => some (job, thief', victims.set i rest)
    | none => stealFrom? victims thief order

/-- The victims in the order of a round that begins at one of them. -/
def roundFrom (start count : Nat) : List Nat := (List.range count).map fun i => (start + i) % count

/-- One round of a thief over its victims, from a random one on. -/
def steal (victims : List (Deque α)) (thief : Deque α) (r : Randomness) : Stolen α :=
  if victims.isEmpty then ⟨none, victims, thief, r⟩
  else
    let (start, r') := r.below victims.length
    match stealFrom? victims thief (roundFrom start victims.length) with
    | some (job, thief', victims') => ⟨some job, victims', thief', r'⟩
    | none => ⟨none, victims, thief, r'⟩

end ResumeOnce.Scheduler
