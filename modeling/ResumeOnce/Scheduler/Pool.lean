import ResumeOnce.Scheduler.Steal

/-!
# Pools of workers

A pool has a deque for each worker and one queue for all. What is added from a
worker goes onto its deque, and what is added from elsewhere into the common
queue. A worker takes the newest job of its own deque, or else the oldest of the
common queue, or else it steals.

* `Pool.add`: a job added from a worker or from elsewhere;
* `Pool.take?`: the next job of a worker.
-/

namespace ResumeOnce.Scheduler

/-- The workers' deques and sources of random words, and the queue for all of them. -/
structure Pool (α : Type u) where
  deques : List (Deque α)
  randomness : List Randomness
  common : List α
  deriving Inhabited

namespace Pool

/-- A pool of workers without jobs, each with a seed of its own. -/
def idle (workers : Nat) : Pool α :=
  ⟨List.replicate workers .empty,
    (List.range workers).map fun i => .ofSeed (UInt64.ofNat (i + 1)), []⟩

/-- The deque of a worker. -/
def deque (p : Pool α) (w : Nat) : Deque α := p.deques.getD w .empty

/-- The pool with a job added by a worker, or from elsewhere. -/
def add (p : Pool α) (origin : Option Nat) (job : α) : Pool α :=
  match origin with
  | some w => { p with deques := p.deques.set w ((p.deque w).push job) }
  | none => { p with common := p.common ++ [job] }

/-- The pool with jobs added one after another. -/
def addAll (p : Pool α) (origin : Option Nat) (jobs : List α) : Pool α :=
  jobs.foldl (·.add origin) p

/-- The next job of a worker and the pool without it. -/
def take? (p : Pool α) (w : Nat) : Option (α × Pool α) :=
  match (p.deque w).pop? with
  | some (job, rest) => some (job, { p with deques := p.deques.set w rest })
  | none =>
    match p.common with
    | job :: common => some (job, { p with common })
    | [] =>
      let s := steal (p.deques.eraseIdx w) (p.deque w) (p.randomness.getD w (.ofSeed 1))
      s.job.map fun job =>
        (job, { p with
          deques := s.victims.insertIdx w s.thief
          randomness := p.randomness.set w s.randomness })

/-- The jobs of all queues. -/
def jobs (p : Pool α) : List α := p.deques.flatMap Deque.jobs ++ p.common

end Pool

end ResumeOnce.Scheduler
