import ResumeOnce.Scheduler.Pool

/-!
# Sessions with a pool of held workers

Jobs are put into a pool while all its workers are held; then one worker is let go
and runs until no job is left. A job puts its children onto the deque of the
worker that runs it, and a job that panics harms nobody.

* `Jobs.release`: what one worker runs;
* `Jobs.run`: a session, as the jobs that each release ran.
-/

namespace ResumeOnce.Session

open Scheduler

/-- A job: its name, the jobs that it starts, and whether it panics in the end. -/
inductive Job where
  | mk (name : String) (children : List Job) (panics : Bool)
  deriving Inhabited

namespace Job

/-- The name of a job. -/
def name : Job → String
  | mk n _ _ => n

/-- The jobs that a job starts. -/
def children : Job → List Job
  | mk _ cs _ => cs

/-- The number of jobs that a job comes to, itself included. -/
def weight : Job → Nat
  | mk _ cs _ => 1 + total cs
where
  /-- The number of jobs that a list of jobs comes to. -/
  total : List Job → Nat
    | [] => 0
    | j :: js => weight j + total js

end Job

namespace Jobs

/-- A worker runs up to `n` jobs: their names in order, and the pool behind them. -/
def runUpTo (w : Nat) : Nat → Pool Job → List String × Pool Job
  | 0, p => ([], p)
  | n + 1, p =>
    match p.take? w with
    | none => ([], p)
    | some (job, p') =>
      let (names, last) := runUpTo w n (p'.addAll (some w) job.children)
      (job.name :: names, last)

/-- A worker alone runs until no job is left. -/
def release (p : Pool Job) (w : Nat) : List String × Pool Job :=
  runUpTo w (Job.weight.total p.jobs) p

/-- What can be done with a pool whose workers are held. -/
inductive Command where
  | spawn (origin : Option Nat) (jobs : List Job)
  | release (worker : Nat)

/-- The jobs that each release runs, with the worker, from a pool on. -/
def releases (p : Pool Job) : List Command → List (List (String × Nat))
  | [] => []
  | .spawn origin jobs :: cs => releases (p.addAll origin jobs) cs
  | .release w :: cs =>
    let (names, p') := release p w
    names.map (·, w) :: releases p' cs

/-- A session with some workers, as the jobs that each release runs. -/
def run (workers : Nat) (cs : List Command) : List (List (String × Nat)) :=
  releases (.idle workers) cs

end Jobs

end ResumeOnce.Session
