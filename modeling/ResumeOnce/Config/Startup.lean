import ResumeOnce.Config.Builder
import ResumeOnce.Config.Environment

/-!
# Starting up

What is seen of a pool of workers that is started with some settings: the threads,
which tell when they start and stop, the leak policy that holds from then on, and
the shutdown once nobody holds the pool any more. A pool that nobody built is
started with settings from the environment, or with the defaults if those cannot
be used.

* `Startup.ofSettings`: a pool that is built;
* `Startup.implicit`: the pool that nobody built.
-/

namespace ResumeOnce

open Text

/-- What is seen of a pool of workers. -/
structure Startup where
  settings : Settings
  /-- The names of the threads, sorted. -/
  names : List String
  /-- The leak policy that holds once the pool runs. -/
  policy : LeakPolicy

namespace Startup

/-- Stacks of this size, `2 ^ 47` bytes, or more cannot be had. -/
def stackBound : Nat := 140737488355328

/-- The fault of a pool whose threads cannot be started. -/
def threadFault : Fault :=
  Fault.internal "failed to spawn worker thread"

/-- The names of the threads of a pool, sorted. -/
def threadNames (s : Settings) : List String :=
  ((List.range s.workers).map s.threadName).mergeSort fun a b => a < b || a == b

/-- A pool that is built with settings, where a leak policy holds already; the fault is the
    one of a pool whose threads cannot be started. -/
def ofSettings (settings : Settings) (policy : LeakPolicy) : Outcome Startup :=
  let s := settings.normalized
  if stackBound ≤ s.stackSize then .error threadFault
  else .ok ⟨s, threadNames s, s.leakPolicy.getD policy⟩

/-- The number of threads that tell of their start or their stop. -/
def told (u : Startup) (tells : Bool) : Nat := if tells then u.settings.workers else 0

/-- Whether the pool has shut down, with `holders` left who hold it. -/
def isShutdown (holders : Nat) : Bool := holders == 0

/-- The full text of a pool. -/
def describe (u : Startup) : String :=
  record "Runtime" [("config", u.settings.describe), ("queued", toString 0)]

/-- The full text of a handle of a pool with `holders` who hold it. -/
def describeHandle (holders : Nat) : String :=
  record "RuntimeHandle" [("shutdown", toString (isShutdown holders))]

/-- What the threads of the pool that nobody built are called. -/
def implicitLabel : String := "foldsync-default"

/-- The settings of the pool that nobody built, on a machine for some workers. -/
def implicit (env : Environment) (workers : Nat) : Settings :=
  let plain := { Settings.standard workers with threadLabel := implicitLabel }
  match env.override plain with
  | .ok s => s.normalized
  | .error _ => plain.normalized

/-- The leak policy that holds once the pool that nobody built runs: the one of its settings,
    or the one that was chosen before, or the one of the environment. -/
def implicitPolicy (env : Environment) (chosen : Option LeakPolicy) (s : Settings) : LeakPolicy :=
  LeakPolicy.resolve (s.leakPolicy.orElse fun _ => chosen) (env .leakPolicy)

end Startup

end ResumeOnce
