import ResumeOnce.Leak
import ResumeOnce.Text.Elapsed
import ResumeOnce.Text.Described

/-!
# Settings

How tasks are to be run: the number of workers, the size of their stacks, what
their threads are called, how long an idle worker sleeps, the leak policy, and
whether somebody is told when a thread starts and stops. Settings that make no
sense are replaced by the defaults before they are used.

* `Settings.standard`: the defaults;
* `Settings.normalized`: settings that can be used.
-/

namespace ResumeOnce

open Text

/-- How tasks are to be run. -/
structure Settings where
  workers : Nat
  stackSize : Nat
  threadLabel : String
  /-- How long an idle worker sleeps, in nanoseconds. -/
  parkTimeout : Nat
  leakPolicy : Option LeakPolicy
  tellsStart : Bool
  tellsStop : Bool
  deriving DecidableEq, Repr, Inhabited

namespace Settings

/-- What threads are called by default. -/
def standardLabel : String := "foldsync-worker"

/-- The default size of a stack, two mebibytes. -/
def standardStack : Nat := 2 * 1024 * 1024

/-- The nanoseconds of a number of milliseconds. -/
def milliseconds (n : Nat) : Nat := n * 1000000

/-- The default sleep of an idle worker, ten milliseconds. -/
def standardTimeout : Nat := milliseconds 10

/-- The default settings with a number of workers. -/
def standard (workers : Nat) : Settings :=
  ⟨workers, standardStack, standardLabel, standardTimeout, none, false, false⟩

/-- The settings with the defaults in place of what cannot be used. -/
def normalized (s : Settings) : Settings :=
  { s with
    workers := if s.workers = 0 then 1 else s.workers
    stackSize := if s.stackSize = 0 then standardStack else s.stackSize
    threadLabel := if s.threadLabel.isEmpty then standardLabel else s.threadLabel
    parkTimeout := if s.parkTimeout = 0 then standardTimeout else s.parkTimeout }

/-- The full text of settings. -/
def describe (s : Settings) : String :=
  record "RuntimeConfig"
    [("worker_threads", toString s.workers),
      ("thread_stack_size", toString s.stackSize),
      ("thread_name_prefix", quoted s.threadLabel),
      ("park_timeout", elapsed s.parkTimeout),
      ("leak_policy", optional LeakPolicy.name s.leakPolicy),
      ("on_thread_start", toString s.tellsStart),
      ("on_thread_stop", toString s.tellsStop)]

/-- The name of the thread of a worker. -/
def threadName (s : Settings) (worker : Nat) : String := s.threadLabel ++ "-" ++ toString worker

end Settings

end ResumeOnce
