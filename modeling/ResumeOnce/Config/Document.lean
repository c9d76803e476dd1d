import ResumeOnce.Config.Fault
import ResumeOnce.Config.Settings
import ResumeOnce.Toml.Document

/-!
# Settings from a document

A document may hold a table on the scheduler and one on synchronisation. Keys
that mean nothing are passed over, but a value of the wrong kind, or one out of
range, spoils the document. Instead of a table there may be a list of its values,
in order and complete.

* `DocumentSettings.ofText`: what a document says;
* `DocumentSettings.applyTo`: the settings with that in place.
-/

namespace ResumeOnce

open Text

/-- What a document says on each setting. -/
structure DocumentSettings where
  workers : Option Nat
  stackSize : Option Nat
  threadLabel : Option String
  /-- The sleep of an idle worker, in milliseconds. -/
  parkTimeout : Option Nat
  leakPolicy : Option LeakPolicy
  deriving DecidableEq, Repr, Inhabited

namespace DocumentSettings

open Toml

/-- A count: an integer that is not negative. -/
def count? : Value → Option Nat
  | .integer n => if 0 ≤ n then some n.toNat else none
  | _ => none

/-- A text. -/
def text? : Value → Option String
  | .text s => some s
  | _ => none

/-- A leak policy: its word, or a table with the word as its only key and nothing in it. -/
def policy? : Value → Option LeakPolicy
  | .text s => LeakPolicy.ofWord? s
  | .table [(key, .table [])] => LeakPolicy.ofWord? key
  | .table [(key, .list [])] => LeakPolicy.ofWord? key
  | _ => none

/-- The values of a table, or of the list in its place, under the given keys. A list must
    hold a value for each; a moment stands for a table with no key that means something. -/
def fields? (keys : List String) : Value → Option (List (Option Value))
  | .table entries => some (keys.map fun key => entries.lookup key)
  | .list items =>
    if items.length < keys.length then none
    else some (keys.zipWith (fun _ v => some v) items)
  | .moment _ => some (keys.map fun _ => none)
  | _ => none

/-- What a value under a key says, if it is there, given how to read it. -/
def said (read : Value → Option α) : Option Value → Option (Option α)
  | none => some none
  | some v => (read v).map some

/-- What a document on nothing says. -/
def silent : DocumentSettings := ⟨none, none, none, none, none⟩

/-- What a document says with the values of the table on the scheduler. -/
def withScheduler (d : DocumentSettings) (v : Value) : Option DocumentSettings := do
  match ← fields? ["worker_threads", "thread_stack_size", "thread_name_prefix",
      "park_timeout_ms"] v with
  | [workers, stackSize, threadLabel, parkTimeout] =>
    return { d with
      workers := ← said count? workers
      stackSize := ← said count? stackSize
      threadLabel := ← said text? threadLabel
      parkTimeout := ← said count? parkTimeout }
  | _ => none

/-- What a document says with the values of the table on synchronisation. -/
def withSync (d : DocumentSettings) (v : Value) : Option DocumentSettings := do
  match ← fields? ["leak_policy"] v with
  | [leakPolicy] => return { d with leakPolicy := ← said policy? leakPolicy }
  | _ => none

/-- What the table of a whole document says. -/
def ofValue? (v : Value) : Option DocumentSettings :=
  match v with
  | .table entries => do
    let d ← (entries.lookup "scheduler").elim (some silent) silent.withScheduler
    (entries.lookup "sync").elim (some d) d.withSync
  | _ => none

/-- What the text of a document says. -/
def ofText (s : String) : Except ConfigFault DocumentSettings :=
  match (document? s).bind ofValue? with
  | some d => .ok d
  | none => .error (.document "not a settings document")

/-- The settings with what a document says in place. -/
def applyTo (d : DocumentSettings) (s : Settings) : Settings :=
  { s with
    workers := d.workers.getD s.workers
    stackSize := d.stackSize.getD s.stackSize
    threadLabel := d.threadLabel.getD s.threadLabel
    parkTimeout := (d.parkTimeout.map Settings.milliseconds).getD s.parkTimeout
    leakPolicy := d.leakPolicy.orElse fun _ => s.leakPolicy }

/-- The full text of what a document says. -/
def describe (d : DocumentSettings) : String :=
  record "RuntimeTomlConfig"
    [("scheduler", record "SchedulerToml"
        [("worker_threads", optional toString d.workers),
          ("thread_stack_size", optional toString d.stackSize),
          ("thread_name_prefix", optional quoted d.threadLabel),
          ("park_timeout_ms", optional toString d.parkTimeout)]),
      ("sync", record "SyncToml" [("leak_policy", optional LeakPolicy.name d.leakPolicy)])]

end DocumentSettings

end ResumeOnce
