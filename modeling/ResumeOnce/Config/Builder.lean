import ResumeOnce.Config.Settings

/-!
# Builders

A builder holds settings and changes them choice by choice, the last choice
winning. Some choices begin anew from the defaults.

* `Builder.apply`: one choice;
* `Builder.build`: all choices in order.
-/

namespace ResumeOnce

open Text

/-- What can be chosen while settings are built. -/
inductive Choice where
  /-- Begin anew with one worker. -/
  | currentThread
  /-- Begin anew with some number of workers. -/
  | afresh
  | keep
  | workers (n : Nat)
  | stackSize (n : Nat)
  | threadLabel (s : String)
  | parkTimeout (nanoseconds : Nat)
  | leakPolicy (p : LeakPolicy)
  | tellStart
  | tellStop
  deriving Repr

namespace Builder

/-- The settings behind one choice, where a builder begins with `workers` workers. -/
def apply (workers : Nat) (s : Settings) : Choice → Settings
  | .currentThread => .standard 1
  | .afresh => .standard workers
  | .keep => s
  | .workers n => { s with workers := n }
  | .stackSize n => { s with stackSize := n }
  | .threadLabel t => { s with threadLabel := t }
  | .parkTimeout n => { s with parkTimeout := n }
  | .leakPolicy p => { s with leakPolicy := some p }
  | .tellStart => { s with tellsStart := true }
  | .tellStop => { s with tellsStop := true }

/-- The settings behind all choices in order. -/
def build (workers : Nat) (choices : List Choice) : Settings :=
  choices.foldl (apply workers) (.standard workers)

/-- The full text of a builder. -/
def describe (s : Settings) : String := record "RuntimeBuilder" [("config", s.describe)]

end Builder

end ResumeOnce
