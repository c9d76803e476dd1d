import ResumeOnce.Completion
import ResumeOnce.Datum

/-!
# What a script sees

A command has an answer, and what happens in the system is logged as it happens.

* `Answer`: what a command answers;
* `Entry`: what is logged.
-/

namespace ResumeOnce.Script

/-- What a command answers. -/
inductive Answer where
  | nothing
  | done
  | pending
  /-- Somebody else waits for the value. -/
  | awaited
  | flag (b : Bool)
  | count (n : Nat)
  | text (s : String)
  | outcome (o : Outcome Datum)
  | refused (f : Fault)
  | returned (r : Refusal Datum)
  | values (values : List Datum)
  | channelState (size readers : Nat) (completion : Option Completion)
  | panicked (text : String)
  | all (answers : List Answer)
  deriving Inhabited

/-- What is logged of a task. -/
inductive TaskEntry where
  | log (x : Datum)
  | performed (command : String) (answer : Answer)
  | thread (name : String)
  | yielded (times : Nat)
  | isCancelled (b : Bool)
  | waited (step : String) (subject : Datum) (answer : Answer)
  | emittedLast (value : Datum)
  | landed (o : Outcome Datum)
  | dropped

/-- What is logged of a fold. -/
inductive FoldEntry where
  | before (answers : List Answer)
  /-- The fold starts with some actions in its channel; a plain fold does not look. -/
  | started (waiting : Option Nat)
  | wrote (answer : Answer)
  | reduced (value : Datum)
  | emitting (value : Datum)
  | emitted (value : Datum)
  | disposed (value : Datum) (c : Completion)
  | finalized (c : Completion) (pending : Nat)

/-- What is logged of the end of a stream. -/
inductive SinkEntry where
  | value (x : Datum)
  | completion (c : Completion)
  | resumed (x : Datum)

/-- What is logged. -/
inductive Entry where
  | log (x : Datum)
  | task (name : String) (entry : TaskEntry)
  | fold (name : String) (entry : FoldEntry)
  | sink (name : String) (entry : SinkEntry)
  | hook (label : String)
  | hookPerformed (label command : String) (answer : Answer)

end ResumeOnce.Script
