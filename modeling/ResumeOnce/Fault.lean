import ResumeOnce.Text.Described

/-!
# Faults

What can go wrong. A fault has a kind, perhaps a message, and the chain of faults
that caused it, nearest first. Its kind decides the rest: the category it belongs
to and whether trying again may help.

* `Fault.display`, `Fault.describe`: the short and the full text of a fault;
* `Fault.Kind.category`, `Fault.Kind.recoverability`: what a kind implies.
-/

namespace ResumeOnce

open Text

namespace Fault

/-- The kinds of faults. -/
inductive Kind where
  | cancelled
  | resumptionLeaked
  | finished
  | channelClosed
  | channelFull
  | wouldBlock
  | alreadyResumed
  | invalidStateTransition
  | resultTaken
  | panicked
  | shutdown
  | invalidConfig
  | internal
  | user
  deriving DecidableEq, Repr, Inhabited

/-- Whether trying again may help. -/
inductive Recoverability where
  | transient
  | permanent
  | unknown
  deriving DecidableEq, Repr

/-- The groups of kinds. -/
inductive Category where
  | cancellation
  | completion
  | channel
  | protocol
  | execution
  | config
  | user
  deriving DecidableEq, Repr

namespace Kind

/-- Every kind, in order. -/
def all : List Kind :=
  [cancelled, resumptionLeaked, finished, channelClosed, channelFull, wouldBlock, alreadyResumed,
    invalidStateTransition, resultTaken, panicked, shutdown, invalidConfig, internal, user]

/-- The name of a kind. -/
def name : Kind → String
  | cancelled => "Cancelled"
  | resumptionLeaked => "ResumptionLeaked"
  | finished => "Finished"
  | channelClosed => "ChannelClosed"
  | channelFull => "ChannelFull"
  | wouldBlock => "WouldBlock"
  | alreadyResumed => "AlreadyResumed"
  | invalidStateTransition => "InvalidStateTransition"
  | resultTaken => "ResultTaken"
  | panicked => "Panicked"
  | shutdown => "Shutdown"
  | invalidConfig => "InvalidConfig"
  | internal => "Internal"
  | user => "User"

/-- The kind of a name. -/
def ofName? (s : String) : Option Kind := all.find? (·.name == s)

/-- The group that a kind belongs to. -/
def category : Kind → Category
  | cancelled | resumptionLeaked => .cancellation
  | finished => .completion
  | channelClosed | channelFull | wouldBlock => .channel
  | alreadyResumed | invalidStateTransition | resultTaken => .protocol
  | panicked | shutdown | internal => .execution
  | invalidConfig => .config
  | user => .user

/-- Whether trying again may help after a fault of a kind. -/
def recoverability : Kind → Recoverability
  | channelFull | wouldBlock => .transient
  | internal | user => .unknown
  | _ => .permanent

/-- Whether a fault of a kind goes away by itself. -/
def isRetryable (k : Kind) : Bool := k.recoverability = .transient

end Kind

/-- The name of a group of kinds. -/
def Category.name : Category → String
  | cancellation => "Cancellation"
  | completion => "Completion"
  | channel => "Channel"
  | protocol => "Protocol"
  | execution => "Runtime"
  | config => "Config"
  | user => "User"

/-- The name of a recoverability. -/
def Recoverability.name : Recoverability → String
  | transient => "Transient"
  | permanent => "Permanent"
  | unknown => "Unknown"

/-- One link in the chain of causes of a fault. -/
structure Cause where
  kind : Kind
  message : Option String
  deriving DecidableEq, Repr, Inhabited

end Fault

/-- A fault: its kind, perhaps a message, and its causes, nearest first. -/
structure Fault where
  kind : Fault.Kind
  message : Option String
  causes : List Fault.Cause
  deriving DecidableEq, Repr, Inhabited

namespace Fault

/-- A fault of a kind, without message or cause. -/
def ofKind (kind : Kind) : Fault := ⟨kind, none, []⟩

/-- A fault with a message in place of its own. -/
def withMessage (f : Fault) (message : String) : Fault := { f with message := some message }

/-- A fault with a cause in place of its own. -/
def withCause (f cause : Fault) : Fault :=
  { f with causes := ⟨cause.kind, cause.message⟩ :: cause.causes }

/-- The fault of a party that was cancelled. -/
def cancelled : Fault := ofKind .cancelled

/-- The fault that stands for the regular end of a stream. -/
def finished : Fault := ofKind .finished

/-- A fault in the library itself. -/
def internal (detail : String) : Fault := (ofKind .internal).withMessage detail

/-- Whether the fault tells of a cancellation or a leak. -/
def isCancelled (f : Fault) : Bool := f.kind.category = .cancellation

/-- Whether the fault stands for the regular end of a stream. -/
def isFinished (f : Fault) : Bool := f.kind = .finished

/-- A kind, followed by the message if there is one. -/
def headline (kind : Kind) : Option String → String
  | none => kind.name
  | some message => kind.name ++ ": " ++ message

/-- The short text of a fault. -/
def display (f : Fault) : String := headline f.kind f.message

/-- The short texts of the causes, nearest first. -/
def causeTexts (f : Fault) : List String := f.causes.map fun c => headline c.kind c.message

/-- The full text of a fault with the given kind and message and chain of causes. -/
def describeChain (kind : Kind) (message : Option String) : List Cause → String
  | [] => body "None"
  | c :: causes => body (wrapped "Some" (describeChain c.kind c.message causes))
where
  /-- The record of a fault, given the text of its cause. -/
  body (source : String) : String :=
    record "Error" [("kind", kind.name), ("message", optional quoted message), ("source", source)]

/-- The full text of a fault. -/
def describe (f : Fault) : String := describeChain f.kind f.message f.causes

end Fault

/-- An outcome: a value, or the fault in its place. -/
abbrev Outcome (α : Type u) := Except Fault α

/-- A value that was refused, with the fault that tells why. -/
structure Refusal (α : Type u) where
  fault : Fault
  value : α
  deriving Inhabited

namespace Refusal

/-- The short text of a refusal. -/
def display (r : Refusal α) : String := "write rejected: " ++ r.fault.display

/-- The full text of a refusal, which leaves the value out. -/
def describe (r : Refusal α) : String := openRecord "WriteError" [("error", r.fault.describe)]

end Refusal

end ResumeOnce
