import ResumeOnce.Text.Blank
import ResumeOnce.Fault

/-!
# Leaks

A party that must be answered and is dropped instead is a leak. Every leak is
counted; what else happens follows a policy, which is a panic, the end of the
whole program, or the delivery of a cancellation. The choice is written as one
word, read without regard to case or to blanks around it.

* `LeakPolicy.parse?`: the policy that a word names;
* `LeakPolicy.resolve`: the policy in force, given a choice and a word.
-/

namespace ResumeOnce

open Text

/-- What happens when an unanswered party is dropped. -/
inductive LeakPolicy where
  | panic
  | abort
  | cancel
  deriving DecidableEq, Repr, Inhabited

namespace LeakPolicy

/-- The policy when nothing else is chosen. -/
def fallback : LeakPolicy := cancel

/-- The word for a policy. -/
def word : LeakPolicy → String
  | panic => "panic"
  | abort => "abort"
  | cancel => "cancel"

/-- The name of a policy. -/
def name : LeakPolicy → String
  | panic => "Panic"
  | abort => "Abort"
  | cancel => "Cancel"

/-- The policy of an exact word. -/
def ofWord? (s : String) : Option LeakPolicy := [panic, abort, cancel].find? (·.word == s)

/-- The policy that a word names, in any case and with blanks around it. -/
def parse? (s : String) : Option LeakPolicy :=
  ofWord? (String.ofList ((trimmedChars s.toList).map Char.toLower))

/-- The policy in force: the one chosen, or else the one that the word names, or else the
    fallback. -/
def resolve (chosen : Option LeakPolicy) (word : Option String) : LeakPolicy :=
  chosen.getD ((word.bind parse?).getD fallback)

theorem ofWord?_word (p : LeakPolicy) : ofWord? p.word = some p := by cases p <;> rfl

end LeakPolicy

namespace Leak

/-- What a panic says when a party of a sort was dropped unanswered. -/
def message (what : String) : String :=
  "CONTINUATION LEAKED: " ++ what ++ " was dropped without being resolved. " ++
    "Resume it, fail it, or cancel its owner before dropping it."

/-- The fault that a party waiting for a leaked resumption gets. -/
def fault : Fault :=
  (Fault.ofKind .resumptionLeaked).withMessage "resumption dropped without being resumed"

end Leak

end ResumeOnce
