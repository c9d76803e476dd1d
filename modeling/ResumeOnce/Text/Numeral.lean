/-!
# Numerals

A numeral is an optional plus sign and one or more decimal digits, and it denotes
a word if its value fits into 64 bits.

* `digitsValue?`: the number that a run of digits denotes;
* `word?`: the word that a text denotes.
-/

namespace ResumeOnce.Text

/-- One more than the largest word: `2 ^ 64`. -/
def wordBound : Nat := 18446744073709551616

/-- The value of a decimal digit. -/
def digit? (c : Char) : Option Nat :=
  if '0' ≤ c ∧ c ≤ '9' then some (c.toNat - '0'.toNat) else none

/-- The number denoted by `value` followed by the digits. -/
def digitsFrom? (value : Nat) : List Char → Option Nat
  | [] => some value
  | c :: cs => (digit? c).bind fun d => digitsFrom? (10 * value + d) cs

/-- The number that one or more digits denote. -/
def digitsValue? : List Char → Option Nat
  | [] => none
  | c :: cs => digitsFrom? 0 (c :: cs)

/-- The digits of a numeral, without its sign. -/
def unsigned : List Char → List Char
  | '+' :: cs => cs
  | cs => cs

/-- The word that a text denotes, if it is a numeral below `wordBound`. -/
def word? (s : String) : Option Nat :=
  (digitsValue? (unsigned s.toList)).filter (· < wordBound)

end ResumeOnce.Text
