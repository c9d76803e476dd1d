/-!
# Spans of time

A span of time is a number of nanoseconds. It is written in the largest unit of
which it holds at least one (seconds, milliseconds, microseconds, nanoseconds),
with as many decimal places as it needs and none when it is whole.

* `elapsed`: the written form of a span.
-/

namespace ResumeOnce.Text

/-- The decimal places of a remainder: `width` digits less the zeros at the end. -/
def places (width rest : Nat) : List Char :=
  let digits := Nat.toDigits 10 rest
  let padded := List.replicate (width - digits.length) '0' ++ digits
  (padded.reverse.dropWhile (· = '0')).reverse

/-- A span counted in a unit of `10 ^ width` nanoseconds. -/
def inUnit (width : Nat) (unit : String) (nanoseconds : Nat) : String :=
  let whole := toString (nanoseconds / Nat.pow 10 width)
  match places width (nanoseconds % Nat.pow 10 width) with
  | [] => whole ++ unit
  | fraction => whole ++ "." ++ String.ofList fraction ++ unit

/-- A span in the largest unit of which it holds at least one. -/
def elapsed (nanoseconds : Nat) : String :=
  if 1000000000 ≤ nanoseconds then inUnit 9 "s" nanoseconds
  else if 1000000 ≤ nanoseconds then inUnit 6 "ms" nanoseconds
  else if 1000 ≤ nanoseconds then inUnit 3 "µs" nanoseconds
  else inUnit 0 "ns" nanoseconds

end ResumeOnce.Text
