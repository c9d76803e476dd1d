import ResumeOnce.Toml.Quotation
import ResumeOnce.Text.Numeral

/-!
# Words in a document

The values that are written without quotes: truth values, integers in four bases,
real numbers, dates and times. Digits may be grouped by single underscores. An
integer has 64 bits with a sign, and a real number must not be too large for one
of double precision.

* `word?`: the value at the head of the characters.
-/

namespace ResumeOnce.Toml

open Text

/-- The digits of a group, in which single underscores may stand between digits. -/
def ungrouped? (isDigit : Char → Bool) : List Char → Option (List Char)
  | [] => none
  | [c] => if isDigit c then some [c] else none
  | c :: '_' :: cs => if isDigit c then (ungrouped? isDigit cs).map (c :: ·) else none
  | c :: cs => if isDigit c then (ungrouped? isDigit cs).map (c :: ·) else none

/-- Whether a character is a decimal digit. -/
def isDecimal (c : Char) : Bool := (digit? c).isSome

/-- The digits of a decimal whole number: no zero leads, unless it stands alone. -/
def wholeDigits? (cs : List Char) : Option (List Char) :=
  (ungrouped? isDecimal cs).filter fun digits => digits.head? != some '0' || cs == ['0']

/-- The sign of a number, true for a minus, and what is behind it. -/
def signed : List Char → Bool × List Char
  | '-' :: cs => (true, cs)
  | '+' :: cs => (false, cs)
  | cs => (false, cs)

/-- The integer, if it has no more than 64 bits. -/
def inRange? (n : Int) : Option Value :=
  if -9223372036854775808 ≤ n ∧ n < 9223372036854775808 then some (.integer n) else none

/-- The number that digits of a base denote. -/
def ofDigits (base : Nat) (digits : List Char) : Nat :=
  digits.foldl (fun n c => base * n + (hexDigit? c).getD 0) 0

/-- An integer in a base that a letter announces. -/
def basedInteger? (base : Nat) (cs : List Char) : Option Value :=
  (ungrouped? (fun c => (hexDigit? c).any (· < base)) cs).bind fun digits =>
    inRange? (ofDigits base digits)

/-- An integer. -/
def integer? : List Char → Option Value
  | '0' :: 'x' :: cs => basedInteger? 16 cs
  | '0' :: 'o' :: cs => basedInteger? 8 cs
  | '0' :: 'b' :: cs => basedInteger? 2 cs
  | cs =>
    let (negative, whole) := signed cs
    (wholeDigits? whole).bind fun digits =>
      let n : Int := ofDigits 10 digits
      inRange? (if negative then -n else n)

/-- The digits before the first character of a sort, and what is behind that character. -/
def cutAt (isCut : Char → Bool) (cs : List Char) : List Char × Option (List Char) :=
  match cs.dropWhile (fun c => !isCut c) with
  | [] => (cs, none)
  | _ :: rest => (cs.takeWhile fun c => !isCut c, some rest)

/-- The least whole number that is too large for a real number of double precision. -/
def realBound : Nat := Nat.pow 2 1024 - Nat.pow 2 970

/-- Whether `mantissa * 10 ^ exponent` is too large for a real number. -/
def isTooLarge (mantissa : Nat) (exponent : Int) : Bool :=
  if mantissa = 0 then false
  else
    let size : Int := (Nat.toDigits 10 mantissa).length + exponent
    if size < 300 then false
    else if 400 < size then true
    else if 0 ≤ exponent then realBound ≤ mantissa * Nat.pow 10 exponent.toNat
    else realBound * Nat.pow 10 (-exponent).toNat ≤ mantissa

/-- Whether the characters are the digits of a fraction or an exponent. -/
def digitsOrNone? : Option (List Char) → Option (List Char)
  | none => some []
  | some cs => ungrouped? isDecimal cs

/-- A real number: a whole part with a fraction, an exponent or both. -/
def real? (cs : List Char) : Option Value :=
  let (negative, body) := signed cs
  if body == "inf".toList || body == "nan".toList then some (.real (String.ofList cs))
  else
    let (number, exponent) := cutAt (fun c => c == 'e' || c == 'E') body
    let (whole, fraction) := cutAt (· == '.') number
    if exponent.isNone && fraction.isNone then none
    else do
      let wholeDigits ← wholeDigits? whole
      let fractionDigits ← digitsOrNone? fraction
      let (down, power) := signed (exponent.getD ['0'])
      let powerDigits ← ungrouped? isDecimal power
      let size : Int := ofDigits 10 powerDigits
      let shift := (if down then -size else size) - fractionDigits.length
      if !negative && isTooLarge (ofDigits 10 (wholeDigits ++ fractionDigits)) shift then none
      else some (.real (String.ofList cs))

/-- A number of exactly `n` decimal digits within bounds, and what is behind it. -/
def fixed? (n low high : Nat) (cs : List Char) : Reading Nat :=
  let digits := cs.take n
  if digits.length = n ∧ digits.all isDecimal then
    let value := ofDigits 10 digits
    if low ≤ value ∧ value ≤ high then some (value, cs.drop n) else none
  else none

/-- What is behind a character at the head. -/
def expect? (c : Char) : List Char → Option (List Char)
  | [] => none
  | d :: cs => if d == c then some cs else none

/-- The number of days of a month. -/
def daysOf (year month : Nat) : Nat :=
  if month = 2 then
    if year % 4 = 0 ∧ (year % 100 ≠ 0 ∨ year % 400 = 0) then 29 else 28
  else if month = 4 ∨ month = 6 ∨ month = 9 ∨ month = 11 then 30
  else 31

/-- What is behind a date. -/
def date? (cs : List Char) : Option (List Char) := do
  let (year, cs) ← fixed? 4 0 9999 cs
  let (month, cs) ← fixed? 2 1 12 (← expect? '-' cs)
  let (_, cs) ← fixed? 2 1 (daysOf year month) (← expect? '-' cs)
  return cs

/-- What is behind a time of day. -/
def time? (cs : List Char) : Option (List Char) := do
  let (_, cs) ← fixed? 2 0 23 cs
  let (_, cs) ← fixed? 2 0 59 (← expect? ':' cs)
  let (_, cs) ← fixed? 2 0 60 (← expect? ':' cs)
  match cs with
  | '.' :: rest => if rest.head?.any isDecimal then some (rest.dropWhile isDecimal) else none
  | cs => some cs

/-- Whether the characters are an offset from the universal time, or nothing. -/
def isOffset : List Char → Bool
  | [] => true
  | ['Z'] => true
  | ['z'] => true
  | c :: cs =>
    (c == '+' || c == '-') &&
      (do
        let (_, cs) ← fixed? 2 0 23 cs
        let (_, cs) ← fixed? 2 0 59 (← expect? ':' cs)
        return cs) == some []

/-- Whether the characters are a moment: a date, a time of day, or both. -/
def isMoment (cs : List Char) : Bool :=
  match date? cs with
  | some [] => true
  | some (c :: rest) =>
    (c == 'T' || c == 't' || c == ' ') && (time? rest).any isOffset
  | none => time? cs == some []

/-- Whether a character may belong to a word. -/
def isWordChar (c : Char) : Bool :=
  c.isAlphanum || c == '+' || c == '-' || c == '_' || c == '.' || c == ':'

/-- The characters of the word at the head, in which one space may part a date from a time. -/
def cutWord (cs : List Char) : List Char × List Char :=
  let word := cs.takeWhile isWordChar
  match cs.dropWhile isWordChar with
  | ' ' :: c :: rest =>
    if isDecimal c && date? word == some [] then
      (word ++ ' ' :: (c :: rest).takeWhile isWordChar, (c :: rest).dropWhile isWordChar)
    else (word, ' ' :: c :: rest)
  | rest => (word, rest)

/-- The value that a word denotes. -/
def ofWord? (cs : List Char) : Option Value :=
  if cs == "true".toList then some (.bool true)
  else if cs == "false".toList then some (.bool false)
  else if isMoment cs then some (.moment (String.ofList cs))
  else (real? cs).orElse fun _ => integer? cs

/-- The value of the word at the head. -/
def word? (cs : List Char) : Reading Value :=
  let (word, rest) := cutWord cs
  (ofWord? word).map (·, rest)

end ResumeOnce.Toml
