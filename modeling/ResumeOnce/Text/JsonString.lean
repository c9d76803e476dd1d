import ResumeOnce.Text.Quoted

/-!
# JSON strings

A text as a string of JSON: between double quotes, with the quote and the backslash
escaped by a backslash, the usual controls by their letter, and every other control
below the blank by four hexadecimal digits. All other characters stand as they are.

* `escapeInString`: the written form of one character;
* `jsonString`: the written form of a text.
-/

namespace ResumeOnce.Text

/-- A character written by the four hexadecimal digits of its code point. -/
def escapeFour (c : Char) : List Char :=
  let digits := hexDigits c.toNat
  ['\\', 'u'] ++ List.replicate (4 - digits.length) '0' ++ digits

/-- The written form of one character in a string of JSON. -/
def escapeInString (c : Char) : List Char :=
  if c = '"' then ['\\', '"']
  else if c = '\\' then ['\\', '\\']
  else if c = '\n' then ['\\', 'n']
  else if c = '\r' then ['\\', 'r']
  else if c = '\t' then ['\\', 't']
  else if c = '\x08' then ['\\', 'b']
  else if c = '\x0c' then ['\\', 'f']
  else if c.toNat < 0x20 then escapeFour c
  else [c]

/-- The text as a string of JSON. -/
def jsonString (s : String) : String :=
  String.ofList ('"' :: s.toList.flatMap escapeInString ++ ['"'])

end ResumeOnce.Text
