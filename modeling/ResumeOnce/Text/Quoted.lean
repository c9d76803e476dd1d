import ResumeOnce.Text.Printable

/-!
# Quoted texts

A quoted text stands between double quotes, and every character in it that would
be mistaken for something else is escaped: the quote and the backslash by a
backslash, the usual controls by their letter, and every other character that has
no visible form of its own, or that would join the character before it, by its
code point in braces. A single quote needs no escape.

* `escape`: the written form of one character;
* `quoted`: the written form of a text.
-/

namespace ResumeOnce.Text

/-- The lower-case hexadecimal digits of a number, without leading zeros. -/
def hexDigits (n : Nat) : List Char := Nat.toDigits 16 n

/-- A character written by its code point. -/
def escapeCode (c : Char) : List Char := ['\\', 'u', '\x7b'] ++ hexDigits c.toNat ++ ['\x7d']

/-- The written form of one character of a quoted text. -/
def escape (c : Char) : List Char :=
  if c = '\x00' then ['\\', '0']
  else if c = '\t' then ['\\', 't']
  else if c = '\r' then ['\\', 'r']
  else if c = '\n' then ['\\', 'n']
  else if c = '\\' then ['\\', '\\']
  else if c = '"' then ['\\', '"']
  else if extendsGrapheme c then escapeCode c
  else if isPrintable c then [c]
  else escapeCode c

/-- The text between double quotes, with every character in its written form. -/
def quoted (s : String) : String := String.ofList ('"' :: s.toList.flatMap escape ++ ['"'])

end ResumeOnce.Text
