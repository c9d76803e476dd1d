import ResumeOnce.Toml.Value

/-!
# Quoted texts in a document

A text stands between double quotes, where a backslash escapes, or between single
quotes, where nothing does; three quotes open a text that may span lines. A line
break at once behind the opening quotes does not count, and up to two quotes right
before the closing ones belong to the text.

* `quotation?`: a quoted text that may span lines;
* `lineQuotation?`: a quoted text on one line, as a key may be.
-/

namespace ResumeOnce.Toml

/-- Whether a character may stand in a text or a comment as it is. -/
def isPlain (c : Char) : Bool := c == '\t' || (0x20 ≤ c.toNat && c.toNat != 0x7f)

/-- Whether a character separates words on a line. -/
def isGap (c : Char) : Bool := c == ' ' || c == '\t'

/-- What is behind the gap at the head. -/
def skipGap (cs : List Char) : List Char := cs.dropWhile isGap

/-- What is behind a line break at the head. -/
def lineBreak? : List Char → Option (List Char)
  | '\n' :: cs => some cs
  | '\r' :: '\n' :: cs => some cs
  | _ => none

/-- The value of a hexadecimal digit. -/
def hexDigit? (c : Char) : Option Nat :=
  if '0' ≤ c ∧ c ≤ '9' then some (c.toNat - '0'.toNat)
  else if 'a' ≤ c ∧ c ≤ 'f' then some (c.toNat - 'a'.toNat + 10)
  else if 'A' ≤ c ∧ c ≤ 'F' then some (c.toNat - 'A'.toNat + 10)
  else none

/-- The character whose code point is written in `n` more hexadecimal digits. -/
def codePoint? (value : Nat) : Nat → List Char → Reading Char
  | 0, cs => if value.isValidChar then some (Char.ofNat value, cs) else none
  | n + 1, c :: cs => (hexDigit? c).bind fun d => codePoint? (16 * value + d) n cs
  | _ + 1, [] => none

/-- The character that an escape stands for, behind the backslash. -/
def escaped? : List Char → Reading Char
  | 'b' :: cs => some ('\x08', cs)
  | 't' :: cs => some ('\t', cs)
  | 'n' :: cs => some ('\n', cs)
  | 'f' :: cs => some ('\x0c', cs)
  | 'r' :: cs => some ('\r', cs)
  | '"' :: cs => some ('"', cs)
  | '\\' :: cs => some ('\\', cs)
  | 'u' :: cs => codePoint? 0 4 cs
  | 'U' :: cs => codePoint? 0 8 cs
  | _ => none

/-- What is behind the gaps and line breaks at the head, up to a bound on their number. -/
def skipLines : Nat → List Char → List Char
  | 0, cs => cs
  | n + 1, cs =>
    match lineBreak? (skipGap cs) with
    | some rest => skipLines n rest
    | none => skipGap cs

/-- The number of quotes of a sort at the head, up to five. -/
def quoteRun (quote : Char) (cs : List Char) : Nat := ((cs.take 5).takeWhile (· == quote)).length

/-- The text up to its closing quote on the same line, behind what was read of it. -/
def closeLine? (quote : Char) (read : List Char) : Nat → List Char → Reading String
  | n + 1, c :: cs =>
    if c == quote then some (String.ofList read.reverse, cs)
    else if c == '\\' && quote == '"' then
      (escaped? cs).bind fun (e, rest) => closeLine? quote (e :: read) n rest
    else if isPlain c then closeLine? quote (c :: read) n cs
    else none
  | _, _ => none

/-- The text up to its three closing quotes, behind what was read of it. -/
def closeLines? (quote : Char) (read : List Char) : Nat → List Char → Reading String
  | n + 1, c :: cs =>
    if c == quote then
      let run := quoteRun quote (c :: cs)
      if 3 ≤ run then
        some (String.ofList (List.replicate (run - 3) quote ++ read).reverse, (c :: cs).drop run)
      else closeLines? quote (c :: read) n cs
    else if c == '\\' && quote == '"' then
      match lineBreak? (skipGap cs) with
      | some rest => closeLines? quote read n (skipLines rest.length rest)
      | none => (escaped? cs).bind fun (e, rest) => closeLines? quote (e :: read) n rest
    else
      match lineBreak? (c :: cs) with
      | some rest => closeLines? quote ('\n' :: read) n rest
      | none => if isPlain c then closeLines? quote (c :: read) n cs else none
  | _, _ => none

/-- A quoted text on one line. -/
def lineQuotation? : List Char → Reading String
  | '"' :: cs => closeLine? '"' [] (cs.length + 1) cs
  | '\'' :: cs => closeLine? '\'' [] (cs.length + 1) cs
  | _ => none

/-- A quoted text behind three opening quotes. -/
def openLines? (quote : Char) (cs : List Char) : Reading String :=
  closeLines? quote [] (cs.length + 1) ((lineBreak? cs).getD cs)

/-- A quoted text that may span lines. -/
def quotation? : List Char → Reading String
  | '"' :: '"' :: '"' :: cs => openLines? '"' cs
  | '\'' :: '\'' :: '\'' :: cs => openLines? '\'' cs
  | cs => lineQuotation? cs

end ResumeOnce.Toml
