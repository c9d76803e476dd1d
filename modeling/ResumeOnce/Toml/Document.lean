import ResumeOnce.Toml.Table
import ResumeOnce.Toml.Word

/-!
# Settings documents

A document is read line by line. A line is blank, or sets a key, or opens a table
or one more table of a list; a comment may end it. Lists may span lines, tables
between braces may not.

* `value?`: the value at the head of the characters;
* `document?`: the table that a whole document comes to.
-/

namespace ResumeOnce.Toml

/-- Whether a character may stand in a key without quotes. -/
def isKeyChar (c : Char) : Bool := c.isAlphanum || c == '_' || c == '-'

/-- One part of a key. -/
def keyPart? (cs : List Char) : Reading String :=
  match cs with
  | '"' :: _ => lineQuotation? cs
  | '\'' :: _ => lineQuotation? cs
  | _ =>
    match cs.takeWhile isKeyChar with
    | [] => none
    | word => some (String.ofList word, cs.dropWhile isKeyChar)

/-- A key of up to `n` parts between dots, with the gap behind it. -/
def key? : Nat → List Char → Reading Path
  | 0, _ => none
  | n + 1, cs =>
    (keyPart? (skipGap cs)).bind fun (part, rest) =>
      match skipGap rest with
      | '.' :: more => (key? n more).map fun (parts, last) => (part :: parts, last)
      | more => some ([part], more)

/-- The parts of a key on the way, and the last one. -/
def splitKey (path : Path) : Path × String := (path.dropLast, path.getLast?.getD "")

/-- What is behind a comment at the head, which may be missing. -/
def skipComment : List Char → List Char
  | '#' :: cs => cs.dropWhile isPlain
  | cs => cs

/-- What is behind the gaps, comments and line breaks at the head, up to a bound on their
    number. -/
def skipBlank : Nat → List Char → List Char
  | 0, cs => cs
  | n + 1, cs =>
    match skipGap cs with
    | '#' :: rest =>
      match lineBreak? (rest.dropWhile isPlain) with
      | some rest => skipBlank n rest
      | none => '#' :: rest
    | rest =>
      match lineBreak? rest with
      | some rest => skipBlank n rest
      | none => rest

/-- The values of a list up to its bracket, behind those read already, given how to read
    one. -/
def items? (read : List Char → Reading Value) : Nat → List Char → List Value → Reading Value
  | 0, _, _ => none
  | n + 1, cs, values =>
    match skipBlank cs.length cs with
    | ']' :: rest => some (.list values.reverse, rest)
    | cs =>
      (read cs).bind fun (v, rest) =>
        match skipBlank rest.length rest with
        | ',' :: rest => items? read n rest (v :: values)
        | ']' :: rest => some (.list (v :: values).reverse, rest)
        | _ => none

/-- One key with its value, added to a table between braces. -/
def bracedKey? (read : List Char → Reading Value) (part : Part) (cs : List Char) :
    Reading Part :=
  (key? (depthBound - 1) cs).bind fun (path, rest) =>
    match rest with
    | '=' :: rest =>
      (read (skipGap rest)).bind fun (v, rest) =>
        let (way, key) := splitKey path
        (assign? way key v part).map (·, skipGap rest)
    | _ => none

/-- The keys of a table up to its brace, given how to read a value. -/
def braced? (read : List Char → Reading Value) : Nat → List Char → Part → Reading Value
  | 0, _, _ => none
  | n + 1, cs, part =>
    (bracedKey? read part cs).bind fun (part, rest) =>
      match rest with
      | ',' :: rest => braced? read n rest part
      | '\x7d' :: rest => some (part.toValue, rest)
      | _ => none

/-- The table without keys, as braces open it. -/
def bracedPart : Part := ⟨⟨false, false⟩, []⟩

/-- The value at the head, in which lists and tables nest less than `n` deep. -/
def value? : Nat → List Char → Reading Value
  | _, '"' :: cs => quotation? ('"' :: cs) |>.map fun (s, rest) => (.text s, rest)
  | _, '\'' :: cs => quotation? ('\'' :: cs) |>.map fun (s, rest) => (.text s, rest)
  | n + 1, '[' :: cs => items? (value? n) (cs.length + 1) cs []
  | n + 1, '\x7b' :: cs =>
    match skipGap cs with
    | '\x7d' :: rest => some (bracedPart.toValue, rest)
    | cs => braced? (value? n) (cs.length + 1) cs bracedPart
  | _, cs => word? cs

/-- The document so far, and the table that is open. -/
structure Reader where
  root : Part
  here : Path

/-- The reader with a key set in the open table. -/
def Reader.set? (r : Reader) (path : Path) (v : Value) : Option Reader :=
  let (way, key) := splitKey path
  (reach? false (assign? way key v) r.here r.root).map fun root => { r with root }

/-- The reader with the table of a header open. -/
def Reader.open? (r : Reader) (path : Path) : Option Reader :=
  let (way, key) := splitKey path
  (openTable? way key r.root).map fun root => ⟨root, path⟩

/-- The reader with one more table of a list open. -/
def Reader.openElement? (r : Reader) (path : Path) : Option Reader :=
  let (way, key) := splitKey path
  (Toml.openElement? way key r.root).map fun root => ⟨root, path⟩

/-- One line behind its gap, up to its comment or its end. -/
def line? (r : Reader) : List Char → Reading Reader
  | '[' :: '[' :: cs =>
    (key? (depthBound - 1) cs).bind fun (path, rest) =>
      match rest with
      | ']' :: ']' :: rest => (r.openElement? path).map (·, rest)
      | _ => none
  | '[' :: cs =>
    (key? (depthBound - 1) cs).bind fun (path, rest) =>
      match rest with
      | ']' :: rest => (r.open? path).map (·, rest)
      | _ => none
  | cs =>
    (key? (depthBound - 1) cs).bind fun (path, rest) =>
      match rest with
      | '=' :: rest =>
        (value? (depthBound - 1) (skipGap rest)).bind fun (v, rest) =>
          (r.set? path v).map (·, rest)
      | _ => none

/-- Whether a line has nothing but a gap and perhaps a comment. -/
def isBare (cs : List Char) : Bool :=
  match cs with
  | [] => true
  | c :: _ => c == '#' || (lineBreak? cs).isSome

/-- The lines of a document, up to a bound on their number. -/
def lines? : Nat → Reader → List Char → Option Reader
  | 0, r, cs => if cs.isEmpty then some r else none
  | n + 1, r, cs =>
    let cs := skipGap cs
    let read : Reading Reader := if isBare cs then some (r, cs) else line? r cs
    read.bind fun (r, rest) =>
      let rest := skipComment (skipGap rest)
      match rest with
      | [] => some r
      | _ => (lineBreak? rest).bind (lines? n r)

/-- The characters without the mark that may open a document. -/
def withoutMark : List Char → List Char
  | c :: cs => if c.toNat = 0xfeff then cs else c :: cs
  | [] => []

/-- The table that a document comes to. -/
def document? (s : String) : Option Value :=
  let cs := withoutMark s.toList
  (lines? (cs.length + 1) ⟨⟨⟨false, false⟩, []⟩, []⟩ cs).map (·.root.toValue)

end ResumeOnce.Toml
