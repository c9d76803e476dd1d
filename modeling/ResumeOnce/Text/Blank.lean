/-!
# Blanks

The characters that count as white space around a value, after the Unicode
property of that name, and the removal of them from both ends of a text.

* `isBlank`: the character is white space;
* `trimmed`: a text without the blanks at its ends.
-/

namespace ResumeOnce.Text

/-- Whether the character is white space. -/
def isBlank (c : Char) : Bool :=
  let n := c.toNat
  (0x09 ≤ n && n ≤ 0x0d) || n == 0x20 || n == 0x85 || n == 0xa0 || n == 0x1680
    || (0x2000 ≤ n && n ≤ 0x200a) || n == 0x2028 || n == 0x2029 || n == 0x202f
    || n == 0x205f || n == 0x3000

/-- The characters without the blanks at both ends. -/
def trimmedChars (cs : List Char) : List Char :=
  ((cs.dropWhile isBlank).reverse.dropWhile isBlank).reverse

/-- A text without the blanks at its ends. -/
def trimmed (s : String) : String := String.ofList (trimmedChars s.toList)

end ResumeOnce.Text
