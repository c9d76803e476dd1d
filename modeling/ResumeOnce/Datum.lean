/-!
# Data

The values that travel through queues, channels and streams. Nothing in the
library looks inside them except to put two of them side by side, so they are
plain trees of texts, numbers, lists and named fields.

* `Datum`: a value;
* `Datum.pair`, `Datum.tagged`: the values that combining streams makes.
-/

namespace ResumeOnce

/-- A value carried by queues, channels and streams. A number is
    `mantissa * 10 ^ (-exponent)`. -/
inductive Datum where
  | null
  | bool (value : Bool)
  | number (mantissa : Int) (exponent : Nat)
  | text (value : String)
  | list (items : List Datum)
  | object (fields : List (String × Datum))
  deriving Inhabited

namespace Datum

/-- A whole number. -/
def int (n : Int) : Datum := number n 0

/-- Two values side by side. -/
def pair (a b : Datum) : Datum := list [a, b]

/-- A value under a name. -/
def tagged (name : String) (value : Datum) : Datum := object [(name, value)]

/-- A pair whose first part is a pair, as three values side by side. -/
def flattened : Datum → Datum
  | list [list [a, b], c] => list [a, b, c]
  | d => d

end Datum

end ResumeOnce
