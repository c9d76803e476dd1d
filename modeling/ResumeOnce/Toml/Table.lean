import ResumeOnce.Toml.Value

/-!
# Tables under construction

A table may be defined in parts: by a header, as the parent of a table that has
one, or through dotted keys. Each part leaves a mark, and the marks decide what may
still be added. A table that a header or braces defined is closed to dotted keys,
a table that dotted keys defined is closed to headers, and no key is set twice.

* `Item`: a value, a table or a list of tables under construction;
* `assign?`, `openTable?`, `openElement?`: what a line of the document adds.
-/

namespace ResumeOnce.Toml

/-- How a table came to be. -/
structure Marks where
  /-- No header of its own defined it yet. -/
  implied : Bool
  /-- Dotted keys defined it. -/
  dotted : Bool
  deriving DecidableEq, Repr, Inhabited

/-- What a key stands for while the document is read. -/
inductive Item where
  | value (v : Value)
  | table (marks : Marks) (entries : List (String × Item))
  | elements (tables : List (List (String × Item)))
  deriving Inhabited

/-- The entries of a table under construction, in order. -/
abbrev Entries := List (String × Item)

/-- A table under construction. -/
structure Part where
  marks : Marks
  entries : Entries
  deriving Inhabited

/-- The entries with what a key stands for changed, or added at the end. -/
def put (entries : Entries) (key : String) (item : Item) : Entries :=
  if (entries.lookup key).isSome then
    entries.map fun (k, i) => if k == key then (k, item) else (k, i)
  else entries ++ [(key, item)]

/-- The marks of a table that a key reaches through for the first time. -/
def throughMarks (dotted : Bool) : Marks := ⟨true, dotted⟩

/-- The table with a change made where a path leads. A key that leads nowhere yet makes a
    table; dotted keys must not lead through a table that a header defined; and of a list of
    tables the last one is meant. -/
def reach? (dotted : Bool) (change : Part → Option Part) : Path → Part → Option Part
  | [], part => change part
  | key :: path, part =>
    match part.entries.lookup key with
    | none =>
      (reach? dotted change path ⟨throughMarks dotted, []⟩).map fun inner =>
        { part with entries := put part.entries key (.table inner.marks inner.entries) }
    | some (.table marks entries) =>
      if dotted && !marks.implied then none
      else
        (reach? dotted change path ⟨marks, entries⟩).map fun inner =>
          { part with entries := put part.entries key (.table inner.marks inner.entries) }
    | some (.elements tables) =>
      match tables.getLast? with
      | none => none
      | some entries =>
        (reach? dotted change path ⟨⟨false, false⟩, entries⟩).map fun inner =>
          { part with
            entries := put part.entries key (.elements (tables.dropLast ++ [inner.entries])) }
    | some (.value _) => none

/-- The table with a key set that is not set yet. -/
def set? (key : String) (v : Value) (part : Part) : Option Part :=
  if (part.entries.lookup key).isSome then none
  else some { part with entries := put part.entries key (.value v) }

/-- The table with a value assigned to a key, which may be dotted. The last table on the way
    must be one of dotted keys, if there is any on the way. -/
def assign? (path : Path) (key : String) (v : Value) (part : Part) : Option Part :=
  reach? true (fun inner =>
    if inner.marks.dotted == path.isEmpty then none else set? key v inner) path part

/-- The document with a table opened by its header: new, or implied so far. -/
def openTable? (path : Path) (key : String) (root : Part) : Option Part :=
  reach? false (fun parent =>
    match parent.entries.lookup key with
    | none => some { parent with entries := put parent.entries key (.table ⟨false, false⟩ []) }
    | some (.table ⟨true, false⟩ entries) =>
      some { parent with entries := put parent.entries key (.table ⟨false, false⟩ entries) }
    | some _ => none) path root

/-- The document with one more table in a list of tables. -/
def openElement? (path : Path) (key : String) (root : Part) : Option Part :=
  reach? false (fun parent =>
    match parent.entries.lookup key with
    | none => some { parent with entries := put parent.entries key (.elements [[]]) }
    | some (.elements tables) =>
      some { parent with entries := put parent.entries key (.elements (tables ++ [[]])) }
    | some _ => none) path root

/-- The value that an item comes to. -/
def Item.toValue : Item → Value
  | .value v => v
  | .table _ entries => .table (ofEntries entries)
  | .elements tables => .list (ofTables tables)
where
  /-- The values of entries. -/
  ofEntries : List (String × Item) → List (String × Value)
    | [] => []
    | (k, i) :: rest => (k, i.toValue) :: ofEntries rest
  /-- The values of tables. -/
  ofTables : List (List (String × Item)) → List Value
    | [] => []
    | t :: rest => .table (ofEntries t) :: ofTables rest

/-- The value that a finished table comes to. -/
def Part.toValue (part : Part) : Value := (Item.table part.marks part.entries).toValue

end ResumeOnce.Toml
