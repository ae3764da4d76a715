import ClassLattice.Decimal.Binary64

/-!
# TOML documents as trees

The data of a document, with a note on each table of how it came to be.  The note decides where
entries may still be added: a table that a header has opened takes no dotted keys from outside, one
that dotted keys have made takes no header of its own, and an inline table takes nothing at all.
The entries of a table stand in the order in which they came in.
-/

set_option autoImplicit false

namespace ClassLattice.Toml

/-- A value without parts. -/
inductive Scalar where
  | text (value : String)
  | integer (value : Int)
  | float (value : Binary64)
  | boolean (value : Bool)
  /-- A date, a time or both, as written. -/
  | datetime (written : String)
  deriving DecidableEq

/-- How a table came to be. -/
inductive TableKind where
  /-- By a header of its own, or as the document itself. -/
  | header
  /-- On the way to a table that has a header. -/
  | implied
  /-- By a dotted key. -/
  | dotted
  /-- In braces. -/
  | inline
  deriving DecidableEq

/-- A value or table. -/
inductive Tree where
  | scalar (value : Scalar)
  | array (items : List Tree)
  /-- Tables that were opened by headers in double brackets. -/
  | tables (items : List (List (String × Tree)))
  | table (kind : TableKind) (entries : List (String × Tree))

/-- The entries of a table. -/
abbrev Entries : Type := List (String × Tree)

namespace Entries

/-- Entries with another tree under a key that is there. -/
def replace (entries : Entries) (key : String) (tree : Tree) : Entries :=
  entries.map fun entry => if entry.1 == key then (key, tree) else entry

/-- Entries without a key. -/
def remove (entries : Entries) (key : String) : Entries :=
  entries.filter fun entry => entry.1 != key

/-- Changes the entries of the table at a path.  Tables that are missing on the way are made of a
given kind; of an array of tables the last one is meant.  Dotted keys do not enter a table that has
a header, and nothing enters an inline table or a value. -/
def alterAt (made : TableKind) (change : TableKind → Entries → Option Entries) :
    (path : List String) → (kind : TableKind) → Entries → Option Entries
  | [], kind, entries => change kind entries
  | key :: rest, _, entries =>
    match entries.lookup key with
    | none => do
      let inner ← alterAt made change rest made []
      return entries ++ [(key, .table made inner)]
    | some (.table kind inner) =>
      if kind = .inline ∨ (made = .dotted ∧ kind = .header) then none
      else do
        let inner ← alterAt made change rest kind inner
        return entries.replace key (.table kind inner)
    | some (.tables items) =>
      match items.getLast? with
      | none => none
      | some last => do
        let last ← alterAt made change rest .header last
        return entries.replace key (.tables (items.dropLast ++ [last]))
    | some (.scalar _) | some (.array _) => none

/-- Adds a value under a dotted key to a table.  The table that takes it must have been made by
dotted keys if the key has dots, and the key must be new. -/
def addValue (entries : Entries) (kind : TableKind) (path : List String) (key : String)
    (tree : Tree) : Option Entries :=
  let add (kind : TableKind) (entries : Entries) : Option Entries :=
    if (kind = .dotted) = path.isEmpty then none
    else if (entries.lookup key).isSome then none
    else some (entries ++ [(key, tree)])
  alterAt .dotted add path kind entries

/-- Opens the table at a path by a header.  It may be there already, if it is there only because it
was on the way to another table; it then counts as new. -/
def openTable (entries : Entries) (path : List String) (key : String) : Option Entries :=
  let change (_ : TableKind) (entries : Entries) : Option Entries :=
    match entries.lookup key with
    | none => some (entries ++ [(key, .table .header [])])
    | some (.table .implied inner) =>
      some (entries.remove key ++ [(key, .table .header inner)])
    | some _ => none
  alterAt .implied change path .header entries

/-- Opens a further table of the array of tables at a path. -/
def openElement (entries : Entries) (path : List String) (key : String) : Option Entries :=
  let change (_ : TableKind) (entries : Entries) : Option Entries :=
    match entries.lookup key with
    | none => some (entries ++ [(key, .tables [[]])])
    | some (.tables items) => some (entries.replace key (.tables (items ++ [[]])))
    | some _ => none
  alterAt .implied change path .header entries

/-- Adds a value under a dotted key to the table that the last header has opened. -/
def addValueAt (entries : Entries) (opened : List String) (path : List String) (key : String)
    (tree : Tree) : Option Entries :=
  alterAt .implied (fun kind inner => addValue inner kind path key tree) opened .header entries

end Entries

end ClassLattice.Toml
