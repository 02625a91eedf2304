import Spreadsheet.Text.Basic

/-!
# TOML items

What a key of a TOML document can stand for, and how a table is put together. A table remembers how it
came about, since that decides what may still be added: a header opens a table once, dotted keys extend
only tables that dotted keys made, and an inline table is complete. Dates, times and arrays of tables
are left out.
-/

namespace Spreadsheet.Toml

/-- How a table came about. -/
inductive Origin
  /-- It has a header of its own, or it is the document. -/
  | header
  /-- It lies on the way to a table with a header. -/
  | implied
  /-- It lies on the way of a dotted key. -/
  | dotted
  | inline
  deriving DecidableEq, Repr

/-- What a key stands for. A float is kept as it is written. -/
inductive Item
  | text (t : Text)
  | integer (n : Int)
  | float (t : Text)
  | boolean (b : Bool)
  | array (items : List Item)
  | table (origin : Origin) (entries : List (Text × Item))

/-- Keys with their items; a key occurs once. -/
abbrev Table := List (Text × Item)

namespace Table

/-- The table with another item under a key that it has. -/
def replace (t : Table) (key : Text) (i : Item) : Table :=
  t.map fun (k, j) => (k, if k = key then i else j)

/-- The table with a new key, unless it has that key. -/
def add? (t : Table) (key : Text) (i : Item) : Option Table :=
  if (t.lookup key).isSome then none else some (t ++ [(key, i)])

/-- Changes the table at the end of a path by `change`, which is told how that table came about. Tables
that are missing on the way are made with the origin `missing`, and the way leads only through tables
whose origin is `passable`. -/
def alter? (passable : Origin → Bool) (missing : Origin) (change : Origin → Table → Option Table) :
    (path : List Text) → Origin → Table → Option Table
  | [], origin, t => change origin t
  | key :: path, _, t =>
    match t.lookup key with
    | none => do
      let inner ← alter? passable missing change path missing []
      some (t ++ [(key, .table missing inner)])
    | some (.table origin inner) =>
      if passable origin then do
        let inner ← alter? passable missing change path origin inner
        some (t.replace key (.table origin inner))
      else none
    | some _ => none

/-- Adds an item under a dotted key, given as a path and its last part. -/
def assign? (path : List Text) (key : Text) (i : Item) : Origin → Table → Option Table :=
  alter? (fun o => o = .implied || o = .dotted) .dotted
    (fun origin t => if origin = .dotted ∨ path = [] then t.add? key i else none) path

/-- Leads to the table that a header names. -/
def under? (change : Origin → Table → Option Table) : (path : List Text) → Table → Option Table :=
  fun path => alter? (· ≠ .inline) .implied change path .header

/-- Opens the table under a header. One that was only implied so far becomes a table of its own. -/
def open? (path : List Text) (key : Text) : Table → Option Table :=
  under? (fun _ t =>
    match t.lookup key with
    | none => some (t ++ [(key, .table .header [])])
    | some (.table .implied inner) => some (t.replace key (.table .header inner))
    | some _ => none) path

end Table

/-- A line of a document that says something. A path and a last part make up a dotted key. -/
inductive Statement
  | header (path : List Text) (key : Text)
  | entry (path : List Text) (key : Text) (i : Item)

/-- The document that statements make, and the path of the table that the last header opened. -/
def Statement.apply? : List Text × Table → Statement → Option (List Text × Table)
  | (_, t), header path key => (t.open? path key).map fun t => (path ++ [key], t)
  | (current, t), entry path key i =>
    (t.under? (Table.assign? path key i) current).map fun t => (current, t)

/-- The document that statements make. -/
def Table.ofStatements? (statements : List Statement) : Option Table :=
  (statements.foldlM Statement.apply? ([], [])).map (·.2)

end Spreadsheet.Toml
