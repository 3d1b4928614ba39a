import Retouch.Text

/-!
Values of a TOML document. Floats and moments are only told apart from the other kinds; what they
say is not kept. A table remembers how it came about, because that decides who may add to it.
-/

namespace Retouch.Toml

inductive Origin where
  /-- It has a header of its own, or is the document. -/
  | header
  /-- It was named on the way to another table's header. -/
  | implied
  /-- It was named on the way to a dotted key. -/
  | dotted
  /-- It was written between braces. -/
  | inline
  deriving DecidableEq, Repr

inductive Value where
  | string (text : Text)
  | integer (n : Int)
  | float
  | boolean (b : Bool)
  /-- A date, a time, or both. -/
  | moment
  | array (items : List Value)
  /-- Tables that share a header in double brackets. -/
  | tables (items : List Value)
  | table (origin : Origin) (entries : List (Text × Value))

abbrev Entries := List (Text × Value)

namespace Entries

def get? (key : Text) : Entries → Option Value
  | [] => none
  | (k, v) :: rest => if k = key then some v else get? key rest

def replace (key : Text) (value : Value) : Entries → Entries
  | [] => []
  | (k, v) :: rest => if k = key then (k, value) :: rest else (k, v) :: replace key value rest

def add? (key : Text) (value : Value) (entries : Entries) : Option Entries :=
  match get? key entries with
  | none => some (entries ++ [(key, value)])
  | some _ => none

/-- Add a dotted key: `path` are its leading names. Tables on the way are made as needed; a table
that has a header or braces of its own cannot be added to. Of tables in double brackets the last one
may be passed through on the way to a table further down. -/
def addDotted? (key : Text) (value : Value) : List Text → Entries → Option Entries
  | [], entries => entries.add? key value
  | name :: path, entries =>
    match entries.get? name with
    | none =>
      (addDotted? key value path []).map fun sub => entries ++ [(name, .table .dotted sub)]
    | some (.table .dotted sub) =>
      (addDotted? key value path sub).map fun sub => replace name (.table .dotted sub) entries
    | some (.table .implied sub) =>
      if path.isEmpty then none
      else (addDotted? key value path sub).map fun sub => replace name (.table .implied sub) entries
    | some (.tables items) =>
      match path, items.getLast? with
      | next :: path, some (.table origin sub) =>
        (addDotted? key value (next :: path) sub).map fun sub =>
          replace name (.tables (items.dropLast ++ [.table origin sub])) entries
      | _, _ => none
    | some _ => none

/-- Change the table that a header path leads to. Tables on the way are made as needed; of tables in
double brackets the last one is meant. -/
def within? (change : Entries → Option Entries) : List Text → Entries → Option Entries
  | [], entries => change entries
  | name :: path, entries =>
    match entries.get? name with
    | none => (within? change path []).map fun sub => entries ++ [(name, .table .implied sub)]
    | some (.table .inline _) => none
    | some (.table origin sub) =>
      (within? change path sub).map fun sub => replace name (.table origin sub) entries
    | some (.tables items) =>
      match items.getLast? with
      | some (.table origin sub) =>
        (within? change path sub).map fun sub =>
          replace name (.tables (items.dropLast ++ [.table origin sub])) entries
      | _ => none
    | some _ => none

def open? (key : Text) (entries : Entries) : Option Entries :=
  match entries.get? key with
  | none => some (entries ++ [(key, .table .header [])])
  | some (.table .implied sub) => some (replace key (.table .header sub) entries)
  | some _ => none

/-- Open a further table under a header in double brackets whose last name is `key`. -/
def openNext? (key : Text) (entries : Entries) : Option Entries :=
  match entries.get? key with
  | none => some (entries ++ [(key, .tables [.table .header []])])
  | some (.tables items) => some (replace key (.tables (items ++ [.table .header []])) entries)
  | some _ => none

end Entries

end Retouch.Toml
