/-!
# TOML tables

The values of a TOML document as far as settings need them: of floats, dates and
arrays only the kind is kept.  A table remembers how it came about, because that
decides who may still add to it: a header may open a table that was only implied
by longer headers, and a dotted key may add to tables that dotted keys made.
-/

namespace Bracket

namespace Toml

/-- How a table came about. -/
inductive Origin where
  /-- It was written as a value and is complete. -/
  | inline
  /-- It has a header. -/
  | header
  /-- It is mentioned inside a longer header. -/
  | implied
  /-- It is mentioned inside a dotted key. -/
  | dotted
  deriving DecidableEq, Repr

/-- A value. -/
inductive Value where
  | string (s : String)
  | integer (i : Int)
  | boolean (b : Bool)
  | float
  | dateTime
  | array
  | table (origin : Origin) (entries : List (String × Value))
  /-- An array of tables with headers; only its last table can be added to. -/
  | tables (last : List (String × Value))

/-- The entries of a table in the order of their first mention. -/
abbrev Entries := List (String × Value)

namespace Entries

def find? (key : String) (entries : Entries) : Option Value :=
  (List.find? (fun e => e.1 == key) entries).map Prod.snd

/-- Change one entry or make it; the change sees the old value and may refuse. -/
def alter (key : String) (change : Option Value → Option Value) : Entries → Option Entries
  | [] => (change none).map fun v => [(key, v)]
  | (k, v) :: rest =>
      if k = key then (change (some v)).map fun v => (k, v) :: rest
      else (alter key change rest).map ((k, v) :: ·)

/-- Change the table inside a value on the way of a header. -/
def descend (change : Entries → Option Entries) : Option Value → Option Value
  | none => (change []).map (.table .implied)
  | some (.table .inline _) => none
  | some (.table origin entries) => (change entries).map (.table origin)
  | some (.tables last) => (change last).map .tables
  | some _ => none

/-- Open the table of a header. -/
def openTable : List String → Entries → Option Entries
  | [], _ => none
  | [key], entries =>
      entries.alter key fun
        | none => some (.table .header [])
        | some (.table .implied entries) => some (.table .header entries)
        | some _ => none
  | key :: path, entries => entries.alter key (descend (openTable path))

/-- Begin another table of an array of tables. -/
def openElement : List String → Entries → Option Entries
  | [], _ => none
  | [key], entries =>
      entries.alter key fun
        | none => some (.tables [])
        | some (.tables _) => some (.tables [])
        | some _ => none
  | key :: path, entries => entries.alter key (descend (openElement path))

/-- Change the table at the end of a path of headers. -/
def changeAt (change : Entries → Option Entries) : List String → Entries → Option Entries
  | [], entries => change entries
  | key :: path, entries => entries.alter key (descend (changeAt change path))

/-- Add a value under a dotted key. -/
def insert (value : Value) : List String → Entries → Option Entries
  | [], _ => none
  | [key], entries =>
      entries.alter key fun
        | none => some value
        | some _ => none
  | key :: path, entries =>
      entries.alter key fun
        | none => (insert value path []).map (.table .dotted)
        | some (.table .dotted entries) => (insert value path entries).map (.table .dotted)
        | some (.table .implied entries) =>
            if path.length = 1 then none
            else (insert value path entries).map (.table .implied)
        | some (.tables last) =>
            if path.length = 1 then none else (insert value path last).map .tables
        | some _ => none

end Entries

end Toml

end Bracket
