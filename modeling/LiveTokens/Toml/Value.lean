import LiveTokens.Text

/-!
# TOML values

The values of a TOML document, and the rules by which its lines put them into tables. A table can be
opened by one header only. A dotted key makes the tables it passes through, and only dotted keys may
add to those; an inline table is complete as it stands. No key is given a value twice.
-/

namespace LiveTokens

namespace Toml

/-- How a table came about. -/
inductive Origin where
  /-- A header of its own opened it. The table of the whole document counts as opened. -/
  | header
  /-- It is only known as a part of the name in some other header. -/
  | implied
  /-- A dotted key passed through it. -/
  | dotted
  /-- It was written between braces. -/
  | inline
deriving DecidableEq, Repr

/-- A value. Numbers with a fraction and points in time are kept as they were written. -/
inductive Value where
  | string (text : Text)
  | integer (number : Int)
  | float (written : Text)
  | boolean (truth : Bool)
  | dateTime (written : Text)
  | array (elements : List Value)
  | table (origin : Origin) (entries : List (Text × Value))
  /-- An array of tables that headers open one by one. -/
  | tables (elements : List (List (Text × Value)))
deriving Repr

/-- The entries of a table, in the order in which they were written. -/
abbrev Entries : Type :=
  List (Text × Value)

namespace Entries

/-- The value of a key. -/
def get? (entries : Entries) (key : Text) : Option Value :=
  List.lookup key entries

/-- Gives a key another value. -/
def set (entries : Entries) (key : Text) (value : Value) : Entries :=
  entries.map fun (name, old) => (name, if name = key then value else old)

/-- Adds a key that is not there yet. -/
def insertNew? (entries : Entries) (key : Text) (value : Value) : Option Entries :=
  match entries.get? key with
  | none => some (entries ++ [(key, value)])
  | some _ => none

/-- Changes the table at the end of a path. Missing tables on the way are made with the origin
`missing`. The path of a dotted key may not pass through a table that a header opened; no path
passes through a value that is complete. -/
def alterAt (missing : Origin) (change : Origin → Entries → Option Entries) :
    List Text → Origin → Entries → Option Entries
  | [], origin, entries => change origin entries
  | key :: path, _, entries =>
    match entries.get? key with
    | none => do
      let table ← alterAt missing change path missing []
      return entries ++ [(key, .table missing table)]
    | some (.table origin table) =>
      if origin = .inline ∨ (missing = .dotted ∧ origin = .header) then
        none
      else do
        let table ← alterAt missing change path origin table
        return entries.set key (.table origin table)
    | some (.tables elements) =>
      match elements.getLast? with
      | none => none
      | some last => do
        let last ← alterAt missing change path .header last
        return entries.set key (.tables (elements.dropLast ++ [last]))
    | some _ => none

/-- Opens the table with the given path of keys. -/
def openTable (entries : Entries) (path : List Text) (key : Text) : Option Entries :=
  alterAt .implied (fun _ parent =>
    match parent.get? key with
    | none => some (parent ++ [(key, .table .header [])])
    | some (.table .implied table) => some (parent.set key (.table .header table))
    | some _ => none) path .header entries

/-- Opens one more table in the array of tables with the given path of keys. -/
def openElement (entries : Entries) (path : List Text) (key : Text) : Option Entries :=
  alterAt .implied (fun _ parent =>
    match parent.get? key with
    | none => some (parent ++ [(key, .tables [[]])])
    | some (.tables elements) => some (parent.set key (.tables (elements ++ [[]])))
    | some _ => none) path .header entries

/-- Gives a value to a dotted key in a table. Its last part is added to a table that dotted keys
made, or to the table itself if there is only one part. -/
def assign (table : Entries) (path : List Text) (key : Text) (value : Value) : Option Entries :=
  alterAt .dotted (fun origin entries =>
    if path = [] ∨ origin = .dotted then entries.insertNew? key value else none) path .header table

/-- Gives a value to a dotted key in the table that was opened last. -/
def assignUnder (entries : Entries) (header : List Text) (path : List Text) (key : Text)
    (value : Value) : Option Entries :=
  alterAt .implied (fun _ table => table.assign path key value) header .header entries

end Entries

end Toml

end LiveTokens
