/-!
# TOML values

What a TOML text can hold, and how a table grows while it is read. A table is opened once by a
header or written once between braces; dotted keys may add to it only as long as nothing but dotted
keys made it.
-/

namespace Telemetry.Toml

/-- What brought a table into being. -/
inductive Origin where
  /-- It is written between braces, and nothing is added later. -/
  | braces
  /-- A header names it. -/
  | header
  /-- It lies on the way to a table that a header names. -/
  | implied
  /-- It lies on the way to the last part of a dotted key. -/
  | dotted
  deriving Repr, DecidableEq

inductive Value where
  | text (value : String)
  | int (value : Int)
  | float (value : Float)
  | bool (value : Bool)
  | dateTime
  | array (items : List Value)
  | table (origin : Origin) (entries : List (String × Value))
  /-- The tables that headers in double brackets make, in the order of the text. -/
  | tables (rows : List (List (String × Value)))

/-- The entries of a table in the order of the text, under different keys. -/
abbrev Entries := List (String × Value)

namespace Entries

def get? (key : String) (entries : Entries) : Option Value := entries.lookup key

/-- Sets the value under a key, at the place of an earlier one. -/
def set (key : String) (value : Value) : Entries → Entries
  | [] => [(key, value)]
  | entry :: rest => if entry.1 = key then (key, value) :: rest else entry :: set key value rest

/-- Changes the table at the end of a path, where `change` is told how that table came into being.
Tables missing on the way are made, of the given origin; in an array of tables the way leads
through the last one. Tables for which `closed` holds are not entered. -/
def changeAt (closed : Origin → Bool) (missing : Origin)
    (change : Origin → Entries → Option Entries) (origin : Origin) :
    (path : List String) → Entries → Option Entries
  | [], entries => change origin entries
  | key :: path, entries =>
    match entries.get? key with
    | none => do
      let inner ← changeAt closed missing change missing path []
      return entries.set key (.table missing inner)
    | some (.table origin inner) =>
      if closed origin then none
      else do
        let inner ← changeAt closed missing change origin path inner
        return entries.set key (.table origin inner)
    | some (.tables rows) => do
      let inner ← changeAt closed missing change .header path (← rows.getLast?)
      return entries.set key (.tables (rows.dropLast ++ [inner]))
    | some _ => none

/-- Adds a value under a new key. -/
def add (key : String) (value : Value) (entries : Entries) : Option Entries :=
  if (entries.get? key).isSome then none else some (entries ++ [(key, value)])

/-- Adds a value under a new dotted key, whose last part is `key`. The table it goes into must stem
from dotted keys too. -/
def addDotted (path : List String) (key : String) (value : Value) (entries : Entries) :
    Option Entries :=
  if path.isEmpty then entries.add key value
  else
    let closed (origin : Origin) : Bool := origin = .braces || origin = .header
    let change (origin : Origin) (inner : Entries) : Option Entries :=
      if origin = .dotted then inner.add key value else none
    changeAt closed .dotted change .header path entries

/-- Opens the table that a header names. It may exist only as a table implied by other headers. -/
def openTable (path : List String) (key : String) (entries : Entries) : Option Entries :=
  let change (_ : Origin) (inner : Entries) : Option Entries :=
    match inner.get? key with
    | none => some (inner.set key (.table .header []))
    | some (.table .implied opened) => some (inner.set key (.table .header opened))
    | some _ => none
  changeAt (· = .braces) .implied change .header path entries

/-- Appends a table to the array of tables that a header names. -/
def appendTable (path : List String) (key : String) (entries : Entries) : Option Entries :=
  let change (_ : Origin) (inner : Entries) : Option Entries :=
    match inner.get? key with
    | none => some (inner.set key (.tables [[]]))
    | some (.tables rows) => some (inner.set key (.tables (rows ++ [[]])))
    | some _ => none
  changeAt (· = .braces) .implied change .header path entries

/-- Adds a value under a dotted key of the table that the last header opened. -/
def addUnder (opened : List String) (path : List String) (key : String) (value : Value)
    (entries : Entries) : Option Entries :=
  changeAt (fun _ => false) .implied (fun _ => addDotted path key value) .header opened entries

end Entries

end Telemetry.Toml
