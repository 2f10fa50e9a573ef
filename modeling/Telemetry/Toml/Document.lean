import Telemetry.Toml.Scalar
/-!
# TOML documents

A document is a sequence of lines. A header opens a table, and the lines behind it add values to
that table.
-/

namespace Telemetry.Toml

/-- Drops blanks, line ends and comments. `inComment` is set up to the end of a comment's line. -/
def skipLines (inComment : Bool) : List Char → List Char
  | '\r' :: '\n' :: rest => skipLines false rest
  | c :: rest =>
    if c = '\n' then skipLines false rest
    else if inComment then if isPlain c then skipLines true rest else c :: rest
    else if isBlank c then skipLines false rest
    else if c = '#' then skipLines true rest
    else c :: rest
  | [] => []

mutual

/-- Reads a value. `room` is the number of arrays and tables that may still be opened. At most two
calls pass between two characters, so that `fuel` above twice the length of the text never runs
out. -/
def readValue : (fuel room : Nat) → List Char → Option (Value × List Char)
  | 0, _, _ => none
  | fuel + 1, room, cs =>
    match cs with
    | '[' :: rest =>
      if room = 0 then none
      else
        match skipLines false rest with
        | ']' :: rest => some (.array [], rest)
        | rest => do
          let (items, rest) ← readItems fuel (room - 1) rest
          return (.array items, rest)
    | '\x7b' :: rest =>
      if room = 0 then none
      else
        match skipBlank rest with
        | '\x7d' :: rest => some (.table .braces [], rest)
        | rest => do
          let (entries, rest) ← readEntries fuel (room - 1) [] rest
          return (.table .braces entries, rest)
    | cs => readScalar cs

/-- Reads the items of an array up to its closing bracket. A comma may follow the last item. -/
def readItems : (fuel room : Nat) → List Char → Option (List Value × List Char)
  | 0, _, _ => none
  | fuel + 1, room, cs => do
    let (item, rest) ← readValue fuel room cs
    match skipLines false rest with
    | ']' :: rest => return ([item], rest)
    | ',' :: rest =>
      match skipLines false rest with
      | ']' :: rest => return ([item], rest)
      | rest => do
        let (items, rest) ← readItems fuel room rest
        return (item :: items, rest)
    | _ => none

/-- Reads the entries of a table up to its closing brace. -/
def readEntries : (fuel room : Nat) → Entries → List Char → Option (Entries × List Char)
  | 0, _, _, _ => none
  | fuel + 1, room, entries, cs => do
    let (path, key, rest) ← readKey cs
    let (value, rest) ← readValue fuel room (skipBlank (← readMark '=' rest))
    let entries ← entries.addDotted path key value
    match skipBlank rest with
    | '\x7d' :: rest => return (entries, rest)
    | ',' :: rest => readEntries fuel room entries rest
    | _ => none

end

/-- What a line of a document says. -/
inductive Line where
  /-- A header opens a table. -/
  | table (path : List String) (key : String)
  /-- A header in double brackets appends a table to an array. -/
  | row (path : List String) (key : String)
  /-- A value is added to the table opened last. -/
  | entry (path : List String) (key : String) (value : Value)

/-- Reads what a line says, without its end. -/
def readLine (cs : List Char) : Option (Line × List Char) :=
  match cs with
  | '[' :: '[' :: rest => do
    let (path, key, rest) ← readKey rest
    return (.row path key, ← readMark ']' (← readMark ']' rest))
  | '[' :: rest => do
    let (path, key, rest) ← readKey rest
    return (.table path key, ← readMark ']' rest)
  | cs => do
    let (path, key, rest) ← readKey cs
    let rest ← readMark '=' rest
    let (value, rest) ← readValue (2 * cs.length + 2) (maxNesting - 1) (skipBlank rest)
    return (.entry path key value, rest)

/-- Drops the end of a line, with blanks and a comment before it. -/
def readTrailing (cs : List Char) : Option (List Char) :=
  let rest := match skipBlank cs with
    | '#' :: rest => rest.dropWhile isPlain
    | rest => rest
  if rest.isEmpty then some [] else readLineEnd? rest

/-- A document as far as it was read. -/
structure Document where
  entries : Entries
  /-- The way to the table that the last header opened. -/
  opened : List String

/-- Takes a line in. -/
def Document.take (document : Document) : Line → Option Document
  | .table path key => do
    return ⟨← document.entries.openTable path key, path ++ [key]⟩
  | .row path key => do
    return ⟨← document.entries.appendTable path key, path ++ [key]⟩
  | .entry path key value => do
    return ⟨← document.entries.addUnder document.opened path key value, document.opened⟩

/-- Reads the lines of a document. Each takes up at least one character, so that `fuel` above the
length of the text never runs out. -/
def readLines : (fuel : Nat) → Document → List Char → Option Entries
  | 0, _, _ => none
  | fuel + 1, document, cs =>
    match skipLines false cs with
    | [] => some document.entries
    | cs => do
      let (line, rest) ← readLine cs
      readLines fuel (← document.take line) (← readTrailing rest)

def parse? (s : String) : Option Entries :=
  let cs := match s.toList with
    | '\ufeff' :: rest => rest
    | cs => cs
  readLines (cs.length + 1) ⟨[], []⟩ cs

end Telemetry.Toml
