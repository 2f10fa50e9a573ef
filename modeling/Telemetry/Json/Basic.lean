import Telemetry.Number.Shortest
import Telemetry.Table
/-!
# JSON values and their text

A number is an integer of at most 64 bits, signed or unsigned, or a finite float. The fields of an
object stand in the order of their names, each name once.
-/

namespace Telemetry

inductive Json where
  | null
  | bool (value : Bool)
  | int (value : Int)
  | float (value : Float)
  | text (value : String)
  | array (items : List Json)
  /-- A table of fields. -/
  | object (fields : List (String × Json))
  deriving BEq, Inhabited

namespace Json

/-- The JSON number of a float; there is none for infinities and NaN, which become null. -/
def ofFloat (x : Float) : Json := if (Binary.ofFloat? x).isSome then float x else null

/-- The object with these fields; of those with one name the last counts. -/
def ofFields (fields : List (String × Json)) : Json :=
  object (Table.ofList fields)

/-! ## Text -/

/-- Floats have the fewest digits that read back, and halves go to the even digit. They are written
positionally while the leading digit stands between the fifth place after the point and the
sixteenth before it. -/
def floatLayout : Decimal.Layout where
  tie := .toEven
  positional exponent := -5 ≤ exponent && exponent ≤ 15
  integerEnd := ".0"
  notANumber := "null"
  infinity := "null"

/-- A character inside quotes: quote, backslash and control characters are escaped. -/
def escapeChar (c : Char) : List Char :=
  match c with
  | '"' => ['\\', '"']
  | '\\' => ['\\', '\\']
  | '\x08' => ['\\', 'b']
  | '\x0c' => ['\\', 'f']
  | '\n' => ['\\', 'n']
  | '\r' => ['\\', 'r']
  | '\t' => ['\\', 't']
  | c =>
    if c.toNat < 0x20 then
      ['\\', 'u', '0', '0', Nat.digitChar (c.toNat / 16), Nat.digitChar (c.toNat % 16)]
    else [c]

/-- A text in quotes. -/
def quoted (s : String) : List Char := '"' :: (s.toList.flatMap escapeChar ++ ['"'])

/-- A value that is no container. -/
def scalarChars : Json → List Char
  | null => ['n', 'u', 'l', 'l']
  | bool true => ['t', 'r', 'u', 'e']
  | bool false => ['f', 'a', 'l', 's', 'e']
  | int value => (toString value).toList
  | float value => (Decimal.text floatLayout value).toList
  | text value => quoted value
  | array _ | object _ => []

mutual

/-- A value without any blank between its parts. -/
def compactChars : Json → List Char
  | array items => '[' :: compactItems items
  | object fields => '\x7b' :: compactFields fields
  | null => scalarChars null
  | bool value => scalarChars (bool value)
  | int value => scalarChars (int value)
  | float value => scalarChars (float value)
  | text value => scalarChars (text value)
termination_by structural value => value

/-- Items between commas and the closing bracket. -/
def compactItems : List Json → List Char
  | [] => [']']
  | item :: [] => compactChars item ++ [']']
  | item :: rest => compactChars item ++ ',' :: compactItems rest
termination_by structural items => items

/-- Fields between commas and the closing brace. -/
def compactFields : List (String × Json) → List Char
  | [] => ['\x7d']
  | (name, value) :: [] => quoted name ++ ':' :: (compactChars value ++ ['\x7d'])
  | (name, value) :: rest =>
    quoted name ++ ':' :: (compactChars value ++ ',' :: compactFields rest)
termination_by structural fields => fields

end

/-- The text of a value, without any blank between its parts. -/
def compact (value : Json) : String := String.ofList value.compactChars

/-- The start of a line `depth` levels deep. -/
def newLine (depth : Nat) : List Char := '\n' :: List.replicate (2 * depth) ' '

mutual

/-- A value with every item and field on a line of its own, two spaces deeper than its container. -/
def prettyChars (depth : Nat) : Json → List Char
  | array [] => ['[', ']']
  | array (item :: rest) =>
    '[' :: (newLine (depth + 1) ++ prettyItems depth (item :: rest))
  | object [] => ['\x7b', '\x7d']
  | object (field :: rest) =>
    '\x7b' :: (newLine (depth + 1) ++ prettyFields depth (field :: rest))
  | null => scalarChars null
  | bool value => scalarChars (bool value)
  | int value => scalarChars (int value)
  | float value => scalarChars (float value)
  | text value => scalarChars (text value)
termination_by structural value => value

/-- Items on lines of their own, and the closing bracket `depth` levels deep. -/
def prettyItems (depth : Nat) : List Json → List Char
  | [] => newLine depth ++ [']']
  | item :: [] => prettyChars (depth + 1) item ++ newLine depth ++ [']']
  | item :: rest =>
    prettyChars (depth + 1) item ++ ',' :: (newLine (depth + 1) ++ prettyItems depth rest)
termination_by structural items => items

/-- Fields on lines of their own, and the closing brace `depth` levels deep. -/
def prettyFields (depth : Nat) : List (String × Json) → List Char
  | [] => newLine depth ++ ['\x7d']
  | (name, value) :: [] =>
    quoted name ++ ':' :: ' ' :: (prettyChars (depth + 1) value ++ newLine depth ++ ['\x7d'])
  | (name, value) :: rest =>
    quoted name ++ ':' :: ' ' :: (prettyChars (depth + 1) value ++
      ',' :: (newLine (depth + 1) ++ prettyFields depth rest))
termination_by structural fields => fields

end

/-- The text of a value over several lines. -/
def pretty (value : Json) : String := String.ofList (value.prettyChars 0)

end Json

end Telemetry
