import Telemetry.Json.Numeral
import Telemetry.Text.Hex
/-!
# Reading JSON text

A text is first read as far as it is well-formed. The result is a tree in the order of the text,
with a mark at the place where the text is broken, if it is. What the tree stands for is decided
afterwards, by whoever knows what should stand there; so a fault in the text and a value of the
wrong shape are told apart by which one comes first.
-/

namespace Telemetry.Json

/-- A JSON text as it is written. -/
inductive Source where
  /-- The text is malformed here, and what follows was not read. -/
  | broken
  | null
  | bool (value : Bool)
  | number (numeral : Numeral)
  /-- A string; `none` when an escape names half of a surrogate pair. -/
  | text (value : Option String)
  | array (items : List Source)
  /-- Fields in the order of the text, with repetitions. The name is missing where the text breaks
  in it or where it has no value. -/
  | object (fields : List (Option String × Source))
  deriving Inhabited

namespace Source

/-- Drops the blanks that may stand between tokens. -/
def skipBlank : List Char → List Char
  | c :: rest =>
    if c = ' ' ∨ c = '\n' ∨ c = '\t' ∨ c = '\r' then skipBlank rest else c :: rest
  | [] => []

/-- The value of four hexadecimal digits. -/
def hexFour? (a b c d : Char) : Option Nat := do
  let a ← Text.hexDigit? a
  let b ← Text.hexDigit? b
  let c ← Text.hexDigit? c
  let d ← Text.hexDigit? d
  return ((a * 16 + b) * 16 + c) * 16 + d

/-- The character that a letter behind a backslash stands for. -/
def shortEscape? (c : Char) : Option Char :=
  match c with
  | '"' => some '"'
  | '\\' => some '\\'
  | '/' => some '/'
  | 'b' => some '\x08'
  | 'f' => some '\x0c'
  | 'n' => some '\n'
  | 'r' => some '\r'
  | 't' => some '\t'
  | _ => none

/-- The units of a string behind its opening quote: characters, and 16-bit numbers for those that
were escaped by number. Gives the rest of the text behind the closing quote. -/
def readUnits (units : List (Char ⊕ Nat)) : List Char → Option (List (Char ⊕ Nat) × List Char)
  | [] => none
  | '"' :: rest => some (units.reverse, rest)
  | '\\' :: 'u' :: a :: b :: c :: d :: rest =>
    match hexFour? a b c d with
    | some n => readUnits (.inr n :: units) rest
    | none => none
  | '\\' :: c :: rest =>
    match shortEscape? c with
    | some c => readUnits (.inl c :: units) rest
    | none => none
  | c :: rest => if c.toNat < 0x20 then none else readUnits (.inl c :: units) rest

/-- The characters of a string, unless half of a surrogate pair stands alone. -/
def joinUnits : List (Char ⊕ Nat) → Option (List Char)
  | [] => some []
  | .inl c :: rest => (joinUnits rest).map (c :: ·)
  | .inr high :: .inr low :: rest =>
    if 0xD800 ≤ high ∧ high ≤ 0xDBFF then
      if 0xDC00 ≤ low ∧ low ≤ 0xDFFF then
        (joinUnits rest).map
          (Char.ofNat (0x10000 + (high - 0xD800) * 0x400 + (low - 0xDC00)) :: ·)
      else none
    else if 0xDC00 ≤ high ∧ high ≤ 0xDFFF then none
    else (joinUnits (.inr low :: rest)).map (Char.ofNat high :: ·)
  | .inr n :: rest =>
    if 0xD800 ≤ n ∧ n ≤ 0xDFFF then none else (joinUnits rest).map (Char.ofNat n :: ·)

/-- A string behind its opening quote, and the rest of the text. -/
def readText (cs : List Char) : Option (Option String × List Char) :=
  (readUnits [] cs).map fun (units, rest) => ((joinUnits units).map String.ofList, rest)

/-- The digits that a text starts with, and the rest. -/
def readDigits (cs : List Char) : List Nat × List Char :=
  let isDigit (c : Char) : Bool := '0' ≤ c && c ≤ '9'
  ((cs.takeWhile isDigit).map (·.toNat - 48), cs.dropWhile isDigit)

/-- The exponent of a numeral, if one follows, and the rest. -/
def readExponent (cs : List Char) : Option (Option Int × List Char) :=
  match cs with
  | c :: rest =>
    if c = 'e' ∨ c = 'E' then
      let (sign, rest) : Int × List Char := match rest with
        | '+' :: rest => (1, rest)
        | '-' :: rest => (-1, rest)
        | rest => (1, rest)
      let (digits, rest) := readDigits rest
      if digits.isEmpty then none
      else
        let value : Nat := digits.foldl (fun value digit => value * 10 + digit) 0
        some (some (sign * (value : Int)), rest)
    else some (none, cs)
  | [] => some (none, cs)

/-- A numeral behind its sign, and the rest of the text. A leading zero stands alone. -/
def readNumeral (negative : Bool) (cs : List Char) : Option (Numeral × List Char) := do
  let (whole, rest) := readDigits cs
  match whole with
  | [] => none
  | 0 :: _ :: _ => none
  | whole =>
    match rest with
    | '.' :: rest =>
      let (fraction, rest) := readDigits rest
      if fraction.isEmpty then none
      else
        let (exponent, rest) ← readExponent rest
        return (⟨negative, whole, fraction, exponent⟩, rest)
    | rest =>
      let (exponent, rest) ← readExponent rest
      return (⟨negative, whole, [], exponent⟩, rest)

/-- What was read, and the rest of the text unless it broke. -/
abbrev Read := Source × Option (List Char)

/-- The text breaks here. -/
def breaks : Read := (broken, none)

mutual

/-- A value. At most two calls pass between two characters, so that `fuel` above twice the length of
the text never runs out. -/
def readValue : (fuel : Nat) → List Char → Read
  | 0, _ => breaks
  | fuel + 1, cs =>
    match skipBlank cs with
    | 'n' :: 'u' :: 'l' :: 'l' :: rest => (null, some rest)
    | 't' :: 'r' :: 'u' :: 'e' :: rest => (bool true, some rest)
    | 'f' :: 'a' :: 'l' :: 's' :: 'e' :: rest => (bool false, some rest)
    | '"' :: rest =>
      match readText rest with
      | some (value, rest) => (text value, some rest)
      | none => breaks
    | '[' :: rest =>
      match skipBlank rest with
      | ']' :: rest => (array [], some rest)
      | rest =>
        let (items, rest) := readItems fuel rest
        (array items, rest)
    | '\x7b' :: rest =>
      match skipBlank rest with
      | '\x7d' :: rest => (object [], some rest)
      | rest =>
        let (fields, rest) := readFields fuel rest
        (object fields, rest)
    | '-' :: rest =>
      match readNumeral true rest with
      | some (numeral, rest) => (number numeral, some rest)
      | none => breaks
    | rest =>
      match readNumeral false rest with
      | some (numeral, rest) => (number numeral, some rest)
      | none => breaks

/-- The items of an array up to its closing bracket. -/
def readItems : (fuel : Nat) → List Char → List Source × Option (List Char)
  | 0, _ => ([broken], none)
  | fuel + 1, cs =>
    match readValue fuel cs with
    | (item, none) => ([item], none)
    | (item, some rest) =>
      match skipBlank rest with
      | ']' :: rest => ([item], some rest)
      | ',' :: rest =>
        let (items, rest) := readItems fuel rest
        (item :: items, rest)
      | _ => ([item, broken], none)

/-- The fields of an object up to its closing brace. -/
def readFields : (fuel : Nat) → List Char → List (Option String × Source) × Option (List Char)
  | 0, _ => ([(none, broken)], none)
  | fuel + 1, cs =>
    match skipBlank cs with
    | '"' :: rest =>
      match readText rest with
      | none => ([(none, broken)], none)
      | some (name, rest) =>
        match skipBlank rest with
        | ':' :: rest =>
          match readValue fuel rest with
          | (value, none) => ([(name, value)], none)
          | (value, some rest) =>
            match skipBlank rest with
            | '\x7d' :: rest => ([(name, value)], some rest)
            | ',' :: rest =>
              let (fields, rest) := readFields fuel rest
              ((name, value) :: fields, rest)
            | _ => ([(name, value), (none, broken)], none)
        | _ => ([(name, broken)], none)
    | _ => ([(none, broken)], none)

end

def read (s : String) : Read := readValue (2 * s.length + 2) s.toList

end Source

end Telemetry.Json
