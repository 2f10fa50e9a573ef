import Telemetry.Text.Hex
import Telemetry.Toml.Value
/-!
# TOML scalars and keys

Strings in their four spellings, numbers, dates and times, and the keys that name values. Each
reader takes what it reads from the front of the text and gives the rest.
-/

namespace Telemetry.Toml

/-- Whether a character may stand in a comment or unescaped in a string. -/
def isPlain (c : Char) : Bool := c = '\t' || (0x20 ≤ c.toNat && c.toNat ≠ 0x7F)

def isBlank (c : Char) : Bool := c = ' ' || c = '\t'

def skipBlank (cs : List Char) : List Char := cs.dropWhile isBlank

/-- The text behind a line end. -/
def readLineEnd? : List Char → Option (List Char)
  | '\n' :: rest => some rest
  | '\r' :: '\n' :: rest => some rest
  | _ => none

/-- A character named by its number. -/
def charOf? (code : Nat) : Option Char :=
  if code < 0xD800 ∨ (0xDFFF < code ∧ code < 0x110000) then some (Char.ofNat code) else none

/-- The value of digits in a base, as far as all are digits. -/
def valueOf? (digit? : Char → Option Nat) (base : Nat) (cs : List Char) : Option Nat :=
  cs.foldlM (fun value c => (digit? c).map (value * base + ·)) 0

/-- The value of hexadecimal digits. -/
def hexValue? (cs : List Char) : Option Nat := valueOf? Text.hexDigit? 16 cs

/-- The character that a letter behind a backslash stands for. -/
def shortEscape? (c : Char) : Option Char :=
  match c with
  | 'b' => some '\x08'
  | 't' => some '\t'
  | 'n' => some '\n'
  | 'f' => some '\x0c'
  | 'r' => some '\r'
  | '"' => some '"'
  | '\\' => some '\\'
  | _ => none

/-- Reads a string between double quotes, from behind the opening one. -/
def readBasic (read : List Char) : List Char → Option (String × List Char)
  | '"' :: rest => some (String.ofList read.reverse, rest)
  | '\\' :: 'u' :: a :: b :: c :: d :: rest => do
    readBasic ((← charOf? (← hexValue? [a, b, c, d])) :: read) rest
  | '\\' :: 'U' :: a :: b :: c :: d :: e :: f :: g :: h :: rest => do
    readBasic ((← charOf? (← hexValue? [a, b, c, d, e, f, g, h])) :: read) rest
  | '\\' :: c :: rest => do readBasic ((← shortEscape? c) :: read) rest
  | c :: rest => if isPlain c then readBasic (c :: read) rest else none
  | [] => none

/-- Reads a string between single quotes, from behind the opening one. -/
def readLiteral (cs : List Char) : Option (String × List Char) :=
  match cs.dropWhile fun c => isPlain c && c ≠ '\'' with
  | '\'' :: rest => some (String.ofList (cs.takeWhile fun c => isPlain c && c ≠ '\''), rest)
  | _ => none

/-- Reads a string of several lines between three double quotes, from behind the opening ones. Up to
two quotes may stand before the closing ones. A backslash at the end of a line drops all blanks and
line ends up to the next character; `folding` is set while they are dropped. -/
def readLongBasic (folding : Bool) (read : List Char) : List Char → Option (String × List Char)
  | '"' :: '"' :: '"' :: '"' :: '"' :: rest =>
    some (String.ofList ('"' :: '"' :: read).reverse, rest)
  | '"' :: '"' :: '"' :: '"' :: rest => some (String.ofList ('"' :: read).reverse, rest)
  | '"' :: '"' :: '"' :: rest => some (String.ofList read.reverse, rest)
  | '\\' :: 'u' :: a :: b :: c :: d :: rest => do
    readLongBasic false ((← charOf? (← hexValue? [a, b, c, d])) :: read) rest
  | '\\' :: 'U' :: a :: b :: c :: d :: e :: f :: g :: h :: rest => do
    readLongBasic false ((← charOf? (← hexValue? [a, b, c, d, e, f, g, h])) :: read) rest
  | '\\' :: c :: rest =>
    match shortEscape? c with
    | some c => readLongBasic false (c :: read) rest
    | none =>
      if (readLineEnd? (skipBlank (c :: rest))).isSome then readLongBasic true read (c :: rest)
      else none
  | '\r' :: '\n' :: rest => readLongBasic folding (if folding then read else '\n' :: read) rest
  | c :: rest =>
    if folding && (isBlank c || c = '\n') then readLongBasic true read rest
    else if isPlain c || c = '\n' then readLongBasic false (c :: read) rest
    else none
  | [] => none

/-- Reads a string of several lines between three single quotes, from behind the opening ones. Up to
two quotes may stand before the closing ones. -/
def readLongLiteral (read : List Char) : List Char → Option (String × List Char)
  | '\'' :: '\'' :: '\'' :: '\'' :: '\'' :: rest =>
    some (String.ofList ('\'' :: '\'' :: read).reverse, rest)
  | '\'' :: '\'' :: '\'' :: '\'' :: rest => some (String.ofList ('\'' :: read).reverse, rest)
  | '\'' :: '\'' :: '\'' :: rest => some (String.ofList read.reverse, rest)
  | '\r' :: '\n' :: rest => readLongLiteral ('\n' :: read) rest
  | c :: rest => if isPlain c || c = '\n' then readLongLiteral (c :: read) rest else none
  | [] => none

/-- Drops a line end right behind the opening quotes of a string of several lines. -/
def skipFirstLineEnd (cs : List Char) : List Char := (readLineEnd? cs).getD cs

/-- Whether a character may stand in a key without quotes. -/
def isKeyChar (c : Char) : Bool :=
  ('a' ≤ c && c ≤ 'z') || ('A' ≤ c && c ≤ 'Z') || ('0' ≤ c && c ≤ '9') || c = '_' || c = '-'

def readKeyPart (cs : List Char) : Option (String × List Char) :=
  match cs with
  | '"' :: rest => readBasic [] rest
  | '\'' :: rest => readLiteral rest
  | cs =>
    let part := cs.takeWhile isKeyChar
    if part.isEmpty then none else some (String.ofList part, cs.dropWhile isKeyChar)

/-- Reads a key of at most `room` parts with points between them. -/
def readKeyParts : (room : Nat) → List Char → Option (List String × List Char)
  | 0, _ => none
  | room + 1, cs => do
    let (part, rest) ← readKeyPart (skipBlank cs)
    match skipBlank rest with
    | '.' :: rest => do
      let (parts, rest) ← readKeyParts room rest
      return (part :: parts, rest)
    | rest => return ([part], rest)

/-- Values and keys go less than this many levels deep. -/
def maxNesting : Nat := 80

/-- Reads a key: the way to a table, and the last part. -/
def readKey (cs : List Char) : Option (List String × String × List Char) := do
  let (parts, rest) ← readKeyParts (maxNesting - 1) cs
  return (parts.dropLast, ← parts.getLast?, rest)

def decimalDigit? (c : Char) : Option Nat :=
  if '0' ≤ c ∧ c ≤ '9' then some (c.toNat - 48) else none

def isDecimal (c : Char) : Bool := (decimalDigit? c).isSome

/-- Reads digits, with single underscores between them. -/
def readDigits (isDigit : Char → Bool) (read : List Char) : List Char → List Char × List Char
  | '_' :: c :: rest =>
    if isDigit c && !read.isEmpty then readDigits isDigit (c :: read) rest
    else (read.reverse, '_' :: c :: rest)
  | c :: rest =>
    if isDigit c then readDigits isDigit (c :: read) rest else (read.reverse, c :: rest)
  | [] => (read.reverse, [])

/-- Reads a decimal integer without its sign. A leading zero stands alone. -/
def readWhole (cs : List Char) : List Char × List Char :=
  match cs with
  | '0' :: rest => (['0'], rest)
  | cs => readDigits isDecimal [] cs

/-- An integer of 64 bits. -/
def ofSigned? (negative : Bool) (magnitude : Nat) : Option Value :=
  if negative then if magnitude ≤ 0x8000000000000000 then some (.int (-(magnitude : Int))) else none
  else if magnitude < 0x8000000000000000 then some (.int magnitude) else none

/-- The float nearest to `digits · 10 ^ exponent`. Beyond the bounds taken here it is infinite or
zero. -/
def nearestFloat (digits : List Char) (exponent : Int) : Float :=
  let magnitude := (valueOf? decimalDigit? 10 digits).getD 0
  if exponent < 0 then
    Float.ofScientific magnitude true (min exponent.natAbs (digits.length + 400))
  else Float.ofScientific magnitude false (min exponent.natAbs 400)

/-- A float; none is too large, but a negative one becomes infinite. -/
def ofDecimal? (negative : Bool) (digits : List Char) (exponent : Int) : Option Value :=
  let magnitude := nearestFloat digits exponent
  if negative then some (.float (-magnitude))
  else if magnitude.isInf then none
  else some (.float magnitude)

/-- Reads the exponent of a float, if there is one. -/
def readExponent (cs : List Char) : Option (Option Int × List Char) :=
  match cs with
  | [] => some (none, [])
  | c :: rest =>
    if c = 'e' ∨ c = 'E' then
      let (negative, rest) : Bool × List Char := match rest with
        | '+' :: rest => (false, rest)
        | '-' :: rest => (true, rest)
        | rest => (false, rest)
      let (digits, rest) := readDigits isDecimal [] rest
      if digits.isEmpty then none
      else do
        let magnitude ← valueOf? decimalDigit? 10 digits
        return (some (if negative then -(magnitude : Int) else magnitude), rest)
    else some (none, cs)

/-- Reads a decimal number behind its sign. -/
def readDecimal (negative : Bool) (cs : List Char) : Option (Value × List Char) :=
  match cs with
  | 'i' :: 'n' :: 'f' :: rest =>
    let infinity : Float := 1.0 / 0.0
    some (.float (if negative then -infinity else infinity), rest)
  | 'n' :: 'a' :: 'n' :: rest => some (.float (0.0 / 0.0), rest)
  | cs =>
    match readWhole cs with
    | ([], _) => none
    | (whole, '.' :: rest) => do
      let (fraction, rest) := readDigits isDecimal [] rest
      if fraction.isEmpty then none
      else do
        let (exponent, rest) ← readExponent rest
        let value ← ofDecimal? negative (whole ++ fraction) (exponent.getD 0 - fraction.length)
        return (value, rest)
    | (whole, rest) => do
      let (exponent, rest) ← readExponent rest
      match exponent with
      | some exponent => return (← ofDecimal? negative whole exponent, rest)
      | none => return (← ofSigned? negative (← valueOf? decimalDigit? 10 whole), rest)

/-- Reads an integer in another base, behind its mark. -/
def readInBase (base : Nat) (cs : List Char) : Option (Value × List Char) := do
  let digit? (c : Char) : Option Nat := (Text.hexDigit? c).filter (· < base)
  let (digits, rest) := readDigits (fun c => (digit? c).isSome) [] cs
  if digits.isEmpty then none
  else return (← ofSigned? false (← valueOf? digit? base digits), rest)

def readNumber (cs : List Char) : Option (Value × List Char) :=
  match cs with
  | '0' :: 'x' :: rest => readInBase 16 rest
  | '0' :: 'o' :: rest => readInBase 8 rest
  | '0' :: 'b' :: rest => readInBase 2 rest
  | '+' :: rest => readDecimal false rest
  | '-' :: rest => readDecimal true rest
  | rest => readDecimal false rest

/-- Reads a number of exactly `width` digits between two bounds. -/
def readPadded (width low high : Nat) (cs : List Char) : Option (Nat × List Char) := do
  let digits := cs.take width
  if digits.length < width then none
  else
    let value ← valueOf? decimalDigit? 10 digits
    if low ≤ value ∧ value ≤ high then return (value, cs.drop width) else none

/-- Drops a character that must follow. -/
def readMark (mark : Char) (cs : List Char) : Option (List Char) :=
  match cs with
  | c :: rest => if c = mark then some rest else none
  | [] => none

/-- The number of days of a month. -/
def daysOf (year month : Nat) : Nat :=
  if month = 2 then
    if year % 4 = 0 ∧ (year % 100 ≠ 0 ∨ year % 400 = 0) then 29 else 28
  else if month = 4 ∨ month = 6 ∨ month = 9 ∨ month = 11 then 30
  else 31

def readDate (cs : List Char) : Option (List Char) := do
  let (year, rest) ← readPadded 4 0 9999 cs
  let (month, rest) ← readPadded 2 1 12 (← readMark '-' rest)
  let (_, rest) ← readPadded 2 1 (daysOf year month) (← readMark '-' rest)
  return rest

def readHourMinute (cs : List Char) : Option (List Char) := do
  let (_, rest) ← readPadded 2 0 23 cs
  let (_, rest) ← readPadded 2 0 59 (← readMark ':' rest)
  return rest

def readTime (cs : List Char) : Option (List Char) := do
  let (_, rest) ← readPadded 2 0 60 (← readMark ':' (← readHourMinute cs))
  match rest with
  | '.' :: c :: fraction =>
    return if isDecimal c then fraction.dropWhile isDecimal else rest
  | rest => return rest

/-- Reads the distance of a time from the prime meridian's, if it is given. -/
def readOffset (cs : List Char) : Option (List Char) :=
  match cs with
  | 'Z' :: rest => some rest
  | 'z' :: rest => some rest
  | '+' :: rest => readHourMinute rest
  | '-' :: rest => readHourMinute rest
  | rest => some rest

def readDateTime (cs : List Char) : Option (List Char) :=
  match readDate cs with
  | some (c :: rest) =>
    if c = 'T' ∨ c = 't' ∨ c = ' ' then
      match readTime rest with
      | some rest => readOffset rest
      | none => some (c :: rest)
    else some (c :: rest)
  | some [] => some []
  | none => readTime cs

/-- Reads a value that is no array and no table. -/
def readScalar (cs : List Char) : Option (Value × List Char) :=
  match cs with
  | '"' :: '"' :: '"' :: rest =>
    (readLongBasic false [] (skipFirstLineEnd rest)).map fun (s, rest) => (.text s, rest)
  | '"' :: rest => (readBasic [] rest).map fun (s, rest) => (.text s, rest)
  | '\'' :: '\'' :: '\'' :: rest =>
    (readLongLiteral [] (skipFirstLineEnd rest)).map fun (s, rest) => (.text s, rest)
  | '\'' :: rest => (readLiteral rest).map fun (s, rest) => (.text s, rest)
  | 't' :: 'r' :: 'u' :: 'e' :: rest => some (.bool true, rest)
  | 'f' :: 'a' :: 'l' :: 's' :: 'e' :: rest => some (.bool false, rest)
  | cs =>
    match readDateTime cs with
    | some rest => some (.dateTime, rest)
    | none => readNumber cs

end Telemetry.Toml
