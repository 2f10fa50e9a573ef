import Telemetry.Text.Hex
/-!
# Internet addresses

Addresses of version 4 are four decimal bytes. Those of version 6 are eight groups of four
hexadecimal digits, of which one run of zero groups may be written as two colons, and the last two
as an address of version 4.
-/

namespace Telemetry.Net

inductive IpAddress where
  | v4 (a b c d : UInt8)
  | v6 (groups : Vector UInt16 8)
  deriving Repr, DecidableEq

namespace IpAddress

def any : IpAddress := .v4 0 0 0 0

/-- Reads a number of at most `width` digits, all that there are. -/
def readNumber (digit? : Char → Option Nat) (base width : Nat) (cs : List Char) :
    Option (List Nat × Nat × List Char) :=
  let isDigit (c : Char) : Bool := (digit? c).isSome
  let digits := (cs.takeWhile isDigit).filterMap digit?
  if digits.isEmpty ∨ width < digits.length then none
  else some (digits, digits.foldl (fun value digit => value * base + digit) 0, cs.dropWhile isDigit)

/-- Reads a byte in decimal, without leading zeros. -/
def readByte (cs : List Char) : Option (UInt8 × List Char) := do
  let digit? (c : Char) : Option Nat := (Text.hexDigit? c).filter (· < 10)
  let (digits, value, rest) ← readNumber digit? 10 3 cs
  if (digits.head? = some 0 ∧ 1 < digits.length) ∨ 255 < value then none
  else return (UInt8.ofNat value, rest)

/-- Reads a byte behind a point. -/
def readNextByte (cs : List Char) : Option (UInt8 × List Char) :=
  match cs with
  | '.' :: rest => readByte rest
  | _ => none

/-- Reads four bytes with points between them. -/
def readBytes (cs : List Char) : Option ((UInt8 × UInt8 × UInt8 × UInt8) × List Char) := do
  let (a, rest) ← readByte cs
  let (b, rest) ← readNextByte rest
  let (c, rest) ← readNextByte rest
  let (d, rest) ← readNextByte rest
  return ((a, b, c, d), rest)

/-- Two bytes as a group. -/
def join (high low : UInt8) : UInt16 := high.toUInt16 <<< 8 ||| low.toUInt16

/-- Reads at most `room` groups with colons between them. The last two may be written as four bytes;
the result says whether they are. Before all but the first group a colon must stand. -/
def readGroups (first : Bool) : (room : Nat) → List Char → List UInt16 × Bool × List Char
  | 0, cs => ([], false, cs)
  | room + 1, cs =>
    let start? : Option (List Char) := if first then some cs else
      match cs with
      | ':' :: rest => some rest
      | _ => none
    match start? with
    | none => ([], false, cs)
    | some start =>
      match if room = 0 then none else readBytes start with
      | some ((a, b, c, d), rest) => ([join a b, join c d], true, rest)
      | none =>
        match readNumber Text.hexDigit? 16 4 start with
        | none => ([], false, cs)
        | some (_, value, rest) =>
          let (groups, bytes, rest) := readGroups false room rest
          (UInt16.ofNat value :: groups, bytes, rest)

/-- The address of groups, filled up with zeros between its two parts. -/
def ofGroups (front back : List UInt16) : IpAddress :=
  let groups := front ++ List.replicate (8 - front.length - back.length) 0 ++ back
  .v6 (Vector.ofFn fun i => groups.getD i 0)

/-- Reads an address of version 6. -/
def readV6 (cs : List Char) : Option (IpAddress × List Char) :=
  match readGroups true 8 cs with
  | (front, bytes, rest) =>
    if front.length = 8 then some (ofGroups front [], rest)
    else if bytes then none
    else
      match rest with
      | ':' :: ':' :: rest =>
        let (back, _, rest) := readGroups true (7 - front.length) rest
        some (ofGroups front back, rest)
      | _ => none

def parse? (s : String) : Option IpAddress :=
  match readBytes s.toList with
  | some ((a, b, c, d), rest) => if rest.isEmpty then some (.v4 a b c d) else none
  | none =>
    match readV6 s.toList with
    | some (address, []) => some address
    | _ => none

/-- Four bytes with points between them. -/
def bytesText (a b c d : UInt8) : String :=
  ".".intercalate ([a, b, c, d].map fun byte => toString byte.toNat)

/-- Groups with colons between them. -/
def groupsText (groups : List UInt16) : String :=
  ":".intercalate (groups.map fun group => String.ofList (Nat.toDigits 16 group.toNat))

/-- The number of zero groups that groups start with. -/
def zeros (groups : List UInt16) : Nat := (groups.takeWhile (· = 0)).length

/-- The place and length of the first longest run of zero groups, from a place on. -/
def longestZeros (place : Nat) : List UInt16 → Nat × Nat
  | [] => (place, 0)
  | group :: rest =>
    let here := zeros (group :: rest)
    let later := longestZeros (place + 1) rest
    if later.2 ≤ here then (place, here) else later

def text : IpAddress → String
  | .v4 a b c d => bytesText a b c d
  | .v6 groups =>
    let groups := groups.toList
    match groups with
    | [0, 0, 0, 0, 0, 0xFFFF, high, low] =>
      "::ffff:" ++
        bytesText (high >>> 8).toUInt8 high.toUInt8 (low >>> 8).toUInt8 low.toUInt8
    | groups =>
      let (place, length) := longestZeros 0 groups
      if length < 2 then groupsText groups
      else groupsText (groups.take place) ++ "::" ++ groupsText (groups.drop (place + length))

end IpAddress

/-- An address and a port. -/
structure SocketAddress where
  ip : IpAddress
  port : UInt16
  deriving Repr, DecidableEq

def SocketAddress.text (address : SocketAddress) : String :=
  let port := toString address.port.toNat
  match address.ip with
  | .v4 .. => address.ip.text ++ ":" ++ port
  | .v6 _ => "[" ++ address.ip.text ++ "]:" ++ port

end Telemetry.Net
