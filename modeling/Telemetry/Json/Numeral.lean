import Telemetry.Json.Basic
/-!
# Numerals

The decimal numerals of JSON, and the numbers they stand for. A numeral without point and exponent
is an integer if it fits 64 bits. Any other one is read as a float: its digits make an integer as
far as 64 bits hold it, which is rounded to a float and then scaled by a power of ten.
-/

namespace Telemetry.Json

/-- A decimal numeral as it is written. -/
structure Numeral where
  negative : Bool
  /-- The digits before the point. -/
  whole : List Nat
  /-- The digits behind the point, if there is one. -/
  fraction : List Nat
  exponent : Option Int
  deriving Repr, DecidableEq

namespace Numeral

/-- The largest number of 64 bits. -/
def maxDigits : Nat := UInt64.size - 1

/-- Appends digits to a number while it fits 64 bits. Gives the number and the digits left over. -/
def gather (n : Nat) : List Nat → Nat × List Nat
  | [] => (n, [])
  | digit :: rest =>
    if n * 10 + digit ≤ maxDigits then gather (n * 10 + digit) rest else (n, digit :: rest)

/-- The power of ten nearest to `10 ^ e`, for `e` up to 308. -/
def powerOfTen (e : Nat) : Float := Float.ofScientific 1 false e

/-- A float times a power of ten. Powers too small to exist are divided out in steps; after
`steps` of them nothing is left of a 64-bit number. There is no result beyond the largest float. -/
def scale : (steps : Nat) → Float → Int → Option Float
  | 0, x, _ => some x
  | steps + 1, x, exponent =>
    if exponent.natAbs ≤ 308 then
      if 0 ≤ exponent then
        let scaled := x * powerOfTen exponent.toNat
        if scaled.isInf then none else some scaled
      else some (x / powerOfTen exponent.natAbs)
    else if x == 0 then some x
    else if 0 ≤ exponent then none
    else scale steps (x / powerOfTen 308) (exponent + 308)

/-- The float of a numeral, unless it is too large. -/
def toFloat? (n : Numeral) : Option Float :=
  let (digits, dropped) := gather 0 n.whole
  let (digits, unused) := gather digits n.fraction
  let places := ((dropped.length + unused.length : Nat) : Int) - n.fraction.length
  (scale 4 (Float.ofNat digits) (places + n.exponent.getD 0)).map fun x =>
    if n.negative then -x else x

/-- The integer of a numeral that has no point and no exponent and fits 64 bits. A negative zero is
no integer. -/
def toInt? (n : Numeral) : Option Int :=
  if n.fraction.isEmpty ∧ n.exponent.isNone then
    let value : Nat := n.whole.foldl (fun value digit => value * 10 + digit) 0
    if n.negative then
      if 0 < value ∧ value ≤ 0x8000000000000000 then some (-(value : Int)) else none
    else if value ≤ maxDigits then some value
    else none
  else none

/-- The JSON number of a numeral, unless it is too large. -/
def toJson? (n : Numeral) : Option Json :=
  match n.toInt? with
  | some i => some (.int i)
  | none => n.toFloat?.map .float

end Numeral

end Telemetry.Json
