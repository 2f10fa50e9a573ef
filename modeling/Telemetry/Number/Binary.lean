/-!
# Binary floating point as exact numbers

A finite float is `± significand · 2 ^ exponent`. This module takes a float apart into these
numbers, truncates it to a 64-bit integer, and moves between the 64-bit and the 32-bit formats
when nothing is lost.
-/

namespace Telemetry

/-- A finite binary floating-point number, `± significand · 2 ^ exponent`. -/
structure Binary where
  negative : Bool
  significand : Nat
  exponent : Int
  deriving Repr, DecidableEq

namespace Binary

/-- Whether the sign bit of a float is set, as it is for negative zero. -/
def isNegative (x : Float) : Bool := x.toBits.toNat >>> 63 = 1

/-- The exact value of a finite float. -/
def ofFloat? (x : Float) : Option Binary :=
  let bits : Nat := x.toBits.toNat
  let biased : Nat := bits >>> 52 % 2048
  let fraction : Nat := bits % (1 <<< 52)
  if biased = 2047 then none
  else if biased = 0 then some ⟨isNegative x, fraction, -1074⟩
  else some ⟨isNegative x, 1 <<< 52 + fraction, (biased : Int) - 1075⟩

/-- The integer part of the absolute value. -/
def magnitude (b : Binary) : Nat :=
  if 0 ≤ b.exponent then b.significand <<< b.exponent.toNat
  else b.significand >>> (-b.exponent).toNat

/-- A float with its fraction cut off, held at the ends of the 64-bit range; a NaN
counts as zero. -/
def truncate64 (x : Float) : Int64 :=
  match ofFloat? x with
  | some b =>
    if b.negative then Int64.ofInt (-(min b.magnitude 0x8000000000000000 : Nat))
    else Int64.ofInt (min b.magnitude 0x7fffffffffffffff : Nat)
  | none =>
    if x.isNaN then 0 else if isNegative x then Int64.minValue else Int64.maxValue

end Binary

/-! ## The 32-bit format -/

namespace Binary32

/-- The float that a 32-bit pattern stands for. -/
def toFloat (pattern : UInt32) : Float :=
  let bits := pattern.toNat
  let sign := bits >>> 31 <<< 63
  let biased := bits >>> 23 % 256
  let fraction := bits % (1 <<< 23)
  let rest :=
    if biased = 255 then 2047 <<< 52 + fraction <<< 29
    else if biased ≠ 0 then (biased + 896) <<< 52 + fraction <<< 29
    else if fraction = 0 then 0
    else
      let top := fraction.log2
      (top + 874) <<< 52 + (fraction - 1 <<< top) <<< (52 - top)
  Float.ofBits (UInt64.ofNat (sign + rest))

/-- The 32-bit pattern of exactly this float, if there is one. -/
def ofFloat? (x : Float) : Option UInt32 :=
  let bits := x.toBits.toNat
  let sign := bits >>> 63 <<< 31
  let biased := bits >>> 52 % 2048
  let fraction := bits % (1 <<< 52)
  let whole := 1 <<< 52 + fraction
  if biased = 2047 then
    if fraction % (1 <<< 29) = 0 then some (UInt32.ofNat (sign + 255 <<< 23 + fraction >>> 29))
    else none
  else if 897 ≤ biased ∧ biased ≤ 1150 then
    if fraction % (1 <<< 29) = 0 then
      some (UInt32.ofNat (sign + (biased - 896) <<< 23 + fraction >>> 29))
    else none
  else if 874 ≤ biased ∧ biased ≤ 896 then
    if whole % (1 <<< (926 - biased)) = 0 then
      some (UInt32.ofNat (sign + whole >>> (926 - biased)))
    else none
  else if biased = 0 ∧ fraction = 0 then some (UInt32.ofNat sign)
  else none

end Binary32

end Telemetry
