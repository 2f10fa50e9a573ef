import Telemetry.Number.Binary
/-!
# Shortest decimals

The text of a float uses the fewest decimal digits that read back as the same float, and among
those the ones nearest to it. Of two that are equally near, a `Decimal.Tie` chooses one.
`Decimal.shortest` finds the digits; a `Decimal.Layout` says how they are written out.
-/

namespace Telemetry

/-- The number `0.d₁d₂d₃… · 10 ^ (exponent + 1)`: `exponent` is that of the leading digit. -/
structure Decimal where
  digits : List Char
  exponent : Int
  deriving Repr, DecidableEq

namespace Decimal

/-- A positive fraction `num / den` and the half-open room around it: `below` and `above` are the
distances, in units of `1 / den`, within which every number rounds to it. -/
structure Interval where
  num : Nat
  den : Nat
  below : Nat
  above : Nat
  /-- Whether the ends of the room still round to the number. -/
  closed : Bool

/-- The numbers that round to a nonzero float. Below a power of two the neighbour is half as far. -/
def Interval.around (b : Binary) : Interval :=
  let boundary := b.significand = 1 <<< 52 ∧ b.exponent > -1074
  let below := if boundary then 1 else 2
  let closed := b.significand % 2 = 0
  let shift := b.exponent - 2
  if 0 ≤ shift then
    let unit := 1 <<< shift.toNat
    ⟨4 * b.significand * unit, 1, below * unit, 2 * unit, closed⟩
  else ⟨4 * b.significand, 1 <<< (-shift).toNat, below, 2, closed⟩

/-- Whether `count · 10 ^ unit` rounds to the float. -/
def Interval.hit (i : Interval) (unit : Int) (count : Nat) : Bool :=
  let (value, num, below, above) :=
    if 0 ≤ unit then (count * Nat.pow 10 unit.toNat * i.den, i.num, i.below, i.above)
    else
      let scale := Nat.pow 10 (-unit).toNat
      (count * i.den, i.num * scale, i.below * scale, i.above * scale)
  if value ≤ num then if i.closed then num - value ≤ below else num - value < below
  else if i.closed then value - num ≤ above else value - num < above

/-- Which of two neighbouring decimals stands for a number halfway between them. -/
inductive Tie where
  /-- The one whose last digit is even. -/
  | toEven
  /-- The one that is farther from zero. -/
  | awayFromZero
  deriving Repr, DecidableEq

/-- Whether a number halfway between `count` and `count + 1` becomes the greater one. -/
def Tie.takesUpper (tie : Tie) (count : Nat) : Bool :=
  match tie with
  | toEven => count % 2 = 1
  | awayFromZero => true

/-- The number in whole units of `10 ^ unit`, rounded down, and whether the next whole unit is
nearer, or equally near and chosen. -/
def Interval.grid (i : Interval) (tie : Tie) (unit : Int) : Nat × Bool :=
  let (num, den) :=
    if 0 ≤ unit then (i.num, i.den * Nat.pow 10 unit.toNat)
    else (i.num * Nat.pow 10 (-unit).toNat, i.den)
  let count := num / den
  let double := 2 * (num % den)
  (count, den < double ∨ (double = den ∧ tie.takesUpper count))

def trim (digits : List Char) : List Char :=
  match (digits.reverse.dropWhile (· == '0')).reverse with
  | [] => ['0']
  | kept => kept

/-- The decimal of `length` digits that rounds to the float, the nearer one if two do. -/
def candidate? (i : Interval) (tie : Tie) (exponent : Int) (length : Nat) : Option Decimal :=
  let unit := exponent + 1 - length
  let (count, up) := i.grid tie unit
  let low := i.hit unit count
  let high := i.hit unit (count + 1)
  if low ∨ high then
    let digits := Nat.toDigits 10 (if high ∧ (up ∨ ¬ low) then count + 1 else count)
    some ⟨trim digits, unit + digits.length - 1⟩
  else none

/-- The exponent of the leading digit of a positive fraction above `10 ^ -400`. -/
def leadingExponent (num den : Nat) : Int :=
  (Nat.toDigits 10 (num * Nat.pow 10 400 / den)).length - 401

/-- The fewest digits that read back as this nonzero float; seventeen always do. -/
def shortest (tie : Tie) (b : Binary) : Decimal :=
  if b.significand = 0 then ⟨['0'], 0⟩
  else
    let i := Interval.around b
    let exponent := leadingExponent i.num i.den
    ((List.range' 1 17).findSome? (candidate? i tie exponent)).getD ⟨['0'], exponent⟩

/-- How digits become text. -/
structure Layout where
  tie : Tie
  /-- Which exponents of the leading digit are written positionally. -/
  positional : Int → Bool
  /-- What follows an integer written positionally. -/
  integerEnd : String
  notANumber : String
  infinity : String

/-- Positional notation: zeros fill the places between the digits and the point. -/
def positionalText (integerEnd : String) (d : Decimal) : String :=
  if d.exponent < 0 then
    "0." ++ String.ofList (List.replicate (-d.exponent - 1).toNat '0' ++ d.digits)
  else
    let places := d.exponent.toNat + 1
    let whole := d.digits.take places
    let fraction := d.digits.drop places
    String.ofList (whole ++ List.replicate (places - whole.length) '0') ++
      (if fraction.isEmpty then integerEnd else "." ++ String.ofList fraction)

/-- Scientific notation with a signed exponent, without padding. -/
def scientificText (d : Decimal) : String :=
  let mantissa := match d.digits with
    | [] => "0"
    | [c] => String.singleton c
    | c :: rest => String.singleton c ++ "." ++ String.ofList rest
  mantissa ++ (if d.exponent < 0 then "e-" else "e+") ++ toString d.exponent.natAbs

def text (layout : Layout) (x : Float) : String :=
  match Binary.ofFloat? x with
  | none =>
    if x.isNaN then layout.notANumber
    else (if Binary.isNegative x then "-" else "") ++ layout.infinity
  | some b =>
    let d := shortest layout.tie b
    (if b.negative then "-" else "") ++
      (if layout.positional d.exponent then positionalText layout.integerEnd d
       else scientificText d)

end Decimal

end Telemetry
