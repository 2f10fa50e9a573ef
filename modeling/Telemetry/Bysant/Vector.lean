import Telemetry.Bytes
/-!
# Compressed vectors

Two compressed forms of a sequence of numbers, kept as they are sent and expanded on demand. A
delta vector holds the differences of neighbours, scaled by a common factor. A quasi-periodic
vector holds a period and the places where a step differs from it.
-/

namespace Telemetry.Bysant

/-- The largest number of samples that a compressed vector may expand to. -/
def maxVectorSamples : Nat := 16 * 1024 * 1024

/-- A sample: a 64-bit integer or a float. -/
inductive Number where
  | int (value : Int64)
  | float (value : Float)
  deriving BEq, DecidableEq, Inhabited

namespace Number

def toFloat : Number → Float
  | int value => Float.ofInt value.toInt
  | float value => value

/-- Integers add within 64 bits; a float on either side makes the sum a float. -/
def add : Number → Number → Number
  | int a, int b => int (a + b)
  | a, b => float (a.toFloat + b.toFloat)

/-- Integers multiply within 64 bits; a float on either side makes the product a float. -/
def mul : Number → Number → Number
  | int a, int b => int (a * b)
  | a, b => float (a.toFloat * b.toFloat)

instance : Add Number := ⟨add⟩

instance : Mul Number := ⟨mul⟩

end Number

/-- A start value and the differences that follow, all to be scaled by `factor`. -/
structure DeltaVector where
  factor : Number
  start : Number
  deltas : List Int64
  deriving BEq, Inhabited

namespace DeltaVector

def size (v : DeltaVector) : Nat := v.deltas.length + 1

/-- The samples after one worth `last`. -/
def samplesAfter (factor last : Number) : List Int64 → List Number
  | [] => []
  | delta :: rest =>
    let next := last + Number.int delta * factor
    next :: samplesAfter factor next rest

def take (n : Nat) (v : DeltaVector) : List Number :=
  let first := v.start * v.factor
  (first :: samplesAfter v.factor first (v.deltas.take n)).take n

def samples (v : DeltaVector) : List Number :=
  let first := v.start * v.factor
  first :: samplesAfter v.factor first v.deltas

/-- The bytes that hold one difference in two's complement: 1, 2, 4 or 8. -/
def widthOf (delta : Int64) : Nat :=
  let i := delta.toInt
  if -0x80 ≤ i ∧ i ≤ 0x7f then 1
  else if -0x8000 ≤ i ∧ i ≤ 0x7fff then 2
  else if -0x80000000 ≤ i ∧ i ≤ 0x7fffffff then 4
  else 8

/-- The bytes that hold every difference. -/
def width (v : DeltaVector) : Nat :=
  v.deltas.foldl (fun width delta => max width (widthOf delta)) 1

end DeltaVector

/-- Why a list of shifts describes no quasi-periodic vector. -/
inductive ShiftsError where
  /-- A repetition count is negative. -/
  | negativeCount (count : Int64)
  /-- The vector would have too many samples. -/
  | tooLarge
  deriving Repr, DecidableEq

/-- The number of samples that a list of `(count, shift)` pairs adds to `total`; a last count may
stand alone. -/
def countSamples (total : Nat) : List Int64 → Except ShiftsError Nat
  | [] => .ok total
  | [count] =>
    if count.toInt < 0 then .error (.negativeCount count)
    else
      let total := total + count.toInt.toNat
      if total ≤ maxVectorSamples then .ok total else .error .tooLarge
  | count :: _ :: rest =>
    if count.toInt < 0 then .error (.negativeCount count)
    else
      let total := total + count.toInt.toNat + 1
      if total ≤ maxVectorSamples then countSamples total rest else .error .tooLarge

/-- A vector whose samples lie one `period` apart, except where `shifts` says otherwise: `shifts`
is read as pairs `(count, shift)`, meaning `count` regular steps and then one that is longer by
`shift`. A last count without a shift adds regular steps only. -/
structure QuasiPeriodicVector where
  period : Number
  start : Number
  shifts : List Int64
  /-- Counts are not negative and the samples not too many. -/
  size_ok : (countSamples 1 shifts).isOk = true

namespace QuasiPeriodicVector

instance : BEq QuasiPeriodicVector where
  beq a b := a.period == b.period && a.start == b.start && a.shifts == b.shifts

/-- A vector from its parts, if the shifts describe one. -/
def ofShifts (period start : Number) (shifts : List Int64) :
    Except ShiftsError QuasiPeriodicVector :=
  match h : countSamples 1 shifts with
  | .ok _ => .ok ⟨period, start, shifts, by rw [h]; rfl⟩
  | .error e => .error e

def size (v : QuasiPeriodicVector) : Nat :=
  match countSamples 1 v.shifts with
  | .ok size => size
  | .error _ => 0

/-- At most `limit` samples after one worth `last`: first `count` regular steps, then those that
`shifts`, which starts with the shift of that count, describes. -/
def samplesAfter (period : Number) :
    (limit : Nat) → (last : Number) → (count : Nat) → (shifts : List Int64) → List Number
  | 0, _, _, _ => []
  | limit + 1, last, count + 1, shifts =>
    let next := last + period
    next :: samplesAfter period limit next count shifts
  | _ + 1, _, 0, [] => []
  | limit + 1, last, 0, shift :: shifts =>
    let next := last + (period + Number.int shift)
    match shifts with
    | [] => [next]
    | count :: shifts => next :: samplesAfter period limit next count.toInt.toNat shifts

def take (n : Nat) (v : QuasiPeriodicVector) : List Number :=
  match n with
  | 0 => []
  | n + 1 =>
    match v.shifts with
    | [] => [v.start]
    | count :: shifts => v.start :: samplesAfter v.period n v.start count.toInt.toNat shifts

def samples (v : QuasiPeriodicVector) : List Number := v.take v.size

end QuasiPeriodicVector

end Telemetry.Bysant
