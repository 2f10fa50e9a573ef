import Telemetry.Bytes
/-!
# The curve P-256

The points of the curve `y² = x³ - 3x + b` over a prime field, and multiples of points. Sums are
computed in coordinates `(x / z², y / z³)`, so that only the final result needs a division.
-/

namespace Telemetry.Crypto.P256

/-- The number of elements of the field. -/
def prime : Nat := 0xffffffff00000001000000000000000000000000ffffffffffffffffffffffff

/-- The number of multiples of the base point. -/
def order : Nat := 0xffffffff00000000ffffffffffffffffbce6faada7179e84f3b9cac2fc632551

/-- The constant of the curve. -/
def constant : Nat := 0x5ac635d8aa3a93e7b3ebbd55769886bc651d06b0cc53b0f63bce3c3e27d2604b

/-- A point of the plane, in elements of the field. -/
structure Point where
  x : Nat
  y : Nat
  deriving Repr, DecidableEq

/-- The base point. -/
def base : Point :=
  ⟨0x6b17d1f2e12c4247f8bce6e563a440f277037d812deb33a0f4a13945d898c296,
   0x4fe342e2fe1a7f9b8ee7eb4a7c0f9e162bce33576b315ececbb6406837bf51f5⟩

def sub (a b : Nat) : Nat := (a + prime - b) % prime

/-- Whether a pair of numbers is a point of the curve. -/
def Point.isOnCurve (p : Point) : Bool :=
  p.x < prime && p.y < prime &&
    p.y * p.y % prime ==
      (sub (p.x * p.x % prime * p.x % prime) (3 * p.x % prime) + constant) % prime

/-- The bits of a number of 256 bits, most significant first. -/
def bits (n : Nat) : List Bool := (List.range 256).reverse.map n.testBit

def power (a exponent : Nat) : Nat :=
  (bits exponent).foldl
    (fun result bit =>
      let square := result * result % prime
      if bit then square * a % prime else square) 1

/-- A point as fractions; the point at infinity has `z = 0`. -/
structure Projective where
  x : Nat
  y : Nat
  z : Nat
  deriving Repr, DecidableEq

namespace Projective

def infinity : Projective := ⟨1, 1, 0⟩

def ofPoint (p : Point) : Projective := ⟨p.x, p.y, 1⟩

def toPoint? (p : Projective) : Option Point :=
  if p.z = 0 then none
  else
    let inverse := power p.z (prime - 2)
    let square := inverse * inverse % prime
    some ⟨p.x * square % prime, p.y * (square * inverse % prime) % prime⟩

def double (p : Projective) : Projective :=
  let delta := p.z * p.z % prime
  let gamma := p.y * p.y % prime
  let beta := p.x * gamma % prime
  let alpha := 3 * (sub p.x delta * (p.x + delta)) % prime
  let x := sub (alpha * alpha % prime) (8 * beta % prime)
  let z := sub (sub ((p.y + p.z) * (p.y + p.z) % prime) gamma) delta
  let y := sub (alpha * sub (4 * beta % prime) x % prime) (8 * (gamma * gamma) % prime)
  ⟨x, y, z⟩

def add (p q : Projective) : Projective :=
  if p.z = 0 then q
  else if q.z = 0 then p
  else
    let pz2 := p.z * p.z % prime
    let qz2 := q.z * q.z % prime
    let u1 := p.x * qz2 % prime
    let u2 := q.x * pz2 % prime
    let s1 := p.y * (qz2 * q.z % prime) % prime
    let s2 := q.y * (pz2 * p.z % prime) % prime
    let h := sub u2 u1
    let r := sub s2 s1
    if h = 0 then if r = 0 then double p else infinity
    else
      let h2 := h * h % prime
      let h3 := h2 * h % prime
      let v := u1 * h2 % prime
      let x := sub (sub (r * r % prime) h3) (2 * v % prime)
      let y := sub (r * sub v x % prime) (s1 * h3 % prime)
      ⟨x, y, p.z * q.z % prime * h % prime⟩

end Projective

def multiply (k : Nat) (p : Point) : Option Point :=
  let p := Projective.ofPoint p
  ((bits k).foldl
    (fun sum bit =>
      let twice := sum.double
      if bit then twice.add p else twice) Projective.infinity).toPoint?

end Telemetry.Crypto.P256
