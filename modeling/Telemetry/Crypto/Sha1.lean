import Telemetry.Bytes
/-!
# SHA-1

The secure hash of FIPS 180: 80 rounds over each block of 64 bytes, on five 32-bit words.
-/

namespace Telemetry.Crypto

namespace Sha1

/-- The five words that the rounds work on. -/
structure State where
  a : UInt32
  b : UInt32
  c : UInt32
  d : UInt32
  e : UInt32
  deriving Repr, DecidableEq

/-- The words before the first block. -/
def initial : State := ⟨0x67452301, 0xefcdab89, 0x98badcfe, 0x10325476, 0xc3d2e1f0⟩

/-- A word rotated to the left by 1 to 31 places. -/
def rotateLeft (x n : UInt32) : UInt32 := (x <<< n) ||| (x >>> (32 - n))

/-- One more word of the schedule, from those 3, 8, 14 and 16 places before it. -/
def nextWord (words : Array UInt32) (_ : Nat) : Array UInt32 :=
  let back (n : Nat) : UInt32 := words.getD (words.size - n) 0
  words.push (rotateLeft (back 3 ^^^ back 8 ^^^ back 14 ^^^ back 16) 1)

/-- The eighty words for a block: its own sixteen and those made from them. -/
def schedule (b : Bytes) : Array UInt32 :=
  let words := ((Bytes.pieces 4 16 b).map fun word => UInt32.ofNat (Bytes.toNat word)).toArray
  (List.range 64).foldl nextWord words

def round (words : Array UInt32) (s : State) (i : Nat) : State :=
  let (mix, constant) : UInt32 × UInt32 :=
    if i < 20 then ((s.b &&& s.c) ||| (~~~s.b &&& s.d), 0x5a827999)
    else if i < 40 then (s.b ^^^ s.c ^^^ s.d, 0x6ed9eba1)
    else if i < 60 then ((s.b &&& s.c) ||| (s.b &&& s.d) ||| (s.c &&& s.d), 0x8f1bbcdc)
    else (s.b ^^^ s.c ^^^ s.d, 0xca62c1d6)
  ⟨rotateLeft s.a 5 + mix + s.e + constant + words.getD i 0, s.a, rotateLeft s.b 30, s.c, s.d⟩

/-- All rounds over a block of 64 bytes. -/
def block (s : State) (b : Bytes) : State :=
  let t := (List.range 80).foldl (round (schedule b)) s
  ⟨s.a + t.a, s.b + t.b, s.c + t.c, s.d + t.d, s.e + t.e⟩

/-- What is appended to `length` bytes so that they fill whole blocks: a one bit, zeros, and the
length in bits. -/
def padding (length : Nat) : Bytes :=
  0x80 :: (List.replicate ((119 - length % 64) % 64) 0 ++ Bytes.ofNat 8 (8 * length))

/-- A word, most significant byte first. -/
def wordBytes (w : UInt32) : Bytes := Bytes.ofNat 4 w.toNat

end Sha1

/-- The SHA-1 digest of a byte string, twenty bytes. -/
def sha1 (b : Bytes) : Bytes :=
  let padded := b ++ Sha1.padding b.length
  let s := (Bytes.pieces 64 (padded.length / 64) padded).foldl Sha1.block Sha1.initial
  Sha1.wordBytes s.a ++ Sha1.wordBytes s.b ++ Sha1.wordBytes s.c ++ Sha1.wordBytes s.d ++
    Sha1.wordBytes s.e

@[simp] theorem length_sha1 (b : Bytes) : (sha1 b).length = 20 := by
  simp [sha1, Sha1.wordBytes]

end Telemetry.Crypto
