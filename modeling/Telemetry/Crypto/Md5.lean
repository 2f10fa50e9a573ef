import Telemetry.Bytes
/-!
# MD5

The message digest of RFC 1321: 64 rounds over each block of 64 bytes, on four 32-bit words.
-/

namespace Telemetry.Crypto

namespace Md5

/-- The four words that the rounds work on. -/
structure State where
  a : UInt32
  b : UInt32
  c : UInt32
  d : UInt32
  deriving Repr, DecidableEq

/-- The words before the first block. -/
def initial : State := ⟨0x67452301, 0xefcdab89, 0x98badcfe, 0x10325476⟩

/-- The constant of each round: the first 32 binary places of a sine. -/
def sines : Array UInt32 := #[
    0xd76aa478, 0xe8c7b756, 0x242070db, 0xc1bdceee, 0xf57c0faf, 0x4787c62a, 0xa8304613, 0xfd469501,
    0x698098d8, 0x8b44f7af, 0xffff5bb1, 0x895cd7be, 0x6b901122, 0xfd987193, 0xa679438e, 0x49b40821,
    0xf61e2562, 0xc040b340, 0x265e5a51, 0xe9b6c7aa, 0xd62f105d, 0x02441453, 0xd8a1e681, 0xe7d3fbc8,
    0x21e1cde6, 0xc33707d6, 0xf4d50d87, 0x455a14ed, 0xa9e3e905, 0xfcefa3f8, 0x676f02d9, 0x8d2a4c8a,
    0xfffa3942, 0x8771f681, 0x6d9d6122, 0xfde5380c, 0xa4beea44, 0x4bdecfa9, 0xf6bb4b60, 0xbebfbc70,
    0x289b7ec6, 0xeaa127fa, 0xd4ef3085, 0x04881d05, 0xd9d4d039, 0xe6db99e5, 0x1fa27cf8, 0xc4ac5665,
    0xf4292244, 0x432aff97, 0xab9423a7, 0xfc93a039, 0x655b59c3, 0x8f0ccc92, 0xffeff47d, 0x85845dd1,
    0x6fa87e4f, 0xfe2ce6e0, 0xa3014314, 0x4e0811a1, 0xf7537e82, 0xbd3af235, 0x2ad7d2bb, 0xeb86d391]

/-- How far each round rotates: four amounts in turn for each quarter of the rounds. -/
def rotations : Array UInt32 := #[7, 12, 17, 22, 5, 9, 14, 20, 4, 11, 16, 23, 6, 10, 15, 21]

/-- A word rotated to the left by 1 to 31 places. -/
def rotateLeft (x n : UInt32) : UInt32 := (x <<< n) ||| (x >>> (32 - n))

/-- One round over a block of sixteen words. -/
def round (words : Array UInt32) (s : State) (i : Nat) : State :=
  let (mix, word) : UInt32 × Nat :=
    if i < 16 then ((s.b &&& s.c) ||| (~~~s.b &&& s.d), i)
    else if i < 32 then ((s.d &&& s.b) ||| (~~~s.d &&& s.c), (5 * i + 1) % 16)
    else if i < 48 then (s.b ^^^ s.c ^^^ s.d, (3 * i + 5) % 16)
    else (s.c ^^^ (s.b ||| ~~~s.d), (7 * i) % 16)
  let sum := s.a + mix + sines.getD i 0 + words.getD word 0
  ⟨s.d, s.b + rotateLeft sum (rotations.getD (i / 16 * 4 + i % 4) 0), s.b, s.c⟩

/-- All rounds over a block of 64 bytes. -/
def block (s : State) (b : Bytes) : State :=
  let words := (Bytes.pieces 4 16 b).map fun word => UInt32.ofNat (Bytes.toNat word.reverse)
  let t := (List.range 64).foldl (round words.toArray) s
  ⟨s.a + t.a, s.b + t.b, s.c + t.c, s.d + t.d⟩

/-- What is appended to `length` bytes so that they fill whole blocks: a one bit, zeros, and the
length in bits. -/
def padding (length : Nat) : Bytes :=
  0x80 :: (List.replicate ((119 - length % 64) % 64) 0 ++
    (Bytes.ofNat 8 (8 * length)).reverse)

/-- A word, least significant byte first. -/
def wordBytes (w : UInt32) : Bytes := (Bytes.ofNat 4 w.toNat).reverse

end Md5

/-- The MD5 digest of a byte string, sixteen bytes. -/
def md5 (b : Bytes) : Bytes :=
  let padded := b ++ Md5.padding b.length
  let s := (Bytes.pieces 64 (padded.length / 64) padded).foldl Md5.block Md5.initial
  Md5.wordBytes s.a ++ Md5.wordBytes s.b ++ Md5.wordBytes s.c ++ Md5.wordBytes s.d

@[simp] theorem length_md5 (b : Bytes) : (md5 b).length = 16 := by
  simp [md5, Md5.wordBytes]

end Telemetry.Crypto
