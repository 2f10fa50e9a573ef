/-!
# Byte strings

Byte strings are lists, so that codecs recurse on them. This module holds the text view of a byte
string (UTF-8), big-endian numbers of a fixed width, and the exclusive or of two byte strings.
-/

namespace Telemetry

/-- A byte string, first byte first. -/
abbrev Bytes := List UInt8

namespace Bytes

/-- The UTF-8 bytes of a text. -/
def ofString (s : String) : Bytes := s.toByteArray.data.toList

/-- The text whose UTF-8 bytes these are, if they are the UTF-8 bytes of a text. -/
def toString? (b : Bytes) : Option String := String.fromUTF8? ⟨b.toArray⟩

/-- The number written in base 256, most significant byte first. -/
def toNat (b : Bytes) : Nat := b.foldl (fun n byte => n * 256 + byte.toNat) 0

/-- The low `width` bytes of a number, most significant first. -/
def ofNat : (width : Nat) → Nat → Bytes
  | 0, _ => []
  | width + 1, n => UInt8.ofNat (n / Nat.pow 256 width) :: ofNat width n

/-- The signed number that a big-endian byte string holds in two's complement. -/
def toInt (b : Bytes) : Int := Int.bmod b.toNat (Nat.pow 256 b.length)

/-- Two's complement of a signed number in `width` bytes, most significant first. -/
def ofInt (width : Nat) (i : Int) : Bytes := ofNat width (i % Nat.pow 256 width).toNat

/-- The bytewise exclusive or, as long as the shorter operand. -/
def xor (a b : Bytes) : Bytes := List.zipWith (· ^^^ ·) a b

/-- The first `count` pieces of `size` bytes. -/
def pieces (size : Nat) : (count : Nat) → Bytes → List Bytes
  | 0, _ => []
  | count + 1, b => b.take size :: pieces size count (b.drop size)

/-- All of a byte string in pieces of `size` bytes, of which the last may be shorter. -/
def chunks (size : Nat) (b : Bytes) : List Bytes :=
  pieces size ((b.length + size - 1) / size) b

@[simp] theorem length_ofNat (width n : Nat) : (ofNat width n).length = width := by
  induction width with
  | zero => rfl
  | succ width ih => simp [ofNat, ih]

@[simp] theorem length_ofInt (width : Nat) (i : Int) : (ofInt width i).length = width :=
  length_ofNat ..

/-- A text is read back from its bytes. -/
@[simp] theorem toString?_ofString (s : String) : toString? (ofString s) = some s := by
  simp [toString?, ofString, String.fromUTF8?, String.fromUTF8, s.isValidUTF8]

end Bytes

end Telemetry
