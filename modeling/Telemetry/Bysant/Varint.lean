import Telemetry.Bytes
/-!
# Variable-length integers

Lengths and counts travel as base-128 digits, least significant first, one digit a byte; the top
bit of a byte says that another digit follows. A number has at most 64 bits, hence ten digits. A
reader accepts padded spellings (leading zero digits), the writer never produces one.
-/

namespace Telemetry.Bysant

namespace Varint

/-- At most `more + 1` digits of a number; the last one takes what is left. -/
def digits : (more : Nat) → Nat → Bytes
  | 0, n => [UInt8.ofNat n]
  | more + 1, n =>
    if n < 128 then [UInt8.ofNat n]
    else UInt8.ofNat (n % 128 + 128) :: digits more (n / 128)

/-- The shortest spelling of a number. -/
def encode (v : UInt64) : Bytes := digits 9 v.toNat

/-- What a byte string starts with, read as a number. -/
inductive Reading where
  /-- A number, and how many bytes spell it. -/
  | complete (value : UInt64) (used : Nat)
  /-- The bytes end before the last digit. -/
  | incomplete
  /-- More than 64 bits. -/
  | overflow
  deriving Repr, DecidableEq

/-- Reads on after `used` digits worth `value`: the tenth digit may only be 0 or 1, and there is
no eleventh. -/
def readFrom (used value : Nat) : Bytes → Reading
  | [] => .incomplete
  | byte :: rest =>
    let digit := byte.toNat % 128
    if used ≥ 10 ∨ (used = 9 ∧ digit > 1) then .overflow
    else
      let value := value + digit <<< (7 * used)
      if byte.toNat < 128 then .complete (UInt64.ofNat value) (used + 1)
      else readFrom (used + 1) value rest

def read (b : Bytes) : Reading := readFrom 0 0 b

theorem used_of_readFrom {b : Bytes} {used value n : Nat} {v : UInt64}
    (h : readFrom used value b = .complete v n) : used < n ∧ n ≤ used + b.length := by
  induction b generalizing used value with
  | nil => cases h
  | cons byte rest ih =>
    simp only [readFrom] at h
    split at h
    · cases h
    · split at h
      · cases h
        exact ⟨Nat.lt_succ_self used, by simp⟩
      · obtain ⟨lower, upper⟩ := ih h
        rw [List.length_cons]
        omega

/-- A number takes at least one of the bytes, and no more than there are. -/
theorem used_of_read {b : Bytes} {v : UInt64} {n : Nat} (h : read b = .complete v n) :
    0 < n ∧ n ≤ b.length := by
  simpa using used_of_readFrom h

end Varint

end Telemetry.Bysant
