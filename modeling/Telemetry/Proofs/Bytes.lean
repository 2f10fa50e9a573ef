import Mathlib.Tactic.Ring
import Telemetry.Bytes
/-!
# Numbers in byte strings

A number of a fixed width is read back from its bytes, as long as the width holds it, and whatever
is read from bytes is a number that their width holds. A signed number keeps its value when bytes
that only carry on its sign are put in front or taken away.
-/

namespace Telemetry.Bytes

theorem foldl_eq (b : Bytes) (n : Nat) :
    b.foldl (fun n byte => n * 256 + byte.toNat) n = n * 256 ^ b.length + toNat b := by
  induction b generalizing n with
  | nil => simp [toNat]
  | cons byte rest ih =>
    have unfolded : toNat (byte :: rest) = byte.toNat * 256 ^ rest.length + toNat rest := by
      simpa [toNat] using ih byte.toNat
    rw [unfolded, List.foldl_cons, ih, List.length_cons, Nat.pow_succ]
    grind

@[simp] theorem toNat_nil : toNat [] = 0 := rfl

theorem toNat_cons (byte : UInt8) (rest : Bytes) :
    toNat (byte :: rest) = byte.toNat * 256 ^ rest.length + toNat rest := by
  simpa [toNat] using foldl_eq rest byte.toNat

theorem toNat_append (a b : Bytes) : toNat (a ++ b) = toNat a * 256 ^ b.length + toNat b := by
  rw [toNat, List.foldl_append]
  exact foldl_eq b (toNat a)

theorem toNat_lt (b : Bytes) : toNat b < 256 ^ b.length := by
  induction b with
  | nil => simp
  | cons byte rest ih =>
    rw [toNat_cons, List.length_cons, Nat.pow_succ]
    have digit : byte.toNat + 1 ≤ 256 := byte.toNat_lt
    have := Nat.mul_le_mul_right (256 ^ rest.length) digit
    grind

/-- The low bytes of a number hold it up to their width. -/
theorem toNat_ofNat (width n : Nat) : toNat (ofNat width n) = n % 256 ^ width := by
  induction width with
  | zero => simp [ofNat, Nat.mod_one]
  | succ width ih =>
    rw [ofNat, toNat_cons, length_ofNat, ih, Nat.mod_pow_succ]
    simp [Nat.add_comm, Nat.mul_comm]

theorem toNat_ofNat_of_lt {width n : Nat} (h : n < 256 ^ width) : toNat (ofNat width n) = n := by
  rw [toNat_ofNat, Nat.mod_eq_of_lt h]

/-- A signed number is read back from bytes that hold it in two's complement. -/
theorem toInt_ofInt {width : Nat} {i : Int} (lower : -(256 ^ width / 2 : Nat) ≤ i)
    (upper : i < (256 ^ width / 2 : Nat)) : toInt (ofInt width i) = i := by
  have positive : (0 : Int) < (256 ^ width : Nat) := by
    exact_mod_cast Nat.pow_pos (by decide)
  have reduced : ((i % (256 ^ width : Nat)).toNat : Int) = i % (256 ^ width : Nat) :=
    Int.toNat_of_nonneg (Int.emod_nonneg i (Int.ne_of_gt positive))
  have small : (i % (256 ^ width : Nat)).toNat < 256 ^ width := by
    have := Int.emod_lt_of_pos i positive
    omega
  rw [toInt, length_ofInt, ofInt]
  change Int.bmod (toNat (ofNat width (i % (256 ^ width : Nat)).toNat)) (256 ^ width) = i
  rw [toNat_ofNat_of_lt small, reduced, Int.emod_bmod]
  exact Int.bmod_eq_of_le (by omega) (by omega)

theorem pow_length_mod_two {b : Bytes} (some : b ≠ []) : 256 ^ b.length % 2 = 0 := by
  obtain ⟨byte, rest, rfl⟩ := List.exists_cons_of_ne_nil some
  rw [List.length_cons, Nat.pow_succ]
  omega

/-- What bytes hold in two's complement fits their width. -/
theorem toInt_bounds {b : Bytes} (some : b ≠ []) :
    -(256 ^ b.length / 2 : Nat) ≤ toInt b ∧ toInt b < (256 ^ b.length / 2 : Nat) := by
  have positive : 0 < 256 ^ b.length := Nat.pow_pos (by decide)
  have lower : -(((256 ^ b.length : Nat) : Int) / 2) ≤ toInt b := Int.le_bmod positive
  have upper : toInt b < (((256 ^ b.length : Nat) : Int) + 1) / 2 := Int.bmod_lt positive
  have even := pow_length_mod_two some
  omega

/-- A text has the bytes that it is read from. -/
theorem ofString_of_toString? {b : Bytes} {s : String} (h : toString? b = some s) :
    ofString s = b := by
  unfold toString? String.fromUTF8? at h
  split at h
  · cases h
    rfl
  · cases h

/-! ## Other widths -/

theorem ofNat_mod (width n : Nat) : ofNat width (n % 256 ^ width) = ofNat width n := by
  induction width generalizing n with
  | zero => rfl
  | succ width ih =>
    have digit : n % 256 ^ (width + 1) / 256 ^ width % 256 = n / 256 ^ width % 256 := by
      rw [Nat.pow_succ, Nat.mod_mul_right_div_self, Nat.mod_mod]
    have below : n % 256 ^ (width + 1) % 256 ^ width = n % 256 ^ width :=
      Nat.mod_mod_of_dvd n (Nat.pow_dvd_pow 256 (Nat.le_succ width))
    rw [ofNat, ofNat, ← ih, below, ih]
    refine congrArg (· :: ofNat width n) (UInt8.toNat_inj.mp ?_)
    rw [UInt8.toNat_ofNat', UInt8.toNat_ofNat']
    exact digit

theorem drop_ofNat (more width n : Nat) : (ofNat (more + width) n).drop more = ofNat width n := by
  induction more with
  | zero => rw [Nat.zero_add, List.drop_zero]
  | succ more ih => rw [Nat.succ_add, ofNat, List.drop_succ_cons, ih]

/-- The low bytes of a signed number in more bytes are the number in fewer bytes. -/
theorem drop_ofInt (more width : Nat) (i : Int) :
    (ofInt (more + width) i).drop more = ofInt width i := by
  have wide : (0 : Int) < (256 ^ (more + width) : Nat) := by exact_mod_cast Nat.pow_pos (by decide)
  have same : (i % (256 ^ (more + width) : Nat)).toNat % 256 ^ width =
      (i % (256 ^ width : Nat)).toNat := by
    have parts : ((256 ^ width : Nat) : Int) ∣ (256 ^ (more + width) : Nat) :=
      Int.natCast_dvd_natCast.mpr (Nat.pow_dvd_pow 256 (Nat.le_add_left width more))
    rw [← Int.emod_emod_of_dvd i parts,
      Int.toNat_emod (Int.emod_nonneg i wide.ne') (Int.natCast_nonneg _), Int.toNat_natCast]
  rw [ofInt, drop_ofNat, ← ofNat_mod]
  exact congrArg (ofNat width) same

/-- Bytes with their sign carried on to the front, up to a width. -/
def signExtend (width : Nat) (b : Bytes) : Bytes :=
  List.replicate (width - b.length) (if 0x80 ≤ b.headD 0 then 0xFF else 0x00) ++ b

theorem toNat_replicate_zero (n : Nat) : toNat (List.replicate n 0x00) = 0 := by
  induction n with
  | zero => rfl
  | succ n ih => rw [List.replicate_succ, toNat_cons, ih]; simp

theorem toNat_replicate_ones (n : Nat) : toNat (List.replicate n 0xFF) + 1 = 256 ^ n := by
  induction n with
  | zero => rfl
  | succ n ih =>
    rw [List.replicate_succ, toNat_cons, List.length_replicate, Nat.add_assoc, ih, Nat.pow_succ]
    show 255 * 256 ^ n + 256 ^ n = _
    ring

/-- The first bit of bytes says whether they hold a negative number. -/
theorem le_toNat_iff {b : Bytes} (some : b ≠ []) :
    0x80 ≤ b.headD 0 ↔ 256 ^ b.length ≤ 2 * toNat b := by
  obtain ⟨byte, rest, rfl⟩ := List.exists_cons_of_ne_nil some
  have below := toNat_lt rest
  rw [List.headD_cons, UInt8.le_iff_toNat_le, toNat_cons, List.length_cons, Nat.pow_succ]
  change 128 ≤ byte.toNat ↔ _
  constructor
  · intro high
    have := Nat.mul_le_mul_right (256 ^ rest.length) high
    omega
  · intro large
    by_contra low
    have := Nat.mul_le_mul_right (256 ^ rest.length) (show byte.toNat ≤ 127 by omega)
    omega

/-- Carrying on the sign does not change the number. -/
theorem toInt_signExtend {width : Nat} {b : Bytes} (some : b ≠ []) (short : b.length ≤ width) :
    toInt (signExtend width b) = toInt b := by
  have long : (signExtend width b).length = width := by simp [signExtend, short]
  have even := pow_length_mod_two some
  have wider : 256 ^ b.length ≤ 256 ^ width := Nat.pow_le_pow_right (by decide) short
  have split : 256 ^ (width - b.length) * 256 ^ b.length = 256 ^ width := by
    rw [← Nat.pow_add, Nat.sub_add_cancel short]
  have below := toNat_lt b
  rw [toInt, toInt, long]
  change Int.bmod (toNat (signExtend width b)) (256 ^ width) = Int.bmod (toNat b) (256 ^ b.length)
  by_cases negative : 0x80 ≤ b.headD 0
  · have high := (le_toNat_iff some).mp negative
    have value : (toNat (signExtend width b) : Int) =
        (toNat b - (256 ^ b.length : Nat) : Int) + (256 ^ width : Nat) := by
      have ones := toNat_replicate_ones (width - b.length)
      have whole : toNat (signExtend width b) + 256 ^ b.length = 256 ^ width + toNat b := by
        rw [signExtend, if_pos negative, toNat_append, ← split, ← ones, Nat.add_mul]
        omega
      omega
    rw [value, Int.add_bmod_right, ← Int.sub_bmod_right (toNat b : Int) (256 ^ b.length),
      Int.bmod_eq_of_le (by omega) (by omega), Int.bmod_eq_of_le (by omega) (by omega)]
  · have low : 2 * toNat b < 256 ^ b.length :=
      Nat.lt_of_not_le fun high => negative ((le_toNat_iff some).mpr high)
    have value : toNat (signExtend width b) = toNat b := by
      rw [signExtend, if_neg negative, toNat_append, toNat_replicate_zero]
      omega
    rw [value, Int.bmod_eq_of_le (by omega) (by omega), Int.bmod_eq_of_le (by omega) (by omega)]

/-! ## Pieces -/

@[simp] theorem length_pieces (size count : Nat) (b : Bytes) : (pieces size count b).length = count := by
  induction count generalizing b with
  | zero => rfl
  | succ count ih => rw [pieces, List.length_cons, ih]

/-- Enough pieces hold all bytes. -/
theorem flatten_pieces {size count : Nat} {b : Bytes} (h : b.length ≤ size * count) :
    (pieces size count b).flatten = b := by
  induction count generalizing b with
  | zero => exact (List.length_eq_zero_iff.mp (by omega)).symm
  | succ count ih =>
    have rest : (b.drop size).length ≤ size * count := by
      rw [List.length_drop]
      rw [Nat.mul_succ] at h
      omega
    rw [pieces, List.flatten_cons, ih rest, List.take_append_drop]

theorem length_of_mem_pieces {size count : Nat} {b piece : Bytes} (h : size * count ≤ b.length)
    (member : piece ∈ pieces size count b) : piece.length = size := by
  induction count generalizing b with
  | zero => cases member
  | succ count ih =>
    rw [Nat.mul_succ] at h
    rcases List.mem_cons.mp member with rfl | member
    · rw [List.length_take]
      omega
    · refine ih ?_ member
      rw [List.length_drop]
      omega

/-- A piece that is not behind all bytes holds some of them. -/
theorem ne_nil_of_mem_pieces {size count : Nat} {b piece : Bytes} (positive : 0 < size)
    (few : size * count < b.length + size) (member : piece ∈ pieces size count b) : piece ≠ [] := by
  induction count generalizing b with
  | zero => cases member
  | succ count ih =>
    rw [Nat.mul_succ] at few
    rcases List.mem_cons.mp member with rfl | member
    · apply List.ne_nil_of_length_pos
      rw [List.length_take]
      omega
    · cases count with
      | zero => cases member
      | succ count =>
        refine ih ?_ member
        rw [Nat.mul_succ] at few
        rw [Nat.mul_succ, List.length_drop]
        omega

/-- Pieces that are put together come apart again. -/
theorem pieces_flatten {size : Nat} {parts : List Bytes} (long : ∀ part ∈ parts, part.length = size) :
    pieces size parts.length parts.flatten = parts := by
  induction parts with
  | nil => rfl
  | cons part rest ih =>
    obtain ⟨first, others⟩ := List.forall_mem_cons.mp long
    rw [List.length_cons, List.flatten_cons, pieces, List.take_left' first, List.drop_left' first,
      ih others]

/-! ## Exclusive or -/

@[simp] theorem length_xor (a b : Bytes) : (xor a b).length = min a.length b.length :=
  List.length_zipWith

theorem length_xor_of_eq {a b : Bytes} {n : Nat} (first : a.length = n) (second : b.length = n) :
    (xor a b).length = n := by
  rw [length_xor, first, second, Nat.min_self]

theorem xor_xor {a mask : Bytes} (long : a.length ≤ mask.length) : xor (xor a mask) mask = a := by
  induction a generalizing mask with
  | nil => rfl
  | cons byte rest ih =>
    cases mask with
    | nil => simp at long
    | cons key keys =>
      have := ih (by simpa using long : rest.length ≤ keys.length)
      simp only [xor, List.zipWith_cons_cons, UInt8.xor_assoc, UInt8.xor_self, UInt8.xor_zero] at this ⊢
      rw [this]

end Telemetry.Bytes
