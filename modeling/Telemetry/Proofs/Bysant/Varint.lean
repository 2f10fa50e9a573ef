import Mathlib.Algebra.BigOperators.Fin
import Telemetry.Proofs.Bysant.Locality
import Telemetry.Proofs.Bysant.Sizes
/-!
# Spellings of numbers

Bytes spell a number in base 128, and the top bit of each says whether another digit follows. What is
read from the front of some bytes is exactly the number that they spell there, if the spelling has at
most ten digits and the number at most 64 bits. What is written is a shortest spelling.
-/

namespace Telemetry.Bysant.Varint

/-- The number whose digits are the low seven bits of each byte, least significant first. -/
def number (b : Bytes) : Nat := ∑ i : Fin b.length, (b[i] &&& 0x7F).toNat * 128 ^ (i : Nat)

/-- A whole spelling: every byte but the last one says that a digit follows. -/
inductive Terminated : Bytes → Prop
  | last {byte : UInt8} : byte.toNat < 128 → Terminated [byte]
  | more {byte : UInt8} {rest : Bytes} : 128 ≤ byte.toNat → Terminated rest → Terminated (byte :: rest)

variable {b rest : Bytes} {used value n : Nat} {v : UInt64}

theorem number_cons (byte : UInt8) (rest : Bytes) :
    number (byte :: rest) = byte.toNat % 128 + 128 * number rest := by
  have digit : (byte &&& 0x7F).toNat = byte.toNat % 128 := by
    rw [UInt8.toNat_and]
    exact Nat.and_two_pow_sub_one_eq_mod byte.toNat 7
  have shifted : ∀ i : Fin rest.length, (rest[i] &&& 0x7F).toNat * 128 ^ (i + 1 : Nat) =
      128 * ((rest[i] &&& 0x7F).toNat * 128 ^ (i : Nat)) := by
    intro i
    rw [Nat.pow_succ]
    ring
  unfold number
  rw [Finset.mul_sum, ← Finset.sum_congr rfl fun i _ => shifted i, ← digit]
  simpa using Fin.sum_univ_succ (n := rest.length)
    fun i => ((byte :: rest)[i] &&& 0x7F).toNat * 128 ^ (i : Nat)

/-- Digits in front make room for the value of those behind them. -/
theorem add_number_cons (byte : UInt8) (rest : Bytes) : value + 128 ^ used * number (byte :: rest) =
    value + (byte.toNat % 128) <<< (7 * used) + 128 ^ (used + 1) * number rest := by
  rw [number_cons, Nat.shiftLeft_eq, Nat.pow_mul]
  ring

/-- A spelling that has too many digits, or whose number has too many bits, shows in a digit. -/
theorem room_of_number_lt {byte : UInt8} {rest : Bytes} (few : used + (byte :: rest).length ≤ 10)
    (small : value + 128 ^ used * number (byte :: rest) < 2 ^ 64) :
    ¬ (used ≥ 10 ∨ used = 9 ∧ byte.toNat % 128 > 1) := by
  rintro (many | ⟨rfl, large⟩)
  · rw [List.length_cons] at few
    omega
  · rw [number_cons] at small
    omega

/-- A spelling is read as what it spells, whatever stands behind it. -/
theorem readFrom_terminated (whole : Terminated b) (few : used + b.length ≤ 10)
    (small : value + 128 ^ used * number b < 2 ^ 64) (rest : Bytes) :
    readFrom used value (b ++ rest) =
      .complete (UInt64.ofNat (value + 128 ^ used * number b)) (used + b.length) := by
  induction whole generalizing used value with
  | @last byte ends =>
    have room := room_of_number_lt few small
    have none : number [] = 0 := rfl
    rw [add_number_cons, none, Nat.mul_zero, Nat.add_zero]
    simp only [List.singleton_append, readFrom, if_neg room, if_pos ends, List.length_singleton]
  | @more byte digits follows _ ih =>
    have room := room_of_number_lt few small
    rw [add_number_cons] at small ⊢
    simp only [List.cons_append, readFrom, if_neg room, if_neg (Nat.not_lt.mpr follows)]
    have count : used + (byte :: digits).length = used + 1 + digits.length := by
      rw [List.length_cons]
      omega
    rw [count] at few ⊢
    exact ih few small

/-- Where there is room for a digit, the number has at most 64 bits with it. -/
theorem add_digit_lt_of_room {byte : UInt8} (room : ¬ (used ≥ 10 ∨ used = 9 ∧ byte.toNat % 128 > 1))
    (small : value < 128 ^ used) : value + (byte.toNat % 128) <<< (7 * used) < 2 ^ 64 := by
  obtain ⟨few, last⟩ := not_or.mp room
  by_cases tenth : used = 9
  · subst tenth
    have digit : (byte.toNat % 128) <<< (7 * 9) ≤ 1 * 2 ^ (7 * 9) := by
      rw [Nat.shiftLeft_eq]
      exact Nat.mul_le_mul_right _ (by omega)
    omega
  · have grown := add_digit_lt byte small
    have : 128 ^ (used + 1) ≤ 128 ^ 9 := Nat.pow_le_pow_right (by decide) (by omega)
    omega

/-- Whatever is read is a spelling of at most ten digits, read as what it spells. -/
theorem terminated_of_readFrom (small : value < 128 ^ used)
    (h : readFrom used value b = .complete v n) :
    ∃ front rest, b = front ++ rest ∧ n = used + front.length ∧ n ≤ 10 ∧ Terminated front ∧
      v.toNat = value + 128 ^ used * number front := by
  induction b generalizing used value with
  | nil => cases h
  | cons byte rest ih =>
    simp only [readFrom] at h
    split at h
    · cases h
    · rename_i room
      split at h
      · rename_i ends
        cases h
        refine ⟨[byte], rest, rfl, rfl, by omega, .last ends, ?_⟩
        have none : number [] = 0 := rfl
        rw [add_number_cons, none, Nat.mul_zero, Nat.add_zero]
        exact UInt64.toNat_ofNat_of_lt' (add_digit_lt_of_room room small)
      · rename_i follows
        obtain ⟨front, behind, rfl, rfl, few, whole, spelt⟩ := ih (add_digit_lt byte small) h
        refine ⟨byte :: front, behind, rfl, ?_, few, .more (Nat.not_lt.mp follows) whole, ?_⟩
        · rw [List.length_cons]
          omega
        · rw [add_number_cons, spelt]

/-- What is read is what is spelt in front, in at most ten digits. -/
theorem read_eq_complete_iff : read b = .complete v n ↔
    ∃ front rest, b = front ++ rest ∧ n = front.length ∧ n ≤ 10 ∧ Terminated front ∧
      v.toNat = number front := by
  constructor
  · intro h
    obtain ⟨front, rest, bytes, count, few, whole, spelt⟩ :=
      terminated_of_readFrom (by decide : 0 < 128 ^ 0) h
    exact ⟨front, rest, bytes, by omega, few, whole, by omega⟩
  · rintro ⟨front, rest, rfl, rfl, few, whole, spelt⟩
    have value : 0 + 128 ^ 0 * number front = v.toNat := by omega
    have fits : 0 + 128 ^ 0 * number front < 2 ^ 64 := value ▸ v.toNat_lt
    rw [read, readFrom_terminated whole (by omega) fits, value, UInt64.ofNat_toNat, Nat.zero_add]

theorem read_encode_self (v : UInt64) : read (encode v) = .complete v (encode v).length := by
  simpa using read_encode v []

/-- The digits of a number are not read before the last one is there. -/
theorem read_of_prefix {front : Bytes} (begins : front <+: encode v) (proper : front ≠ encode v) :
    read front = .incomplete := by
  obtain ⟨back, whole⟩ := begins
  by_contra other
  have same : read (encode v) = read front := by
    rw [← whole]
    exact readFrom_append back other
  rw [read_encode_self] at same
  have inside := (used_of_read same.symm).2
  have length := congrArg List.length whole
  rw [List.length_append] at length
  have none : back = [] := List.length_eq_zero_iff.mp (by omega)
  rw [none, List.append_nil] at whole
  exact proper whole

/-- A number is read back from what is written for it, one to ten bytes, whatever stands behind them;
before the last of them is there, the number is incomplete. In all bytes, padded or not, what is read
is what the bytes up to the last digit spell, at most ten of them, and the number is not written in
more. An overflow is found only where no spelling of at most ten bytes in front of the input stands
for a number of 64 bits. -/
theorem reads_exactly :
    (∀ (v : UInt64) (rest : Bytes), read (encode v ++ rest) = .complete v (encode v).length ∧
      1 ≤ (encode v).length ∧ (encode v).length ≤ 10) ∧
    (∀ (v : UInt64) (front : Bytes), front <+: encode v → front ≠ encode v →
      read front = .incomplete) ∧
    (∀ (b : Bytes) (v : UInt64) (n : Nat), read b = .complete v n →
      n ≤ 10 ∧ n ≤ b.length ∧ Terminated (b.take n) ∧ v.toNat = number (b.take n) ∧
        (encode v).length ≤ n) ∧
    ∀ b : Bytes, read b = .overflow → ∀ front, front <+: b → Terminated front → front.length ≤ 10 →
      2 ^ 64 ≤ number front := by
  refine ⟨fun v rest => ⟨read_encode v rest, ?_, ?_⟩, fun v front => read_of_prefix,
    fun b v n complete => ?_, fun b overflow front begins whole few => ?_⟩
  · exact (used_of_read (read_encode_self v)).1
  · obtain ⟨_, _, _, _, few, _⟩ := read_eq_complete_iff.mp (read_encode_self v)
    exact few
  · have shortest := length_encode_le complete
    obtain ⟨front, rest, rfl, rfl, few, whole, spelt⟩ := read_eq_complete_iff.mp complete
    rw [List.take_left]
    exact ⟨few, by simp, whole, spelt, shortest⟩
  · by_contra fits
    obtain ⟨rest, rfl⟩ := begins
    have value : (UInt64.ofNat (number front)).toNat = number front :=
      UInt64.toNat_ofNat_of_lt' (Nat.lt_of_not_le fits)
    have complete := read_eq_complete_iff.mpr ⟨front, rest, rfl, rfl, few, whole, value⟩
    rw [overflow] at complete
    cases complete

/-- The largest number, a zero of ten digits, and a tenth digit that is too large. -/
example : read (List.replicate 9 0xFF ++ [0x01]) = .complete 0xFFFFFFFFFFFFFFFF 10 ∧
    read (List.replicate 9 0x80 ++ [0x00]) = .complete 0 10 ∧
    read (List.replicate 9 0x80 ++ [0x02]) = .overflow := by decide

end Telemetry.Bysant.Varint
