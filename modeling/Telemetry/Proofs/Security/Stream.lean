import Telemetry.Proofs.Security.Cipher
/-!
# Masking in pieces is masking at once

Where a piece ends makes no difference to counter mode: what is left of the masks is their sequence
from that place on, whether the place is inside a block or between two.
-/

namespace Telemetry.Security

variable {keys : List Bytes} {k : Keystream} {data piece : Bytes}

/-! ## What is read -/

theorem readAll_cons {piece : Bytes} (present : piece ≠ []) (rest : List Bytes) :
    readAll (piece :: rest) = piece ++ readAll rest := by
  cases piece with
  | nil => exact absurd rfl present
  | cons byte bytes => rfl

theorem readAll_of_forall_ne_nil {reads : List Bytes} (present : ∀ piece ∈ reads, piece ≠ []) :
    readAll reads = reads.flatten := by
  induction reads with
  | nil => rfl
  | cons piece rest ih =>
    obtain ⟨first, others⟩ := List.forall_mem_cons.mp present
    rw [readAll_cons first, ih others, List.flatten_cons]

/-- A byte string is read as it is. -/
theorem readAll_readsOf (data : Bytes) : readAll (readsOf data) = data := by
  have enough : data.length ≤ bufferSize * ((data.length + bufferSize - 1) / bufferSize) := by
    simp only [bufferSize]
    omega
  have present : ∀ piece ∈ readsOf data, piece ≠ [] := by
    intro piece member
    refine Bytes.ne_nil_of_mem_pieces (by decide) ?_ member
    simp only [bufferSize]
    omega
  rw [readAll_of_forall_ne_nil present]
  exact Bytes.flatten_pieces enough

/-! ## What is left of the masks -/

namespace Keystream

/-- The bytes that a keystream masks with next. -/
def byte (keys : List Bytes) (k : Keystream) (i : Nat) : UInt8 :=
  if i < k.left.length then k.left.getD i 0 else maskByte keys k.counter (i - k.left.length)

theorem byte_start (counter : Nat) : byte keys { counter } = maskByte keys counter := by
  funext i
  rfl

theorem byte_of_lt {i : Nat} (inside : i < k.left.length) : k.byte keys i = k.left.getD i 0 :=
  if_pos inside

theorem byte_add (i : Nat) : k.byte keys (k.left.length + i) = maskByte keys k.counter i := by
  rw [byte, if_neg (Nat.not_lt_of_le (Nat.le_add_right _ _)), Nat.add_sub_cancel_left]

/-- Masking a piece that is no longer than what is left of a mask leaves the rest of that mask. -/
theorem byte_drop (short : piece.length ≤ k.left.length) (i : Nat) :
    byte keys { k with left := k.left.drop piece.length } i = k.byte keys (piece.length + i) := by
  by_cases inside : piece.length + i < k.left.length
  · rw [byte_of_lt inside, byte_of_lt (by rw [List.length_drop]; omega)]
    simp
  · obtain ⟨j, rfl⟩ : ∃ j, i = (k.left.drop piece.length).length + j := by
      refine ⟨i - (k.left.length - piece.length), ?_⟩
      rw [List.length_drop]
      omega
    have whole : piece.length + ((k.left.drop piece.length).length + j) = k.left.length + j := by
      rw [List.length_drop]
      omega
    rw [whole, byte_add, byte_add]

section Masks

variable (keysLong : ∀ key ∈ keys, key.length = blockSize)

include keysLong

/-- What is left of the masks from a counter on when some bytes of them are used. -/
theorem byte_used (counter used i : Nat) :
    let next := counter + used / blockSize
    let begun := used % blockSize
    byte keys (if begun = 0 then ⟨[], next⟩ else ⟨(mask keys next).drop begun, next + 1⟩) i =
      maskByte keys counter (used + i) := by
  intro next begun
  have parts : used + i = blockSize * (used / blockSize) + (begun + i) := by
    rw [← Nat.add_assoc, Nat.div_add_mod]
  have inside : begun < blockSize := Nat.mod_lt _ (by decide)
  rw [parts, maskByte_add]
  by_cases none : begun = 0
  · rw [if_pos none, none, Nat.zero_add]
    rfl
  · rw [if_neg none]
    have long : ((mask keys next).drop begun).length = blockSize - begun := by
      rw [List.length_drop, length_mask keysLong]
    by_cases within : begun + i < blockSize
    · rw [byte_of_lt (by rw [long]; omega), maskByte_of_lt _ within]
      simp [next]
    · obtain ⟨j, rfl⟩ : ∃ j, i = blockSize - begun + j := ⟨i - (blockSize - begun), by omega⟩
      have whole : begun + (blockSize - begun + j) = blockSize * 1 + j := by omega
      have behind := @byte_add keys ⟨(mask keys next).drop begun, next + 1⟩ j
      rw [long] at behind
      rw [whole, maskByte_add, behind]

/-- A piece is masked with the next bytes, and behind it the sequence goes on. -/
theorem apply_spec (k : Keystream) (piece : Bytes) :
    (k.apply keys piece).1 = masked (k.byte keys) piece ∧
      ∀ i, (k.apply keys piece).2.byte keys i = k.byte keys (piece.length + i) := by
  have ofLeft {part : Bytes} (short : part.length ≤ k.left.length) :
      Bytes.xor part k.left = masked (k.byte keys) part := by
    rw [xor_eq_masked short]
    apply masked_congr
    intro i inside
    exact (byte_of_lt (Nat.lt_of_lt_of_le inside short)).symm
  unfold apply
  by_cases short : piece.length ≤ k.left.length
  · rw [if_pos short]
    exact ⟨ofLeft short, byte_drop short⟩
  · rw [if_neg short]
    have front : (piece.take k.left.length).length = k.left.length := by
      rw [List.length_take]
      omega
    constructor
    · conv => rhs; rw [← List.take_append_drop k.left.length piece, masked_append]
      refine congrArg₂ (· ++ ·) (ofLeft (Nat.le_of_eq front)) ?_
      rw [counterMode_blocksOf_eq_masked keysLong]
      apply masked_congr
      intro i _
      rw [front, byte_add]
    · intro i
      have whole : piece.length + i = k.left.length + ((piece.drop k.left.length).length + i) := by
        rw [List.length_drop]
        omega
      rw [whole, byte_add]
      exact byte_used keysLong k.counter _ i

/-- What is read is masked with the bytes of the sequence, however it is cut. -/
theorem stream_eq_masked (k : Keystream) (reads : List Bytes) :
    k.stream keys reads = masked (k.byte keys) (readAll reads) := by
  induction reads generalizing k with
  | nil => rfl
  | cons piece rest ih =>
    cases piece with
    | nil => rfl
    | cons first others =>
      obtain ⟨here, behind⟩ := apply_spec keysLong k (first :: others)
      show (k.apply keys (first :: others)).1 ++ stream keys (k.apply keys (first :: others)).2 rest = _
      rw [readAll_cons (List.cons_ne_nil _ _), masked_append, here, ih]
      exact congrArg (_ ++ ·) (masked_congr fun i _ => behind i)

end Masks

end Keystream

/-! ## What a reader gives -/

namespace KeyIv

/-- However the data is cut that a reader gives, it is ciphered and deciphered as a whole. -/
theorem passReads_eq (k : KeyIv) (direction : Direction) (cipher : Cipher) (reads : List Bytes) :
    k.passReads direction cipher reads = k.pass direction cipher (readAll reads) := by
  have counted (fits : k.fits cipher = true) :
      Keystream.stream (Crypto.Aes.roundKeys k.key) { counter := k.iv.toNat } reads =
        counterMode (Crypto.Aes.roundKeys k.key) k.iv.toNat (blocksOf (readAll reads)) := by
    have keysLong := length_roundKeys_of_fits fits
    rw [Keystream.stream_eq_masked keysLong, Keystream.byte_start,
      counterMode_blocksOf_eq_masked keysLong]
  by_cases fits : k.fits cipher = true
  · have counted := counted fits
    cases cipher with
    | cbc128 | cbc256 => rfl
    | ctr128 | ctr256 => cases direction <;> simp [passReads, pass, encrypt, decrypt, fits, counted]
  · cases cipher with
    | cbc128 | cbc256 => rfl
    | ctr128 | ctr256 => cases direction <;> simp [passReads, pass, encrypt, decrypt, fits]

/-- Reading a byte string makes no difference to ciphering it at once. -/
theorem passReads_readsOf (k : KeyIv) (direction : Direction) (cipher : Cipher) (data : Bytes) :
    k.passReads direction cipher (readsOf data) = k.pass direction cipher data := by
  rw [passReads_eq, readAll_readsOf]

end KeyIv

end Telemetry.Security
