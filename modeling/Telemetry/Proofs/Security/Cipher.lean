import Telemetry.Proofs.Crypto.Aes
import Telemetry.Security.Stream
/-!
# Payload ciphers undo themselves

Whatever the mode, data that was ciphered under a key and initial block is deciphered by the same
two. In counter mode the masks, one behind the other, are a sequence of bytes without an end, each of
which masks the byte of the data in its place, in both directions alike. In block chaining every
block is masked by the ciphertext before it, which the receiver has, too.
-/

namespace Telemetry.Security

open Crypto (Aes.encryptBlock Aes.decryptBlock)

variable {keys : List Bytes} {data : Bytes}

/-! ## Counter mode -/

/-- Data masked by the bytes of a sequence. -/
def masked (bytes : Nat → UInt8) (data : Bytes) : Bytes := data.mapIdx fun i byte => byte ^^^ bytes i

@[simp] theorem length_masked (bytes : Nat → UInt8) (data : Bytes) :
    (masked bytes data).length = data.length := List.length_mapIdx

theorem masked_append (bytes : Nat → UInt8) (front back : Bytes) : masked bytes (front ++ back) =
    masked bytes front ++ masked (fun i => bytes (front.length + i)) back := by
  simp only [masked, List.mapIdx_append, Nat.add_comm]

theorem masked_congr {bytes bytes' : Nat → UInt8} (same : ∀ i < data.length, bytes i = bytes' i) :
    masked bytes data = masked bytes' data := by
  apply List.ext_getElem
  · rw [length_masked, length_masked]
  · intro i inside _
    rw [length_masked] at inside
    simp only [masked, List.getElem_mapIdx, same i inside]

/-- The same sequence takes the masks off. -/
theorem masked_masked (bytes : Nat → UInt8) (data : Bytes) : masked bytes (masked bytes data) = data := by
  apply List.ext_getElem
  · rw [length_masked, length_masked]
  · intro i _ _
    simp only [masked, List.getElem_mapIdx, UInt8.xor_assoc, UInt8.xor_self, UInt8.xor_zero]

/-- Data is masked by a mask that is long enough. -/
theorem xor_eq_masked {mask : Bytes} (long : data.length ≤ mask.length) :
    Bytes.xor data mask = masked (fun i => mask.getD i 0) data := by
  apply List.ext_getElem
  · rw [length_masked, Bytes.length_xor, Nat.min_eq_left long]
  · intro i _ inside
    rw [length_masked] at inside
    have within : i < mask.length := Nat.lt_of_lt_of_le inside long
    simp [Bytes.xor, masked, within]

/-- The bytes of the masks from a counter on. -/
def maskByte (keys : List Bytes) (counter i : Nat) : UInt8 :=
  (mask keys (counter + i / blockSize)).getD (i % blockSize) 0

theorem maskByte_of_lt (counter : Nat) {i : Nat} (inside : i < blockSize) :
    maskByte keys counter i = (mask keys counter).getD i 0 := by
  rw [maskByte, Nat.div_eq_of_lt inside, Nat.mod_eq_of_lt inside, Nat.add_zero]

theorem maskByte_add (counter count i : Nat) :
    maskByte keys counter (blockSize * count + i) = maskByte keys (counter + count) i := by
  rw [maskByte, maskByte, Nat.mul_add_div (by decide), Nat.mul_add_mod, Nat.add_assoc]

section CounterMode

variable (keysLong : ∀ key ∈ keys, key.length = blockSize)

include keysLong

theorem length_mask (counter : Nat) : (mask keys counter).length = blockSize :=
  Crypto.Aes.length_encryptBlock (Bytes.length_ofNat ..) keysLong

/-- Counter mode masks the data with the bytes of its masks. -/
theorem counterMode_eq_masked (counter : Nat) {count : Nat} (enough : data.length ≤ blockSize * count) :
    counterMode keys counter (Bytes.pieces blockSize count data) =
      masked (maskByte keys counter) data := by
  induction count generalizing data counter with
  | zero =>
    obtain rfl := List.length_eq_zero_iff.mp (Nat.le_zero.mp enough)
    rfl
  | succ count ih =>
    rw [Nat.mul_succ] at enough
    have long : (data.take blockSize).length ≤ (mask keys counter).length := by
      rw [length_mask keysLong, List.length_take]
      exact Nat.min_le_left _ _
    have first : Bytes.xor (data.take blockSize) (mask keys counter) =
        masked (maskByte keys counter) (data.take blockSize) := by
      rw [xor_eq_masked long]
      apply masked_congr
      intro i inside
      rw [List.length_take] at inside
      exact (maskByte_of_lt counter (Nat.lt_of_lt_of_le inside (Nat.min_le_left _ _))).symm
    have others : counterMode keys (counter + 1)
        (Bytes.pieces blockSize count (data.drop blockSize)) =
          masked (maskByte keys (counter + 1)) (data.drop blockSize) := by
      apply ih
      rw [List.length_drop]
      omega
    rw [Bytes.pieces, counterMode, others]
    conv => rhs; rw [← List.take_append_drop blockSize data, masked_append]
    refine congrArg₂ (· ++ ·) first ?_
    apply masked_congr
    intro i inside
    rw [List.length_drop] at inside
    have whole : (data.take blockSize).length = blockSize * 1 := by
      rw [List.length_take]
      omega
    rw [whole, maskByte_add]

theorem length_counterMode (counter : Nat) {count : Nat} (enough : data.length ≤ blockSize * count) :
    (counterMode keys counter (Bytes.pieces blockSize count data)).length = data.length := by
  rw [counterMode_eq_masked keysLong counter enough, length_masked]

/-- The masks of a counter take themselves off. -/
theorem counterMode_counterMode (counter : Nat) {count : Nat}
    (enough : data.length ≤ blockSize * count) :
    counterMode keys counter (Bytes.pieces blockSize count
      (counterMode keys counter (Bytes.pieces blockSize count data))) = data := by
  rw [counterMode_eq_masked keysLong counter enough,
    counterMode_eq_masked keysLong counter (by rwa [length_masked]), masked_masked]

end CounterMode

/-! ## Padding -/

theorem length_addPadding (data : Bytes) :
    (addPadding data).length = blockSize * (data.length / blockSize + 1) := by
  rw [addPadding, List.length_append, List.length_replicate]
  simp only [blockSize]
  omega

/-- Padding is taken off again. -/
theorem removePadding?_addPadding (data : Bytes) : removePadding? (addPadding data) = some data := by
  obtain ⟨count, positive, small, padded⟩ : ∃ count, 1 ≤ count ∧ count ≤ blockSize ∧
      addPadding data = data ++ List.replicate count (UInt8.ofNat count) := by
    refine ⟨blockSize - data.length % blockSize, ?_, ?_, rfl⟩
    · simp only [blockSize]
      omega
    · exact Nat.sub_le ..
  have said : (UInt8.ofNat count).toNat = count := by
    rw [UInt8.toNat_ofNat']
    simp only [blockSize] at small
    omega
  have last : (data ++ List.replicate count (UInt8.ofNat count)).getLast? =
      some (UInt8.ofNat count) := by
    rw [List.getLast?_append, List.getLast?_replicate, if_neg (by omega)]
    rfl
  have long : (data ++ List.replicate count (UInt8.ofNat count)).length - count = data.length := by
    simp
  rw [padded, removePadding?, last]
  dsimp only
  rw [said, long, List.drop_left, List.take_left, if_pos]
  exact ⟨positive, small, by simp, rfl⟩

/-! ## Block chaining -/

section Chaining

variable (keysLong : ∀ key ∈ keys, key.length = blockSize) {previous : Bytes} {parts : List Bytes}

include keysLong

theorem length_chained {part : Bytes} (long : part.length = blockSize)
    (before : previous.length = blockSize) :
    (Aes.encryptBlock keys (Bytes.xor part previous)).length = blockSize := by
  exact Crypto.Aes.length_encryptBlock (Bytes.length_xor_of_eq long before) keysLong

theorem length_chainEncrypt (before : previous.length = blockSize)
    (long : ∀ part ∈ parts, part.length = blockSize) :
    (chainEncrypt keys previous parts).length = blockSize * parts.length := by
  induction parts generalizing previous with
  | nil => rfl
  | cons part rest ih =>
    obtain ⟨first, others⟩ := List.forall_mem_cons.mp long
    have chained := length_chained keysLong first before
    rw [chainEncrypt, List.length_append, chained, ih chained others, List.length_cons,
      Nat.mul_succ, Nat.add_comm]

/-- The receiver of chained blocks has the same masks as their sender. -/
theorem chainDecrypt_chainEncrypt (before : previous.length = blockSize)
    (long : ∀ part ∈ parts, part.length = blockSize) :
    chainDecrypt keys previous
      (Bytes.pieces blockSize parts.length (chainEncrypt keys previous parts)) = parts.flatten := by
  induction parts generalizing previous with
  | nil => rfl
  | cons part rest ih =>
    obtain ⟨first, others⟩ := List.forall_mem_cons.mp long
    have chained := length_chained keysLong first before
    have maskedLong : (Bytes.xor part previous).length = blockSize :=
      Bytes.length_xor_of_eq first before
    rw [List.length_cons, Bytes.pieces, chainEncrypt, List.take_left' chained,
      List.drop_left' chained, chainDecrypt, ih chained others,
      Crypto.Aes.decryptBlock_encryptBlock maskedLong keysLong,
      Bytes.xor_xor (by omega), List.flatten_cons]

end Chaining

/-! ## Ciphers -/

/-- The blocks of some bytes hold all of them. -/
theorem length_le_blocks (data : Bytes) :
    data.length ≤ blockSize * ((data.length + blockSize - 1) / blockSize) := by
  simp only [blockSize]
  omega

theorem counterMode_blocksOf_eq_masked (keysLong : ∀ key ∈ keys, key.length = blockSize)
    (counter : Nat) (data : Bytes) :
    counterMode keys counter (blocksOf data) = masked (maskByte keys counter) data :=
  counterMode_eq_masked keysLong counter (length_le_blocks data)

/-- Of whole blocks there are as many as they are long. -/
theorem blocksOf_of_whole {count : Nat} (whole : data.length = blockSize * count) :
    blocksOf data = Bytes.pieces blockSize count data := by
  have exact : (data.length + blockSize - 1) / blockSize = count := by
    rw [whole]
    simp only [blockSize]
    omega
  rw [blocksOf, exact]

/-- How long data is when it is ciphered: as long as before in counter mode, and filled up by at
least one byte in block chaining. -/
def Cipher.cipheredLength (length : Nat) : Cipher → Nat
  | ctr128 | ctr256 => length
  | cbc128 | cbc256 => blockSize * (length / blockSize + 1)

namespace KeyIv

variable {k : KeyIv} {cipher : Cipher}

theorem length_of_fits (fits : k.fits cipher = true) :
    k.key.length = cipher.keySize ∧ k.iv.length = blockSize := by
  simpa only [KeyIv.fits, decide_eq_true_eq] using fits

/-- The keys of the rounds are as long as a block, for every key that fits a cipher. -/
theorem length_roundKeys_of_fits (fits : k.fits cipher = true) :
    ∀ key ∈ Crypto.Aes.roundKeys k.key, key.length = blockSize := by
  refine fun key member => Crypto.Aes.length_of_mem_roundKeys ?_ member
  rw [(length_of_fits fits).1]
  cases cipher <;> simp [Cipher.keySize]

/-- Counter mode is its own inverse. -/
theorem counterMode_blocksOf (fits : k.fits cipher = true) (data : Bytes) :
    let masked := counterMode (Crypto.Aes.roundKeys k.key) k.iv.toNat (blocksOf data)
    counterMode (Crypto.Aes.roundKeys k.key) k.iv.toNat (blocksOf masked) = data := by
  have keysLong := length_roundKeys_of_fits fits
  have same := length_counterMode keysLong k.iv.toNat (length_le_blocks data)
  dsimp only
  rw [blocksOf, blocksOf, same]
  exact counterMode_counterMode keysLong k.iv.toNat (length_le_blocks data)

/-- Block chaining ends with whole blocks, from which the padded data comes back. -/
theorem chainDecrypt_blocksOf (fits : k.fits cipher = true) (data : Bytes) :
    let chained := chainEncrypt (Crypto.Aes.roundKeys k.key) k.iv (blocksOf (addPadding data))
    chained.length = blockSize * (data.length / blockSize + 1) ∧
      chainDecrypt (Crypto.Aes.roundKeys k.key) k.iv (blocksOf chained) = addPadding data := by
  have keysLong := length_roundKeys_of_fits fits
  have ivLong := (length_of_fits fits).2
  have padded := length_addPadding data
  have long : ∀ part ∈ Bytes.pieces blockSize (data.length / blockSize + 1) (addPadding data),
      part.length = blockSize :=
    fun part member => Bytes.length_of_mem_pieces (Nat.le_of_eq padded.symm) member
  have chainedLong := length_chainEncrypt keysLong ivLong long
  have back := chainDecrypt_chainEncrypt keysLong ivLong long
  rw [Bytes.length_pieces] at chainedLong back
  dsimp only
  rw [blocksOf_of_whole padded, blocksOf_of_whole chainedLong]
  refine ⟨chainedLong, ?_⟩
  rw [back, Bytes.flatten_pieces (Nat.le_of_eq padded)]

/-- What is ciphered under a key and initial block that fit is deciphered under the same two. -/
theorem decrypt_encrypt (fits : k.fits cipher = true) (data : Bytes) :
    ∃ ciphered, k.encrypt cipher data = .ok ciphered ∧ k.decrypt cipher ciphered = .ok data := by
  have counted := counterMode_blocksOf fits data
  obtain ⟨long, chained⟩ := chainDecrypt_blocksOf fits data
  have unpadded := removePadding?_addPadding data
  unfold encrypt decrypt
  simp only [fits, if_true]
  cases cipher with
  | ctr128 | ctr256 => exact ⟨_, rfl, congrArg Except.ok counted⟩
  | cbc128 | cbc256 =>
    refine ⟨_, rfl, ?_⟩
    dsimp only
    rw [if_pos (by rw [long, Nat.mul_mod_right]), chained, unpadded]

theorem length_of_encrypt {data ciphered : Bytes} (encrypted : k.encrypt cipher data = .ok ciphered) :
    ciphered.length = cipher.cipheredLength data.length := by
  unfold encrypt at encrypted
  split at encrypted
  · rename_i fits
    cases cipher with
    | ctr128 | ctr256 =>
      obtain rfl := Except.ok.inj encrypted
      exact length_counterMode (length_roundKeys_of_fits fits) k.iv.toNat (length_le_blocks data)
    | cbc128 | cbc256 =>
      obtain rfl := Except.ok.inj encrypted
      exact (chainDecrypt_blocksOf fits data).1
  · cases encrypted

end KeyIv

end Telemetry.Security
