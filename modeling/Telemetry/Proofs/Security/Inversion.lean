import Mathlib.Data.Set.Finite.Basic
import Mathlib.Data.Set.Finite.List
import Telemetry.Proofs.Security.Stream
/-!
# The payload ciphers are one to one

Encryption of blocks is one to one and there are only so many blocks, so that every block is the
encryption of one, and decryption comes first as well as second. From this follows the converse of
deciphering what was ciphered: what block chaining accepts as a ciphertext is the one of what it makes
of it, the bytes that filled up the last block included.
-/

namespace Telemetry

namespace Crypto.Aes

instance finiteByte : Finite UInt8 := Finite.of_injective UInt8.toFin fun _ _ => UInt8.toFin_inj.mp

variable {keys : List Bytes} {block : Bytes}

/-- Every block is the encryption of a block. -/
theorem exists_encryptBlock_eq (keysLong : ∀ key ∈ keys, key.length = 16)
    (long : block.length = 16) : ∃ clear, clear.length = 16 ∧ encryptBlock keys clear = block := by
  have stays : Set.MapsTo (encryptBlock keys) {b | b.length = 16} {b | b.length = 16} :=
    fun _ long => length_encryptBlock long keysLong
  have apart : Set.InjOn (encryptBlock keys) {b | b.length = 16} := by
    intro a aLong b bLong same
    rw [← decryptBlock_encryptBlock aLong keysLong, same, decryptBlock_encryptBlock bLong keysLong]
  have onto := ((List.finite_length_eq UInt8 16).injOn_iff_bijOn_of_mapsTo stays).mp apart
  exact onto.surjOn long

/-- Encryption undoes decryption. -/
theorem encryptBlock_decryptBlock (keysLong : ∀ key ∈ keys, key.length = 16)
    (long : block.length = 16) :
    (decryptBlock keys block).length = 16 ∧ encryptBlock keys (decryptBlock keys block) = block := by
  obtain ⟨clear, clearLong, rfl⟩ := exists_encryptBlock_eq keysLong long
  rw [decryptBlock_encryptBlock clearLong keysLong]
  exact ⟨clearLong, rfl⟩

end Crypto.Aes

namespace Security

open Crypto (Aes.encryptBlock Aes.decryptBlock)

variable {keys : List Bytes} {data clear : Bytes}

/-! ## Padding -/

/-- Padding that is taken off whole blocks is what is added again. -/
theorem addPadding_of_removePadding? (whole : data.length % blockSize = 0)
    (removed : removePadding? data = some clear) : addPadding clear = data := by
  unfold removePadding? at removed
  cases last : data.getLast? with
  | none =>
    rw [last] at removed
    cases removed
  | some byte =>
    rw [last] at removed
    dsimp only at removed
    split at removed
    · rename_i proper
      obtain ⟨positive, small, within, filled⟩ := proper
      cases removed
      have count : blockSize - (data.take (data.length - byte.toNat)).length % blockSize =
          byte.toNat := by
        rw [List.length_take]
        simp only [blockSize] at whole small ⊢
        omega
      rw [addPadding, count, UInt8.ofNat_toNat, ← filled, List.take_append_drop]
    · cases removed

/-! ## Block chaining -/

section Chaining

variable (keysLong : ∀ key ∈ keys, key.length = blockSize) {previous : Bytes} {parts : List Bytes}

include keysLong

/-- Whole blocks that are deciphered are whole blocks, from which the chain comes back. -/
theorem chainEncrypt_chainDecrypt (before : previous.length = blockSize)
    (long : ∀ part ∈ parts, part.length = blockSize) :
    (chainDecrypt keys previous parts).length = blockSize * parts.length ∧
      chainEncrypt keys previous (Bytes.pieces blockSize parts.length
        (chainDecrypt keys previous parts)) = parts.flatten := by
  induction parts generalizing previous with
  | nil => exact ⟨rfl, rfl⟩
  | cons part rest ih =>
    obtain ⟨first, others⟩ := List.forall_mem_cons.mp long
    obtain ⟨restLong, restBack⟩ := ih first others
    obtain ⟨openedLong, back⟩ := Crypto.Aes.encryptBlock_decryptBlock keysLong first
    have unmasked : (Bytes.xor (Aes.decryptBlock keys part) previous).length = blockSize :=
      Bytes.length_xor_of_eq openedLong before
    constructor
    · rw [chainDecrypt, List.length_append, unmasked, restLong, List.length_cons, Nat.mul_succ,
        Nat.add_comm]
    · rw [List.length_cons, Bytes.pieces, chainDecrypt, List.take_left' unmasked,
        List.drop_left' unmasked, chainEncrypt,
        Bytes.xor_xor (Nat.le_of_eq (openedLong.trans before.symm)), back, restBack, List.flatten_cons]

end Chaining

/-! ## Ciphers -/

/-- Whether a cipher chains blocks, rather than counting them. -/
def Cipher.chains : Cipher → Bool
  | ctr128 | ctr256 => false
  | cbc128 | cbc256 => true

namespace KeyIv

variable {k : KeyIv} {cipher : Cipher}

/-- Whole blocks are deciphered to whole blocks, which are chained to the same ones again. -/
theorem chainEncrypt_blocksOf (fits : k.fits cipher = true) (whole : data.length % blockSize = 0) :
    let opened := chainDecrypt (Crypto.Aes.roundKeys k.key) k.iv (blocksOf data)
    opened.length % blockSize = 0 ∧
      chainEncrypt (Crypto.Aes.roundKeys k.key) k.iv (blocksOf opened) = data := by
  obtain ⟨count, long⟩ := Nat.dvd_of_mod_eq_zero whole
  have partsLong : ∀ part ∈ Bytes.pieces blockSize count data, part.length = blockSize :=
    fun part member => Bytes.length_of_mem_pieces (Nat.le_of_eq long.symm) member
  obtain ⟨openedLong, back⟩ := chainEncrypt_chainDecrypt (length_roundKeys_of_fits fits)
    (length_of_fits fits).2 partsLong
  rw [Bytes.length_pieces] at openedLong back
  dsimp only
  rw [blocksOf_of_whole long, blocksOf_of_whole openedLong]
  refine ⟨?_, ?_⟩
  · rw [openedLong, Nat.mul_mod_right]
  · rw [back, Bytes.flatten_pieces (Nat.le_of_eq long)]

/-- In counter mode, deciphering is ciphering. -/
theorem decrypt_eq_encrypt (counts : cipher.chains = false) (k : KeyIv) (data : Bytes) :
    k.decrypt cipher data = k.encrypt cipher data := by
  cases cipher with
  | ctr128 | ctr256 => rfl
  | cbc128 | cbc256 => cases counts

/-- What is deciphered is ciphered to the same again; only block chaining refuses anything. -/
theorem encrypt_of_decrypt (fits : k.fits cipher = true) (ciphered : Bytes) :
    (∃ data, k.decrypt cipher ciphered = .ok data ∧ k.encrypt cipher data = .ok ciphered) ∨
      cipher.chains = true ∧ k.decrypt cipher ciphered = .error (.padding cipher) := by
  have counted := counterMode_blocksOf fits ciphered
  unfold encrypt decrypt
  simp only [fits, if_true]
  cases cipher with
  | ctr128 | ctr256 => exact .inl ⟨_, rfl, congrArg Except.ok counted⟩
  | cbc128 | cbc256 =>
    dsimp only
    by_cases whole : ciphered.length % blockSize = 0
    · obtain ⟨openedWhole, back⟩ := chainEncrypt_blocksOf fits whole
      rw [if_pos whole]
      cases removed : removePadding?
          (chainDecrypt (Crypto.Aes.roundKeys k.key) k.iv (blocksOf ciphered)) with
      | none => exact .inr ⟨rfl, rfl⟩
      | some clear =>
        refine .inl ⟨clear, rfl, ?_⟩
        rw [addPadding_of_removePadding? openedWhole removed, back]
    · rw [if_neg whole]
      exact .inr ⟨rfl, rfl⟩

/-- Ciphering under a key and initial block can be undone, and so can deciphering. -/
structure Reversible (k : KeyIv) (cipher : Cipher) : Prop where
  /-- Every byte string is ciphered, to one of the length of the mode, and comes back. -/
  decrypts : ∀ data, ∃ ciphered, k.encrypt cipher data = .ok ciphered ∧
    ciphered.length = cipher.cipheredLength data.length ∧ k.decrypt cipher ciphered = .ok data
  /-- What is deciphered comes back, too. Block chaining may refuse it for its padding. -/
  encrypts : ∀ ciphered,
    (∃ data, k.decrypt cipher ciphered = .ok data ∧ k.encrypt cipher data = .ok ciphered) ∨
      cipher.chains = true ∧ k.decrypt cipher ciphered = .error (.padding cipher)
  /-- In counter mode the two directions are the same. -/
  symmetric : cipher.chains = false → ∀ data, k.decrypt cipher data = k.encrypt cipher data
  /-- What a reader gives is ciphered and deciphered as a whole, in whatever pieces it comes. -/
  pieces : ∀ direction reads, k.passReads direction cipher reads =
    k.pass direction cipher (readAll reads)
  /-- So is a byte string, which is read by a buffer at a time. -/
  buffers : ∀ direction data, k.passReads direction cipher (readsOf data) =
    k.pass direction cipher data

theorem reversible_of_fits (fits : k.fits cipher = true) : k.Reversible cipher where
  decrypts data := by
    obtain ⟨ciphered, encrypted, decrypted⟩ := decrypt_encrypt fits data
    exact ⟨ciphered, encrypted, length_of_encrypt encrypted, decrypted⟩
  encrypts ciphered := encrypt_of_decrypt fits ciphered
  symmetric counts data := decrypt_eq_encrypt counts k data
  pieces direction reads := passReads_eq k direction cipher reads
  buffers direction data := passReads_readsOf k direction cipher data

/-- Keys made from any password, or from any digest of one, and any nonce can be used both ways with
every cipher: what is ciphered is deciphered to the same, and no two ciphertexts are accepted for the
same data. -/
theorem reversible (cipher : Cipher) (secret nonce : Bytes) :
    (ofPassword cipher secret nonce).Reversible cipher ∧
      (ofDigest cipher secret nonce).Reversible cipher :=
  ⟨reversible_of_fits (fits_ofDigest cipher _ nonce), reversible_of_fits (fits_ofDigest cipher secret nonce)⟩

end KeyIv

end Security

end Telemetry
