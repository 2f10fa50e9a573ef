import Telemetry.Crypto.Aes
import Telemetry.Security.Checksum
/-!
# Payload ciphers

AES in counter mode or in block-chaining mode, with a key made from the password and a nonce:

    K   = MD5 password
    key = MD5 (K ++ nonce)                                     for keys of 16 bytes
    key = MD5 (K ++ nonce) ++ MD5 (K ++ nonce ++ nonce)        for keys of 32 bytes
    iv  = MD5 nonce

Counter mode keeps the length; block chaining fills up the last block.
-/

namespace Telemetry.Security

/-- A payload cipher: a mode and a key length. -/
inductive Cipher where
  | ctr128
  | ctr256
  | cbc128
  | cbc256
  deriving Repr, DecidableEq, Inhabited

namespace Cipher

def name : Cipher → String
  | ctr128 => "aes-ctr-128"
  | ctr256 => "aes-ctr-256"
  | cbc128 => "aes-cbc-128"
  | cbc256 => "aes-cbc-256"

def keySize : Cipher → Nat
  | ctr128 | cbc128 => 16
  | ctr256 | cbc256 => 32

/-- The cipher of a name, in which case does not matter. -/
def ofName? (name : String) : Option Cipher :=
  let lower := name.toLower
  if lower = "aes-ctr-128" then some ctr128
  else if lower = "aes-ctr-256" then some ctr256
  else if lower = "aes-cbc-128" then some cbc128
  else if lower = "aes-cbc-256" then some cbc256
  else none

end Cipher

inductive CipherError where
  /-- The key or the initial block does not have the length that the cipher needs. -/
  | invalidLength (cipher : Cipher)
  /-- The ciphertext is not made of whole blocks, or its end is not one that was filled up. -/
  | padding (cipher : Cipher)
  | unknownCipher (name : String)
  deriving Repr, DecidableEq

def CipherError.message : CipherError → String
  | invalidLength cipher => s!"invalid key or IV length for {cipher.name}"
  | padding cipher => s!"bad padding in {cipher.name} ciphertext"
  | unknownCipher name => s!"unknown cipher: {name}"

/-- The cipher of a name, or the complaint about it. -/
def Cipher.parse (name : String) : Except CipherError Cipher :=
  match ofName? name with
  | some cipher => .ok cipher
  | none => .error (.unknownCipher name.toLower)

def blockSize : Nat := 16

/-- A key and an initial block. -/
structure KeyIv where
  key : Bytes
  iv : Bytes
  deriving Repr, DecidableEq

namespace KeyIv

/-- The key and initial block for a nonce, by the MD5 digest of the password. -/
def ofDigest (cipher : Cipher) (passwordDigest nonce : Bytes) : KeyIv :=
  let first := digestWithKey .md5 passwordDigest nonce []
  let second :=
    if cipher.keySize = 32 then digestWithKey .md5 passwordDigest (nonce ++ nonce) [] else []
  ⟨first ++ second, Crypto.md5 nonce⟩

def ofPassword (cipher : Cipher) (password nonce : Bytes) : KeyIv :=
  ofDigest cipher (Crypto.md5 password) nonce

/-- Whether key and initial block have the lengths that the cipher needs. -/
def fits (k : KeyIv) (cipher : Cipher) : Bool :=
  k.key.length = cipher.keySize ∧ k.iv.length = blockSize

/-- A key that was made for a cipher fits it. -/
theorem fits_ofDigest (cipher : Cipher) (passwordDigest nonce : Bytes) :
    (ofDigest cipher passwordDigest nonce).fits cipher = true := by
  cases cipher <;>
    simp [fits, ofDigest, Cipher.keySize, digestWithKey, ChecksumKind.digest, blockSize]

end KeyIv

/-! ## Modes -/

/-- Counter mode: each block is masked by the ciphertext of a counter that starts at `counter` and
wraps at 128 bits. The same function undoes it. -/
def counterMode (keys : List Bytes) (counter : Nat) : List Bytes → Bytes
  | [] => []
  | piece :: rest =>
    Bytes.xor piece (Crypto.Aes.encryptBlock keys (Bytes.ofNat blockSize counter)) ++
      counterMode keys (counter + 1) rest

/-- The pieces of some bytes, each a block long but the last. -/
def blocksOf (data : Bytes) : List Bytes :=
  Bytes.pieces blockSize ((data.length + blockSize - 1) / blockSize) data

/-- Fills up the last block with bytes that say how many they are; a full block gets one behind. -/
def addPadding (data : Bytes) : Bytes :=
  let count := blockSize - data.length % blockSize
  data ++ List.replicate count (UInt8.ofNat count)

/-- Takes off what `addPadding` added, if the end looks like that. -/
def removePadding? (data : Bytes) : Option Bytes :=
  match data.getLast? with
  | none => none
  | some last =>
    let count := last.toNat
    if 1 ≤ count ∧ count ≤ blockSize ∧ count ≤ data.length ∧
        data.drop (data.length - count) = List.replicate count last then
      some (data.take (data.length - count))
    else none

/-- Block chaining: each block is mixed with the ciphertext of the one before. -/
def chainEncrypt (keys : List Bytes) (previous : Bytes) : List Bytes → Bytes
  | [] => []
  | piece :: rest =>
    let ciphered := Crypto.Aes.encryptBlock keys (Bytes.xor piece previous)
    ciphered ++ chainEncrypt keys ciphered rest

/-- Undoes `chainEncrypt`. -/
def chainDecrypt (keys : List Bytes) (previous : Bytes) : List Bytes → Bytes
  | [] => []
  | piece :: rest =>
    Bytes.xor (Crypto.Aes.decryptBlock keys piece) previous ++ chainDecrypt keys piece rest

namespace KeyIv

def encrypt (k : KeyIv) (cipher : Cipher) (data : Bytes) : Except CipherError Bytes :=
  if k.fits cipher then
    let keys := Crypto.Aes.roundKeys k.key
    match cipher with
    | .ctr128 | .ctr256 => .ok (counterMode keys k.iv.toNat (blocksOf data))
    | .cbc128 | .cbc256 => .ok (chainEncrypt keys k.iv (blocksOf (addPadding data)))
  else .error (.invalidLength cipher)

def decrypt (k : KeyIv) (cipher : Cipher) (data : Bytes) : Except CipherError Bytes :=
  if k.fits cipher then
    let keys := Crypto.Aes.roundKeys k.key
    match cipher with
    | .ctr128 | .ctr256 => .ok (counterMode keys k.iv.toNat (blocksOf data))
    | .cbc128 | .cbc256 =>
      if data.length % blockSize = 0 then
        match removePadding? (chainDecrypt keys k.iv (blocksOf data)) with
        | some clear => .ok clear
        | none => .error (.padding cipher)
      else .error (.padding cipher)
  else .error (.invalidLength cipher)

end KeyIv

end Telemetry.Security
