import Telemetry.Security.Cipher
/-!
# Ciphering what is read in pieces

Data may come from a reader, which gives as many bytes at a time as it likes, and none when it is at
its end. In counter mode each piece is masked as it comes; a piece need not end with a block, so that
the rest of a mask is kept for the next piece. In block chaining all is read first.
-/

namespace Telemetry.Security

/-- Whether data is ciphered or deciphered. -/
inductive Direction where
  | encryption
  | decryption
  deriving Repr, DecidableEq

/-- The mask of the block with a counter. -/
def mask (keys : List Bytes) (counter : Nat) : Bytes :=
  Crypto.Aes.encryptBlock keys (Bytes.ofNat blockSize counter)

/-- The masks of counter mode that are not used up. -/
structure Keystream where
  /-- What is left of the mask of the block that was begun. -/
  left : Bytes := []
  /-- The counter of the next block. -/
  counter : Nat

namespace Keystream

/-- Masks a piece by what is left of the last mask, and the blocks behind that by masks of their own.
The last of these need not be used up. -/
def apply (keys : List Bytes) (k : Keystream) (piece : Bytes) : Bytes × Keystream :=
  if piece.length ≤ k.left.length then
    (Bytes.xor piece k.left, { k with left := k.left.drop piece.length })
  else
    let rest := piece.drop k.left.length
    let next := k.counter + rest.length / blockSize
    let begun := rest.length % blockSize
    (Bytes.xor (piece.take k.left.length) k.left ++ counterMode keys k.counter (blocksOf rest),
      if begun = 0 then ⟨[], next⟩ else ⟨(mask keys next).drop begun, next + 1⟩)

/-- Masks what a reader gives, until it gives nothing. -/
def stream (keys : List Bytes) (k : Keystream) : (reads : List Bytes) → Bytes
  | [] | [] :: _ => []
  | piece :: rest =>
    let (masked, k) := k.apply keys piece
    masked ++ stream keys k rest

end Keystream

/-- All that a reader gives, until it gives nothing. -/
def readAll : (reads : List Bytes) → Bytes
  | [] | [] :: _ => []
  | piece :: rest => piece ++ readAll rest

/-- How much is read at a time. -/
def bufferSize : Nat := 4096

/-- What a reader of a byte string gives. -/
def readsOf (data : Bytes) : List Bytes := data.chunks bufferSize

namespace KeyIv

/-- Ciphers or deciphers a byte string. -/
def pass (k : KeyIv) (direction : Direction) (cipher : Cipher) (data : Bytes) :
    Except CipherError Bytes :=
  match direction with
  | .encryption => k.encrypt cipher data
  | .decryption => k.decrypt cipher data

/-- Ciphers or deciphers what a reader gives. -/
def passReads (k : KeyIv) (direction : Direction) (cipher : Cipher) (reads : List Bytes) :
    Except CipherError Bytes :=
  match cipher with
  | .ctr128 | .ctr256 =>
    if k.fits cipher then
      .ok (Keystream.stream (Crypto.Aes.roundKeys k.key) { counter := k.iv.toNat } reads)
    else .error (.invalidLength cipher)
  | .cbc128 | .cbc256 => k.pass direction cipher (readAll reads)

end KeyIv

end Telemetry.Security
