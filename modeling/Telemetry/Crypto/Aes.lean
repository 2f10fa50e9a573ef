import Telemetry.Bytes
/-!
# AES

The block cipher of FIPS 197 with keys of 16 or 32 bytes. A block is a list of sixteen bytes, read
as a square of four columns of four bytes each.
-/

namespace Telemetry.Crypto.Aes

def substitution : Array UInt8 := #[
  0x63, 0x7c, 0x77, 0x7b, 0xf2, 0x6b, 0x6f, 0xc5, 0x30, 0x01, 0x67, 0x2b, 0xfe, 0xd7, 0xab, 0x76,
  0xca, 0x82, 0xc9, 0x7d, 0xfa, 0x59, 0x47, 0xf0, 0xad, 0xd4, 0xa2, 0xaf, 0x9c, 0xa4, 0x72, 0xc0,
  0xb7, 0xfd, 0x93, 0x26, 0x36, 0x3f, 0xf7, 0xcc, 0x34, 0xa5, 0xe5, 0xf1, 0x71, 0xd8, 0x31, 0x15,
  0x04, 0xc7, 0x23, 0xc3, 0x18, 0x96, 0x05, 0x9a, 0x07, 0x12, 0x80, 0xe2, 0xeb, 0x27, 0xb2, 0x75,
  0x09, 0x83, 0x2c, 0x1a, 0x1b, 0x6e, 0x5a, 0xa0, 0x52, 0x3b, 0xd6, 0xb3, 0x29, 0xe3, 0x2f, 0x84,
  0x53, 0xd1, 0x00, 0xed, 0x20, 0xfc, 0xb1, 0x5b, 0x6a, 0xcb, 0xbe, 0x39, 0x4a, 0x4c, 0x58, 0xcf,
  0xd0, 0xef, 0xaa, 0xfb, 0x43, 0x4d, 0x33, 0x85, 0x45, 0xf9, 0x02, 0x7f, 0x50, 0x3c, 0x9f, 0xa8,
  0x51, 0xa3, 0x40, 0x8f, 0x92, 0x9d, 0x38, 0xf5, 0xbc, 0xb6, 0xda, 0x21, 0x10, 0xff, 0xf3, 0xd2,
  0xcd, 0x0c, 0x13, 0xec, 0x5f, 0x97, 0x44, 0x17, 0xc4, 0xa7, 0x7e, 0x3d, 0x64, 0x5d, 0x19, 0x73,
  0x60, 0x81, 0x4f, 0xdc, 0x22, 0x2a, 0x90, 0x88, 0x46, 0xee, 0xb8, 0x14, 0xde, 0x5e, 0x0b, 0xdb,
  0xe0, 0x32, 0x3a, 0x0a, 0x49, 0x06, 0x24, 0x5c, 0xc2, 0xd3, 0xac, 0x62, 0x91, 0x95, 0xe4, 0x79,
  0xe7, 0xc8, 0x37, 0x6d, 0x8d, 0xd5, 0x4e, 0xa9, 0x6c, 0x56, 0xf4, 0xea, 0x65, 0x7a, 0xae, 0x08,
  0xba, 0x78, 0x25, 0x2e, 0x1c, 0xa6, 0xb4, 0xc6, 0xe8, 0xdd, 0x74, 0x1f, 0x4b, 0xbd, 0x8b, 0x8a,
  0x70, 0x3e, 0xb5, 0x66, 0x48, 0x03, 0xf6, 0x0e, 0x61, 0x35, 0x57, 0xb9, 0x86, 0xc1, 0x1d, 0x9e,
  0xe1, 0xf8, 0x98, 0x11, 0x69, 0xd9, 0x8e, 0x94, 0x9b, 0x1e, 0x87, 0xe9, 0xce, 0x55, 0x28, 0xdf,
  0x8c, 0xa1, 0x89, 0x0d, 0xbf, 0xe6, 0x42, 0x68, 0x41, 0x99, 0x2d, 0x0f, 0xb0, 0x54, 0xbb, 0x16]

def inverseSubstitution : Array UInt8 := #[
  0x52, 0x09, 0x6a, 0xd5, 0x30, 0x36, 0xa5, 0x38, 0xbf, 0x40, 0xa3, 0x9e, 0x81, 0xf3, 0xd7, 0xfb,
  0x7c, 0xe3, 0x39, 0x82, 0x9b, 0x2f, 0xff, 0x87, 0x34, 0x8e, 0x43, 0x44, 0xc4, 0xde, 0xe9, 0xcb,
  0x54, 0x7b, 0x94, 0x32, 0xa6, 0xc2, 0x23, 0x3d, 0xee, 0x4c, 0x95, 0x0b, 0x42, 0xfa, 0xc3, 0x4e,
  0x08, 0x2e, 0xa1, 0x66, 0x28, 0xd9, 0x24, 0xb2, 0x76, 0x5b, 0xa2, 0x49, 0x6d, 0x8b, 0xd1, 0x25,
  0x72, 0xf8, 0xf6, 0x64, 0x86, 0x68, 0x98, 0x16, 0xd4, 0xa4, 0x5c, 0xcc, 0x5d, 0x65, 0xb6, 0x92,
  0x6c, 0x70, 0x48, 0x50, 0xfd, 0xed, 0xb9, 0xda, 0x5e, 0x15, 0x46, 0x57, 0xa7, 0x8d, 0x9d, 0x84,
  0x90, 0xd8, 0xab, 0x00, 0x8c, 0xbc, 0xd3, 0x0a, 0xf7, 0xe4, 0x58, 0x05, 0xb8, 0xb3, 0x45, 0x06,
  0xd0, 0x2c, 0x1e, 0x8f, 0xca, 0x3f, 0x0f, 0x02, 0xc1, 0xaf, 0xbd, 0x03, 0x01, 0x13, 0x8a, 0x6b,
  0x3a, 0x91, 0x11, 0x41, 0x4f, 0x67, 0xdc, 0xea, 0x97, 0xf2, 0xcf, 0xce, 0xf0, 0xb4, 0xe6, 0x73,
  0x96, 0xac, 0x74, 0x22, 0xe7, 0xad, 0x35, 0x85, 0xe2, 0xf9, 0x37, 0xe8, 0x1c, 0x75, 0xdf, 0x6e,
  0x47, 0xf1, 0x1a, 0x71, 0x1d, 0x29, 0xc5, 0x89, 0x6f, 0xb7, 0x62, 0x0e, 0xaa, 0x18, 0xbe, 0x1b,
  0xfc, 0x56, 0x3e, 0x4b, 0xc6, 0xd2, 0x79, 0x20, 0x9a, 0xdb, 0xc0, 0xfe, 0x78, 0xcd, 0x5a, 0xf4,
  0x1f, 0xdd, 0xa8, 0x33, 0x88, 0x07, 0xc7, 0x31, 0xb1, 0x12, 0x10, 0x59, 0x27, 0x80, 0xec, 0x5f,
  0x60, 0x51, 0x7f, 0xa9, 0x19, 0xb5, 0x4a, 0x0d, 0x2d, 0xe5, 0x7a, 0x9f, 0x93, 0xc9, 0x9c, 0xef,
  0xa0, 0xe0, 0x3b, 0x4d, 0xae, 0x2a, 0xf5, 0xb0, 0xc8, 0xeb, 0xbb, 0x3c, 0x83, 0x53, 0x99, 0x61,
  0x17, 0x2b, 0x04, 0x7e, 0xba, 0x77, 0xd6, 0x26, 0xe1, 0x69, 0x14, 0x63, 0x55, 0x21, 0x0c, 0x7d]

def substitute (byte : UInt8) : UInt8 := substitution.getD byte.toNat 0

def unsubstitute (byte : UInt8) : UInt8 := inverseSubstitution.getD byte.toNat 0

/-- A byte, read as a polynomial over two elements, times `x`, modulo `x⁸ + x⁴ + x³ + x + 1`. -/
def timesX (a : UInt8) : UInt8 := (a <<< 1) ^^^ (if a &&& 0x80 = 0 then 0 else 0x1b)

/-- The product of two such polynomials, of which the second has degree three at most. -/
def times (a factor : UInt8) : UInt8 :=
  let a2 := timesX a
  let a4 := timesX a2
  let a8 := timesX a4
  (if factor &&& 1 = 0 then 0 else a) ^^^ (if factor &&& 2 = 0 then 0 else a2) ^^^
    (if factor &&& 4 = 0 then 0 else a4) ^^^ (if factor &&& 8 = 0 then 0 else a8)

/-- One column times a square of coefficients whose rows are rotations of the first one. -/
def mixColumn (p q r s : UInt8) : Bytes → Bytes
  | [a, b, c, d] =>
    [times a p ^^^ times b q ^^^ times c r ^^^ times d s,
     times a s ^^^ times b p ^^^ times c q ^^^ times d r,
     times a r ^^^ times b s ^^^ times c p ^^^ times d q,
     times a q ^^^ times b r ^^^ times c s ^^^ times d p]
  | column => column

def mixColumns (block : Bytes) : Bytes :=
  (Bytes.pieces 4 4 block).flatMap (mixColumn 2 3 1 1)

def unmixColumns (block : Bytes) : Bytes :=
  (Bytes.pieces 4 4 block).flatMap (mixColumn 14 11 13 9)

/-- Rotates the second, third and fourth row by one, two and three columns. -/
def shiftRows : Bytes → Bytes
  | [a, b, c, d, e, f, g, h, i, j, k, l, m, n, o, p] =>
    [a, f, k, p, e, j, o, d, i, n, c, h, m, b, g, l]
  | block => block

def unshiftRows : Bytes → Bytes
  | [a, f, k, p, e, j, o, d, i, n, c, h, m, b, g, l] =>
    [a, b, c, d, e, f, g, h, i, j, k, l, m, n, o, p]
  | block => block

/-- The next `count` words of a key schedule. `words` holds those so far, last one first, and
`width` is the number of words in the key. -/
def extend (width : Nat) :
    (count : Nat) → (index : Nat) → (constant : UInt8) → List Bytes → List Bytes
  | 0, _, _, words => words
  | count + 1, index, constant, words =>
    let last := words.headD []
    let base := words.getD (width - 1) []
    if index % width = 0 then
      let turned := (last.drop 1 ++ last.take 1).map substitute
      let turned := Bytes.xor turned [constant, 0, 0, 0]
      extend width count (index + 1) (timesX constant) (Bytes.xor base turned :: words)
    else if 6 < width ∧ index % width = 4 then
      extend width count (index + 1) constant (Bytes.xor base (last.map substitute) :: words)
    else extend width count (index + 1) constant (Bytes.xor base last :: words)

/-- The keys of the rounds: eleven for a key of 16 bytes, fifteen for one of 32. -/
def roundKeys (key : Bytes) : List Bytes :=
  let width := key.length / 4
  let total := 4 * (width + 7)
  let words := extend width (total - width) width 1 (Bytes.pieces 4 width key).reverse
  Bytes.pieces 16 (width + 7) words.reverse.flatten

/-- The rounds of encryption; the last one mixes no columns. -/
def encryptRounds : List Bytes → Bytes → Bytes
  | [], block => block
  | [key], block => Bytes.xor (shiftRows (block.map substitute)) key
  | key :: keys, block =>
    encryptRounds keys (Bytes.xor (mixColumns (shiftRows (block.map substitute))) key)

def encryptBlock (keys : List Bytes) (block : Bytes) : Bytes :=
  match keys with
  | [] => block
  | key :: keys => encryptRounds keys (Bytes.xor block key)

/-- The rounds of decryption, which undo those of encryption in turn. -/
def decryptRounds : List Bytes → Bytes → Bytes
  | [], block => block
  | [key], block => Bytes.xor ((unshiftRows block).map unsubstitute) key
  | key :: keys, block =>
    decryptRounds keys (unmixColumns (Bytes.xor ((unshiftRows block).map unsubstitute) key))

def decryptBlock (keys : List Bytes) (block : Bytes) : Bytes :=
  match keys.reverse with
  | [] => block
  | key :: keys => decryptRounds keys (Bytes.xor block key)

end Telemetry.Crypto.Aes
