import Telemetry.Security.KeyExchange
import Telemetry.Text.Hex
/-!
# Random bytes

A source of random bytes is an endless sequence and a place in it; drawing moves the place. Nonces
and passwords are drawn as hexadecimal text, private keys as 32 bytes.
-/

namespace Telemetry.Security

/-- An endless sequence of bytes and how many of them are used up. -/
structure Entropy where
  stream : Nat → UInt8
  used : Nat := 0

namespace Entropy

def draw (e : Entropy) (n : Nat) : Bytes × Entropy :=
  ((List.range n).map fun i => e.stream (e.used + i), { e with used := e.used + n })

/-- A text of `2 * n` hexadecimal digits from `n` bytes. -/
def drawHex (e : Entropy) (n : Nat) : String × Entropy :=
  let (bytes, e) := e.draw n
  (Text.hex bytes, e)

/-- The bytes of a nonce or salt. -/
def nonceSize : Nat := 8

/-- A nonce: sixteen characters. -/
def drawNonce (e : Entropy) : String × Entropy := e.drawHex nonceSize

/-- A private key. Bytes that are none, which is all but impossible, are skipped up to `tries`
times; after that the key is one. -/
def drawSecret (e : Entropy) : (tries : Nat) → Nat × Entropy
  | 0 => (1, e)
  | tries + 1 =>
    let (bytes, e) := e.draw 32
    let secret := bytes.toNat
    if KeyPair.isSecret secret then (secret, e) else drawSecret e tries

def drawKeyPair (e : Entropy) : KeyPair × Entropy :=
  let (secret, e) := e.drawSecret 64
  (KeyPair.ofSecret secret, e)

end Entropy

end Telemetry.Security
