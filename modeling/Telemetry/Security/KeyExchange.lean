import Telemetry.Crypto.P256
import Telemetry.Security.Checksum
/-!
# Key exchange

Two peers who know each other's public keys on the curve P-256 share a secret: the abscissa of one
private key times the other public key. A public key travels as `04 ++ x ++ y`, its certificate. The
secret masks the sixteen bytes of a password digest.
-/

namespace Telemetry.Security

/-- The length of a certificate. -/
def certificateSize : Nat := 65

/-- The length of what a secret masks. -/
def maskSize : Nat := 16

inductive KeyExchangeError where
  /-- The certificate has another length or form; its length is given. -/
  | notUncompressed (length : Nat)
  | notOnCurve
  | invalidPrivateKey
  /-- What is to be masked does not have sixteen bytes. -/
  | payloadLength (length : Nat)
  deriving Repr, DecidableEq

def KeyExchangeError.message : KeyExchangeError → String
  | notUncompressed length =>
    s!"Invalid public key: expected {certificateSize} byte uncompressed point, got {length} bytes"
  | notOnCurve => "Invalid public key: point not on curve"
  | invalidPrivateKey => "Invalid private key"
  | payloadLength length => s!"secret cipher payload must be {maskSize} bytes, got {length}"

/-- A private key and the certificate of its public key. -/
structure KeyPair where
  secret : Nat
  certificate : Bytes
  deriving Repr, DecidableEq

namespace KeyPair

/-- The certificate of a point. -/
def certificateOf (p : Crypto.P256.Point) : Bytes :=
  4 :: (Bytes.ofNat 32 p.x ++ Bytes.ofNat 32 p.y)

def isSecret (n : Nat) : Bool := 0 < n && n < Crypto.P256.order

/-- The key pair of a private key. -/
def ofSecret (secret : Nat) : KeyPair :=
  ⟨secret, match Crypto.P256.multiply secret Crypto.P256.base with
    | some point => certificateOf point
    | none => []⟩

/-- The key pair of a private key in big-endian bytes, of which leading zeros may be left out down
to 24 bytes. -/
def ofPrivate (privateKey : Bytes) : Except KeyExchangeError KeyPair :=
  let secret := privateKey.toNat
  if 24 ≤ privateKey.length ∧ privateKey.length ≤ 32 ∧ isSecret secret then .ok (ofSecret secret)
  else .error .invalidPrivateKey

def pointOf (certificate : Bytes) : Except KeyExchangeError Crypto.P256.Point :=
  match certificate with
  | 4 :: coordinates =>
    if certificate.length = certificateSize then
      let point : Crypto.P256.Point :=
        ⟨Bytes.toNat (coordinates.take 32), Bytes.toNat (coordinates.drop 32)⟩
      if point.isOnCurve then .ok point else .error .notOnCurve
    else .error (.notUncompressed certificate.length)
  | _ => .error (.notUncompressed certificate.length)

/-- The secret shared with the holder of a certificate. -/
def sharedSecret (pair : KeyPair) (peer : Bytes) : Except KeyExchangeError Bytes :=
  match pointOf peer with
  | .error e => .error e
  | .ok point =>
    match Crypto.P256.multiply pair.secret point with
    | some shared => .ok (Bytes.ofNat 32 shared.x)
    | none => .error .notOnCurve

end KeyPair

/-- Sixteen bytes masked by a secret. Masking again gives them back. -/
def maskWithSecret (secret payload : Bytes) : Except KeyExchangeError Bytes :=
  if payload.length = maskSize then .ok (Bytes.xor payload (Crypto.md5 secret))
  else .error (.payloadLength payload.length)

end Telemetry.Security
