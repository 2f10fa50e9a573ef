import Telemetry.Device.Credentials
/-!
# The device's side of a password negotiation

The device answers the server's public key with its own, signed by the registration password, takes
the digest of its new password out of the server's reply, and acknowledges it.
-/

namespace Telemetry

open Bysant (Envelope Header HeaderKey)

open Security (Authentication Entropy checksum checksumOfDigest verifyChecksum maskWithSecret)

/-- A device that negotiates. -/
structure Negotiator where
  clientId : String
  authentication : Authentication
  registrationPassword : String
  /-- The shared secret and the salt of the answer that is waiting for its reply. -/
  waiting : Option (Bytes × Bytes) := none
  deriving Repr, DecidableEq

namespace Negotiator

/-- The bytes of a header entry that the device needs. -/
def require (h : Header) (key : HeaderKey) : Except DeviceError Bytes :=
  match h.bytes? key with
  | some bytes => .ok bytes
  | none => .error (.missingHeader key)

def registrationKey (n : Negotiator) : Bytes := Bytes.ofString n.registrationPassword

/-- Answers the server's public key by the device's own. -/
def answerKey (n : Negotiator) (serverSalt serverKey : Bytes) (entropy : Entropy) :
    Except DeviceError (Envelope × Negotiator) × Entropy :=
  let (pair, entropy) := entropy.drawKeyPair
  match pair.sharedSecret serverKey with
  | .error error => (.error (.crypto (.exchange error)), entropy)
  | .ok secret =>
    let (salt, entropy) := entropy.drawNonce
    let salt := Bytes.ofString salt
    let mac :=
      checksum .md5 (Bytes.ofString n.clientId) n.registrationKey serverSalt pair.certificate
    let header := Header.ofList [(.id, .text n.clientId),
      (.autoregPubkey, .bytes pair.certificate), (.autoregSalt, .bytes salt),
      (.autoregMac, .bytes mac)]
    (.ok (.ofPayload header [], { n with waiting := some (secret, salt) }), entropy)

/-- Answers the server's offer of its public key. -/
def onChallenge (n : Negotiator) (e : Envelope) (entropy : Entropy) :
    Except DeviceError (Envelope × Negotiator) × Entropy :=
  match require e.header .autoregSalt, require e.header .autoregPubkey with
  | .ok serverSalt, .ok serverKey => n.answerKey serverSalt serverKey entropy
  | .error error, _ => (.error error, entropy)
  | _, .error error => (.error error, entropy)

/-- Takes the digest of the new password out of the server's reply. Gives the acknowledgement and
the digest. -/
def onHiddenPassword (n : Negotiator) (e : Envelope) :
    Except DeviceError (Envelope × Bytes × Negotiator) := do
  match n.waiting with
  | none => throw .noNegotiation
  | some (secret, salt) =>
    let hidden ← require e.header .autoregCtext
    let ackSalt ← require e.header .autoregSalt
    let mac ← require e.header .autoregMac
    let expected := checksum .md5 (Bytes.ofString Gateway.serverName) n.registrationKey salt hidden
    (verifyChecksum expected mac).mapError fun _ => .verificationFailed
    let digest ← (maskWithSecret secret hidden).mapError fun error => .crypto (.exchange error)
    let ack := checksumOfDigest (n.authentication.getD .md5) (Bytes.ofString n.clientId) digest
      ackSalt secret
    let header := Header.ofList [(.id, .text n.clientId), (.autoregMac, .bytes ack)]
    return (.ofPayload header [], digest, { n with waiting := none })

end Negotiator

end Telemetry
