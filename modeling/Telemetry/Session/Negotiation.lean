import Telemetry.Session.Authentication
/-!
# Negotiation of a password

A client that has only a registration password gets a working one in three rounds. The server sends
its public key and a salt; the client answers with its own, signed by the registration password;
the server sends the digest of the new password hidden by the shared secret; the client
acknowledges with a checksum made from that digest.

    stage            expects                 answers
    NONE             any envelope            407 with salt and public key
    WAIT_PUB_KEY     public key, salt, mac   407 with hidden password, salt and mac
    WAIT_ACK         mac                     nothing
    DONE             nothing

A step that fails leaves the session as it was.
-/

namespace Telemetry

open Bysant (Envelope Header HeaderKey StatusCode)

open Security (checksum checksumOfDigest verifyChecksum maskWithSecret CryptoError)

/-- Why a step of a negotiation failed. -/
inductive NegotiationError where
  /-- The client has a working password, or needs none. -/
  | notRequired (clientId : String)
  /-- The envelope belongs to another stage. -/
  | unexpectedMessage (stage : Stage)
  | missingHeader (stage : Stage) (key : HeaderKey)
  | verificationFailed (stage : Stage)
  /-- Something that an earlier round should have left is not there. -/
  | inconsistent (stage : Stage)
  /-- The client's public key is none. -/
  | crypto (error : CryptoError)
  deriving Repr, DecidableEq

def NegotiationError.message : NegotiationError → String
  | notRequired clientId => s!"device {clientId} does not need a password negotiation"
  | unexpectedMessage stage => s!"unexpected message in negotiation state {stage.name}"
  | missingHeader stage key => s!"missing header {key.name} in negotiation state {stage.name}"
  | verificationFailed stage =>
    s!"checksum verification failed in negotiation state {stage.name}"
  | inconsistent stage => s!"negotiation material lost in state {stage.name}"
  | crypto error => s!"negotiation crypto failure: {error.message}"

namespace Negotiation

/-- The header entries that only envelopes of a negotiation have. -/
def headerKeys : List HeaderKey := [.autoregSalt, .autoregPubkey, .autoregCtext, .autoregMac]

/-- The bytes of a header entry that a stage needs. -/
def require (stage : Stage) (h : Header) (key : HeaderKey) : Except NegotiationError Bytes :=
  match h.bytes? key with
  | some bytes => .ok bytes
  | none => .error (.missingHeader stage key)

end Negotiation

namespace Session

open Negotiation (require)

/-- How a step of a negotiation ends. -/
inductive NegotiationStep where
  /-- With the answer, if any, and what the step leaves behind. -/
  | ok (outcome : Outcome (Option Envelope))
  /-- With a failure, and what the step leaves behind all the same. -/
  | error (error : NegotiationError) (session : Session) (gateway : Gateway)

/-- The server's public key and salt. -/
def offerKey (e : Envelope) (s : Session) (g : Gateway) : NegotiationStep :=
  if !s.profile.needsNegotiation then .error (.notRequired s.clientId) s g
  else if Negotiation.headerKeys.any e.header.contains then .error (.unexpectedMessage .idle) s g
  else
    let (pair, g) := g.drawKeyPair
    let (salt, g) := g.drawNonce
    let salt := Bytes.ofString salt
    let header := Header.ofList [(.status, StatusCode.authenticationRequired.toValue),
      (.autoregSalt, .bytes salt), (.autoregPubkey, .bytes pair.certificate)]
    let negotiation :=
      { s.negotiation with stage := .awaitingKey, pair := some pair, salt := some salt }
    .ok ⟨some (.ofPayload header []), { s with negotiation }, g⟩

/-- The registration password of a session's client, empty if there is none. -/
def registrationKey (s : Session) : Bytes := Bytes.ofString (s.profile.sharedKey.getD "")

/-- Checks that a client's public key is signed by its registration password, if it has one. -/
def checkPublicKey (e : Envelope) (salt publicKey : Bytes) (s : Session) :
    Except NegotiationError Unit := do
  if s.registrationKey ≠ [] then
    let mac ← require .awaitingKey e.header .autoregMac
    let expected := checksum .md5 (Bytes.ofString s.clientId) s.registrationKey salt publicKey
    (verifyChecksum expected mac).mapError fun _ => .verificationFailed .awaitingKey

/-- What a client's public key comes to, if it is signed as it should be: the secret that is shared
with the client, and the salt that the client has sent along. -/
def acceptKey (e : Envelope) (s : Session) : Except NegotiationError (Bytes × Bytes) := do
  let publicKey ← require .awaitingKey e.header .autoregPubkey
  let peerSalt ← require .awaitingKey e.header .autoregSalt
  match s.negotiation.pair, s.negotiation.salt with
  | some pair, some salt =>
    checkPublicKey e salt publicKey s
    let secret ← (pair.sharedSecret publicKey).mapError fun error => .crypto (.exchange error)
    return (secret, peerSalt)
  | _, _ => throw (.inconsistent .awaitingKey)

/-- A new password for a client that answered with its public key, hidden by the shared secret. -/
def offerPassword (e : Envelope) (s : Session) (g : Gateway) : NegotiationStep :=
  match acceptKey e s with
  | .error error => .error error s g
  | .ok (secret, peerSalt) =>
    let (password, g) := g.drawPassword
    match maskWithSecret secret (Crypto.md5 (Bytes.ofString password)) with
    | .error error => .error (.crypto (.exchange error)) s g
    | .ok hidden =>
      let (ackSalt, g) := g.drawNonce
      let ackSalt := Bytes.ofString ackSalt
      let mac := checksum .md5 (Bytes.ofString Gateway.serverName) s.registrationKey peerSalt hidden
      let header := Header.ofList [(.status, StatusCode.authenticationRequired.toValue),
        (.autoregCtext, .bytes hidden), (.autoregSalt, .bytes ackSalt), (.autoregMac, .bytes mac)]
      let negotiation :=
        { s.negotiation with
          stage := .awaitingAck
          pair := none
          secret := some secret
          password := some password
          ackSalt := some ackSalt }
      .ok ⟨some (.ofPayload header []), { s with negotiation }, g⟩

/-- The new password, if the client has acknowledged it. -/
def acknowledged (e : Envelope) (s : Session) : Except NegotiationError String := do
  let mac ← require .awaitingAck e.header .autoregMac
  match s.negotiation.secret, s.negotiation.password, s.negotiation.ackSalt with
  | some secret, some password, some salt =>
    match s.profile.authentication with
    | none => throw (.notRequired s.clientId)
    | some kind =>
      let expected := checksumOfDigest kind (Bytes.ofString s.clientId)
        (Crypto.md5 (Bytes.ofString password)) salt secret
      (verifyChecksum expected mac).mapError fun _ => .verificationFailed .awaitingAck
      return password
  | _, _, _ => throw (.inconsistent .awaitingAck)

/-- Takes the new password into use when the client has acknowledged it. -/
def commitPassword (e : Envelope) (s : Session) (g : Gateway) : NegotiationStep :=
  match acknowledged e s with
  | .error error => .error error s g
  | .ok password =>
    .ok ⟨none,
      { s with
        profile := { s.profile with password := some password }
        negotiation := .done
        attempts := 0 },
      { g with store := g.store.setPassword s.clientId password }⟩

def negotiate (e : Envelope) (s : Session) (g : Gateway) : NegotiationStep :=
  match s.negotiation.stage with
  | .idle => s.offerKey e g
  | .awaitingKey => s.offerPassword e g
  | .awaitingAck => s.commitPassword e g
  | .done => .error (.unexpectedMessage .done) s g

end Session

end Telemetry
