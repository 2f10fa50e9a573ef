import Telemetry.Bysant.Encoder
import Telemetry.Session.Basic
/-!
# Authentication

    client                                          server
      |--- id, nonce = Nc, mac (id, pw, Ns, body) --->|     Ns: the last nonce of the server
      |<-- status, nonce = Ns', mac (server, ---------|     Ns' is kept for the next request
      |             pw, Nc, body)                     |

A request is accepted when its checksum is that of its payload under the working password and the
last nonce of the server. A missing or wrong checksum is answered by a challenge with a new nonce,
and too many in a row by a refusal. The client may challenge the server in turn, which then sends
its last response again. Ciphered payloads are ciphered before the checksum is made.
-/

namespace Telemetry

open Bysant (Envelope Header StatusCode)

open Security (ChecksumKind checksum verifyChecksum KeyIv CipherError)

/-- How a request was judged. -/
inductive Verdict where
  /-- The request is accepted; this is its payload in clear. -/
  | accepted (payload : Bytes)
  /-- The client wants this response, in clear, again. -/
  | replay (response : Envelope)
  /-- The request is refused with this response, and the connection may have to close. -/
  | refused (response : Envelope) (closes : Bool)

/-- Why a request was not judged or a response not signed. -/
inductive SecurityError where
  /-- The client has no working password. -/
  | negotiationRequired (clientId : String)
  /-- The response cannot be ciphered. -/
  | cipher (error : CipherError)
  deriving Repr, DecidableEq

def SecurityError.message : SecurityError → String
  | negotiationRequired clientId =>
    s!"device {clientId} has no credential, password negotiation required"
  | cipher error => s!"response cipher failed: {error.message}"

namespace Session

/-- The challenge to a client that failed to authenticate with some kind of checksum. -/
def challengeEnvelope (kind : ChecksumKind) (nonce : String) : Envelope :=
  .ofPayload (.ofList [(.status, StatusCode.unauthorized.toValue), (.challenge, .text kind.name),
    (.nonce, .bytes (Bytes.ofString nonce))]) []

/-- Answers a failed authentication: with a challenge, or with a refusal if there were too many. -/
def challenge (kind : ChecksumKind) (s : Session) (g : Gateway) : Outcome Verdict :=
  let s := { s with attempts := s.attempts + 1 }
  if max 1 g.attemptLimit ≤ s.attempts then ⟨.refused (.ofStatus .forbidden) true, s, g⟩
  else
    let ⟨nonce, s, g⟩ := s.renewNonce g
    ⟨.refused (challengeEnvelope kind nonce) false, s, g⟩

/-- The checksum that a request with this payload should carry. -/
def requestChecksum (kind : ChecksumKind) (credential : String) (s : Session) (payload : Bytes) :
    Bytes :=
  checksum kind (Bytes.ofString s.clientId) (Bytes.ofString credential)
    (Bytes.ofString s.profile.nonce) payload

/-- The payload of an authentic request in clear. -/
def openPayload (credential : String) (s : Session) (payload : Bytes) :
    Except CipherError Bytes :=
  match s.profile.encryption with
  | none => .ok payload
  | some cipher =>
    (KeyIv.ofPassword cipher (Bytes.ofString credential) (Bytes.ofString s.profile.nonce)).decrypt
      cipher payload

/-- Judges a request of a client that has to authenticate, by its working password. -/
def judge (kind : ChecksumKind) (credential : String) (e : Envelope) (s : Session) (g : Gateway) :
    Outcome Verdict :=
  let nonce := e.header.bytes? .nonce
  match e.header.contains .challenge, s.lastResponse, nonce with
  | true, some response, some _ => ⟨.replay response, { s with peerNonce := nonce }, g⟩
  | _, _, _ =>
    match e.header.bytes? .mac with
    | none => s.challenge kind g
    | some mac =>
      match verifyChecksum (requestChecksum kind credential s e.payload) mac with
      | .error _ => s.challenge kind g
      | .ok () =>
        match openPayload credential s e.payload with
        | .ok payload => ⟨.accepted payload, { s with attempts := 0, peerNonce := nonce }, g⟩
        | .error _ => ⟨.refused (.ofStatus .badRequest) true, s, g⟩

/-- Judges a request. Whoever need not authenticate is accepted as it is. -/
def authenticate (e : Envelope) (s : Session) (g : Gateway) :
    Outcome (Except SecurityError Verdict) :=
  let s := { s with peerNonce := none }
  match s.profile.authentication with
  | none => ⟨.ok (.accepted e.payload), s, g⟩
  | some kind =>
    match s.profile.credential with
    | none => ⟨.error (.negotiationRequired s.clientId), s, g⟩
    | some credential =>
      let ⟨verdict, s, g⟩ := s.judge kind credential e g
      ⟨.ok verdict, s, g⟩

/-- The payload of a response as it is sent to a client that gave a nonce. -/
def sealPayload (credential : String) (peerNonce : Bytes) (s : Session) (payload : Bytes) :
    Except CipherError Bytes :=
  match s.profile.encryption with
  | none => .ok payload
  | some cipher =>
    (KeyIv.ofPassword cipher (Bytes.ofString credential) peerNonce).encrypt cipher payload

/-- Ciphers and signs a response in clear, with a new nonce for the next request. Only the response
to a request that was judged authentic and brought a nonce is signed; any other one stays as it
is. -/
def signResponse (e : Envelope) (s : Session) (g : Gateway) :
    Outcome (Except SecurityError Envelope) :=
  match s.profile.authentication, s.profile.credential, s.peerNonce with
  | some kind, some credential, some peerNonce =>
    let s := { s with peerNonce := none, lastResponse := some e }
    match sealPayload credential peerNonce s e.payload with
    | .error error => ⟨.error (.cipher error), s, g⟩
    | .ok payload =>
      let ⟨nonce, s, g⟩ := s.renewNonce g
      let mac := checksum kind (Bytes.ofString Gateway.serverName) (Bytes.ofString credential)
        peerNonce payload
      let header := e.header.insert .nonce (.bytes (Bytes.ofString nonce))
      let header := header.insert .mac (.bytes mac)
      ⟨.ok { e with header, payload }, s, g⟩
  | _, _, _ => ⟨.ok e, s, g⟩

end Session

end Telemetry
