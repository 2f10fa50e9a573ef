import Telemetry.Gateway.Basic
/-!
# Sessions

What a connection remembers of its client: its name and profile, the last response, and how far
authentication and the negotiation of a password have come.
-/

namespace Telemetry

open Bysant (Envelope)

open Security (Profile KeyPair)

/-- How far the negotiation of a password has come. -/
inductive Stage where
  | idle
  /-- The server's public key and salt were sent. -/
  | awaitingKey
  /-- The hidden password was sent with a salt for its acknowledgement. -/
  | awaitingAck
  /-- The client has acknowledged the password. -/
  | done
  deriving Repr, DecidableEq

def Stage.name : Stage → String
  | idle => "NONE"
  | awaitingKey => "WAIT_PUB_KEY"
  | awaitingAck => "WAIT_ACK"
  | done => "DONE"

/-- The negotiation of a password: how far it has come, and what is kept between its rounds. -/
structure Negotiation where
  stage : Stage
  /-- The server's key pair, until the client's public key has come. -/
  pair : Option KeyPair := none
  /-- The salt that was sent with the server's public key. -/
  salt : Option Bytes := none
  /-- The salt that was sent with the hidden password. -/
  ackSalt : Option Bytes := none
  secret : Option Bytes := none
  /-- The new password, until the client has acknowledged it. -/
  password : Option String := none
  deriving Repr, DecidableEq

namespace Negotiation

def idle : Negotiation := { stage := .idle }

def done : Negotiation := { stage := .done }

end Negotiation

/-- What a connection remembers of its client. -/
structure Session where
  clientId : String
  profile : Profile
  /-- The last response that was signed, in clear. -/
  lastResponse : Option Envelope := none
  /-- The nonce that came with the request that is being answered. -/
  peerNonce : Option Bytes := none
  /-- Failed authentications since the last success. -/
  attempts : Nat := 0
  negotiation : Negotiation := .idle

namespace Session

/-- The session of a client without a stored profile. -/
def unsecured (clientId : String) : Session := ⟨clientId, .unsecured clientId, none, none, 0, .idle⟩

/-- The session that opens for a client. -/
def start (store : Store) (clientId : String) : Session :=
  { clientId, profile := (store.profile? clientId).getD (.unsecured clientId) }

def resetNegotiation (s : Session) : Session := { s with negotiation := .idle }

end Session

/-- The result of a step of a session, and what it leaves behind. -/
structure Outcome (α : Type) where
  result : α
  session : Session
  gateway : Gateway

namespace Session

/-- Gives the client a new nonce, which is also remembered in its stored profile. -/
def renewNonce (s : Session) (g : Gateway) : Outcome String :=
  let (nonce, g) := g.drawNonce
  ⟨nonce, { s with profile := { s.profile with nonce } },
    { g with store := g.store.setNonce s.clientId nonce }⟩

end Session

end Telemetry
