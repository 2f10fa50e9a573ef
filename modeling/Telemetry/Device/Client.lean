import Telemetry.Bysant.EnvelopeDecoder
import Telemetry.Device.Credentials
/-!
# Clients

A client sends messages in an envelope over a connection of its own and waits for one envelope in
return. With credentials it signs the request and checks the response; a challenge with a new nonce
is answered by a second attempt.
-/

namespace Telemetry

open Bysant (Envelope EnvelopeDecoder DecodeError StatusCode Value Message)

open Security (Entropy)

/-- What a client hears in return for its request. -/
inductive Heard where
  /-- There is no way to the server. -/
  | unreachable
  /-- Bytes in pieces, and whether the server then closed the connection. -/
  | reply (pieces : List Bytes) (closed : Bool)

/-- The way to a server that is in a state `σ`: what comes back for the bytes of a request. -/
abbrev Line (σ : Type) := Bytes → σ → Heard × σ

/-- Why an exchange failed. -/
inductive ClientError where
  /-- There is no connection. -/
  | connection
  | decode (error : DecodeError)
  /-- The server answered with a status other than 200. -/
  | status (status : StatusCode)
  /-- The response is not authentic. -/
  | device (error : DeviceError)
  /-- The server closed the connection before it answered. -/
  | closed
  /-- The server did not answer in time, in milliseconds. -/
  | timeout (limit : Nat)
  deriving Repr, DecidableEq

/-- A duration in milliseconds, in seconds if it has any, without trailing zeros. -/
def durationText (ms : Nat) : String :=
  if ms = 0 then "0ns"
  else if ms < 1000 then s!"{ms}ms"
  else
    let digit (n : Nat) : Char := Nat.digitChar (n % 10)
    let fraction := [digit (ms / 100), digit (ms / 10), digit ms].reverse.dropWhile (· == '0')
    toString (ms / 1000) ++
      (if fraction.isEmpty then "" else "." ++ String.ofList fraction.reverse) ++ "s"

def ClientError.message : ClientError → String
  | connection => "connection error: Network is unreachable (os error 101)"
  | decode error => s!"invalid response: {error.message}"
  | status s => s!"server answered with status {s.code.toNat}"
  | device error => s!"response rejected: {error.message}"
  | closed => "connection closed before a response"
  | timeout limit => s!"no response within {durationText limit}"

/-- A device that talks to a server. -/
structure Client where
  clientId : String
  credentials : Option Credentials := none
  /-- The last nonce of the server. -/
  serverNonce : Bytes := Bytes.ofString Security.Profile.initialNonce
  /-- How long it waits for an answer, in milliseconds. -/
  patience : Nat := 30000

namespace Client

def ofCredentials (c : Credentials) : Client := { clientId := c.clientId, credentials := some c }

/-- A request for messages, and the nonce that was signed with it. -/
def request (c : Client) (messages : List Message) (entropy : Entropy) :
    Except DeviceError (Envelope × Bytes) × Entropy :=
  let e := Envelope.ofMessages .empty messages
  match c.credentials with
  | some credentials => credentials.signRequest e c.serverNonce entropy
  | none => (.ok ({ e with header := e.header.insert .id (.text c.clientId) }, []), entropy)

/-- The first envelope in pieces of a reply, as far as they are needed. -/
def firstEnvelope (patience : Nat) (closed : Bool) :
    EnvelopeDecoder → List Bytes → Except ClientError Envelope
  | d, [] =>
    if closed then
      match d.finish.2 with
      | .ok () => .error .closed
      | .error e => .error (.decode e)
    else .error (.timeout patience)
  | d, piece :: rest =>
    match d.feed piece with
    | (_, _, .error e) => .error (.decode e)
    | (_, e :: _, .ok ()) => .ok e
    | (d, [], .ok ()) => firstEnvelope patience closed d rest

/-- The protocol units in the payload of a response in clear, unless its status is not that of
success. -/
def interpret (e : Envelope) : Except ClientError (List Value) :=
  let status := e.status?.getD .ok
  if status ≠ .ok then .error (.status status)
  else
    match Bysant.decode e.payload with
    | .error error => .error (.decode error)
    | .ok values =>
      .ok (values.filter fun
        | .envelope _ | .message _ | .response _ => true
        | _ => false)

/-- Takes in what was heard for a request that was signed along with a nonce. -/
def conclude (c : Client) (nonce : Bytes) (heard : Heard) :
    Except ClientError (List Value) × Client :=
  match heard with
  | .unreachable => (.error .connection, c)
  | .reply pieces closed =>
    match firstEnvelope c.patience closed .new pieces with
    | .error error => (.error error, c)
    | .ok e =>
      let c := { c with serverNonce := (e.header.bytes? .nonce).getD c.serverNonce }
      let status := e.status?.getD .ok
      if status ≠ .ok then (.error (.status status), c)
      else
        match c.credentials with
        | none => (interpret { e with footer := [] }, c)
        | some credentials =>
          match credentials.openResponse e nonce with
          | .error error => (.error (.device error), c)
          | .ok payload => (interpret (.ofPayload e.header payload), c)

/-- Sends messages and waits for the answer, once. -/
def exchange {σ : Type} (c : Client) (messages : List Message) (line : Line σ) (entropy : Entropy)
    (s : σ) : Except ClientError (List Value) × Client × Entropy × σ :=
  match c.request messages entropy with
  | (.error error, entropy) => (.error (.device error), c, entropy, s)
  | (.ok (e, nonce), entropy) =>
    let (heard, s) := line e.encode s
    let (result, c) := c.conclude nonce heard
    (result, c, entropy, s)

/-- Whether a failed exchange is worth a second attempt: the client was challenged, and it has the
credentials to answer. -/
def isChallenged (c : Client) (result : Except ClientError (List Value)) : Bool :=
  match result with
  | .error (.status s) => c.credentials.isSome && s = .unauthorized
  | _ => false

/-- Sends messages and gives the protocol units of the answer. -/
def send {σ : Type} (c : Client) (messages : List Message) (line : Line σ) (entropy : Entropy)
    (s : σ) : Except ClientError (List Value) × Client × Entropy × σ :=
  let (result, c, entropy, s) := c.exchange messages line entropy s
  if c.isChallenged result then c.exchange messages line entropy s else (result, c, entropy, s)

end Client

end Telemetry
