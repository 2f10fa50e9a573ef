import Telemetry.Bysant.EnvelopeDecoder
import Telemetry.Session.Negotiation
/-!
# Connections

A connection turns the bytes that a client sends into the envelopes to send back. The first envelope
names the client and opens the session, and no later one may name another. A client without a needed
password is led through the negotiation of one. Any other request is judged, and its payload, if
accepted, is stored and answered with the messages queued for the client and the acknowledgement of
every message that carried a ticket.
-/

namespace Telemetry

open Bysant (Envelope EnvelopeDecoder DecodeError Header StatusCode Value Message Response)

open Store (ReceivedMessage)

/-- A connection between two chunks of its input. -/
structure Connection where
  decoder : EnvelopeDecoder := .new
  session : Option Session := none

/-- What handling some input leads to. -/
structure Reaction where
  /-- Envelopes to send, in order. -/
  writes : List Envelope
  /-- Whether to close the connection behind them. -/
  close : Bool

/-- A reaction and the state behind it. -/
structure Handled where
  reaction : Reaction
  session : Option Session
  gateway : Gateway

namespace Connection

/-- The messages among decoded values. -/
def messagesOf (values : List Value) : List Message :=
  values.filterMap fun
    | .message m => some m
    | _ => none

/-- The acknowledgements of messages that carry a ticket. -/
def acknowledgements (messages : List Message) : List Response :=
  messages.filterMap fun m => m.ticket.map fun ticket => ⟨ticket, 0, ""⟩

/-- Stores the messages of a payload that is not empty. Gives the acknowledgements. -/
def takeIn (clientId : String) (payload : Bytes) (g : Gateway) :
    Except DecodeError (List Response × Gateway) :=
  if payload.isEmpty then .ok ([], g)
  else
    match Bysant.decode payload with
    | .error e => .error e
    | .ok values =>
      let messages := messagesOf values
      let (time, g) := g.nextReception
      let received := messages.map (ReceivedMessage.ofMessage g.clock)
      .ok (acknowledgements messages,
        { g with store := g.store.receive clientId time ⟨g.clock, received⟩ })

/-- Takes in the payload of an accepted request. Gives the response in clear. -/
def answer (clientId : String) (payload : Bytes) (g : Gateway) :
    Except DecodeError (Envelope × Gateway) :=
  match takeIn clientId payload g with
  | .error e => .error e
  | .ok (acks, g) =>
    let (queued, store) := g.store.dequeue clientId
    let values := (queued.getD []).map Value.message ++ acks.map Value.response
    .ok (.ofPayload (.ofList [(.status, StatusCode.ok.toValue)]) (Bysant.encodeAll values),
      { g with store })

/-- Sends a status and closes. -/
def refuse (status : StatusCode) : Reaction := ⟨[.ofStatus status], true⟩

/-- Signs and sends a response. -/
def respond (response : Envelope) (s : Session) (g : Gateway) : Handled :=
  match s.signResponse response g with
  | ⟨.ok signed, s, g⟩ => ⟨⟨[signed], false⟩, some s, g⟩
  | ⟨.error _, s, g⟩ => ⟨refuse .unexpectedError, some s, g⟩

/-- Handles an envelope of a session. -/
def handleIn (e : Envelope) (s : Session) (g : Gateway) : Handled :=
  if s.profile.needsNegotiation then
    match s.negotiate e g with
    | .ok ⟨reply, s, g⟩ => ⟨⟨reply.toList, false⟩, some s, g⟩
    | .error _ s g => ⟨refuse .forbidden, some s.resetNegotiation, g⟩
  else
    match s.authenticate e g with
    | ⟨.ok (.accepted payload), s, g⟩ =>
      match answer s.clientId payload g with
      | .ok (response, g) => respond response s g
      | .error _ => ⟨refuse .badRequest, some s, g⟩
    | ⟨.ok (.replay response), s, g⟩ => respond response s g
    | ⟨.ok (.refused response closes), s, g⟩ => ⟨⟨[response], closes⟩, some s, g⟩
    | ⟨.error _, s, g⟩ => ⟨refuse .unexpectedError, some s, g⟩

/-- The session that an envelope belongs to, which it may open; none if it names another client or
is the first one and names none. -/
def sessionFor (e : Envelope) (session : Option Session) (g : Gateway) : Option Session :=
  match session, e.senderId? with
  | some s, none => some s
  | some s, some id => if id = s.clientId then some s else none
  | none, some id => some (.start g.store id)
  | none, none => none

def handle (e : Envelope) (session : Option Session) (g : Gateway) : Handled :=
  match sessionFor e session g with
  | none => ⟨⟨[], true⟩, session, g⟩
  | some s => handleIn e s g

/-- Handles envelopes up to one that closes the connection. -/
def handleAll : List Envelope → Option Session → Gateway → Handled
  | [], session, g => ⟨⟨[], false⟩, session, g⟩
  | e :: rest, session, g =>
    let first := handle e session g
    if first.reaction.close then first
    else
      let others := handleAll rest first.session first.gateway
      ⟨⟨first.reaction.writes ++ others.reaction.writes, others.reaction.close⟩, others.session,
        others.gateway⟩

/-- Feeds a chunk to the decoder. When that has given out envelopes, a new decoder takes over the
bytes behind them. -/
def decode (d : EnvelopeDecoder) (chunk : Bytes) :
    EnvelopeDecoder × List Envelope × Except DecodeError Unit :=
  match d.feed chunk with
  | (d, envelopes, .error e) => (d, envelopes, .error e)
  | (d, envelopes, .ok ()) => d.renew envelopes

/-- Takes in a chunk. Envelopes in front of malformed bytes are answered; then the connection
closes. -/
def onBytes (c : Connection) (chunk : Bytes) (g : Gateway) : Reaction × Connection × Gateway :=
  let (decoder, envelopes, result) := decode c.decoder chunk
  let handled := handleAll envelopes c.session g
  let reaction :=
    match result with
    | .ok () => handled.reaction
    | .error _ => { handled.reaction with close := true }
  (reaction, ⟨decoder, handled.session⟩, handled.gateway)

/-- Takes in chunks one after the other, up to one behind which the connection closes. -/
def run : List Bytes → Connection → Gateway → Reaction × Connection × Gateway
  | [], c, g => (⟨[], false⟩, c, g)
  | chunk :: rest, c, g =>
    let (first, c, g) := c.onBytes chunk g
    if first.close then (first, c, g)
    else
      let (others, c, g) := run rest c g
      (⟨first.writes ++ others.writes, others.close⟩, c, g)

/-- Announces that the client has closed its side. It should not have done so within an envelope. -/
def onEnd (c : Connection) : Except DecodeError Unit × Connection :=
  (c.decoder.finish.2, { c with decoder := .new })

end Connection

end Telemetry
