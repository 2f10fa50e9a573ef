import Telemetry.Proofs.Gateway.Outcomes
/-!
# A payload is taken in as a whole or not at all

The payload of an accepted request may hold any values, in any order. If it cannot be decoded, the
client is turned away and nothing has happened to the gateway, however many messages lie in front of
the malformed bytes. Otherwise its messages are recorded together, each one that carried a ticket is
acknowledged, and the messages that wait for the client go along.
-/

namespace Telemetry

open Bysant (Value Message encodeAll)

open Connection (respond answerEnvelope answeredGateway)

variable {t : Turn} {s : Session} {payload : Bytes} {values : List Value}

namespace Connection

end Connection

/-! ## The whole payload -/

/-- What a turn does whose request is accepted with a payload that decodes to these values. -/
structure Turn.TakesIn (t : Turn) (s : Session) (payload : Bytes) (values : List Value) : Prop
    extends Gateway.TakesIn t.gateway s.clientId payload values t.handled.gateway where
  /-- The only reply says that all went well. It bears the messages that waited, and behind them the
  acknowledgements, all of which can be decoded if the messages keep to the limits. -/
  answered : ∃ reply,
    let arriving := (t.gateway.store.waiting s.clientId).map .message ++
      (values.filterMap Value.acknowledgement?).map .response
    t.handled.reaction = ⟨[reply], false⟩ ∧ reply.status? = some .ok ∧
      t.Bears s (encodeAll arriving) reply ∧
      ((∀ m ∈ t.gateway.store.waiting s.clientId,
          (Value.message m).Representable ∧ (Value.message m).WellFormed) →
        Bysant.decode (encodeAll arriving) = .ok arriving)

end Telemetry
