import Telemetry.Gateway.Connection
import Telemetry.Proofs.Bysant.Completeness
import Telemetry.Proofs.Store.Clients
/-!
# What a payload comes to

The payload of an accepted request may hold values of all kinds. Its messages make up one record,
each of them that carries a ticket is acknowledged, and the messages that wait for the client go
along. What is kept of other clients stays as it is.
-/

namespace Telemetry

open Bysant (Value Message Response Envelope StatusCode encodeAll decode_encodeAll_of_sound)

open Store (ReceivedEnvelope ReceivedMessage lastEntries)

/-! ## The record and the acknowledgements -/

/-- What a message is acknowledged with, if it carries a ticket. -/
def Bysant.Message.acknowledgement? : Message → Option Response
  | ⟨_, some ticket, _⟩ => some ⟨ticket, 0, ""⟩
  | ⟨_, none, _⟩ => none

/-- What a value of a payload is acknowledged with. Only messages are. -/
def Bysant.Value.acknowledgement? : Value → Option Response
  | .message m => m.acknowledgement?
  | _ => none

/-- What is recorded of a payload that decodes to these values: its messages, in their order. -/
def Store.ReceivedEnvelope.ofValues (clock : Int64) (values : List Value) : ReceivedEnvelope where
  time := clock
  messages := values.filterMap fun
    | .message m => some (ReceivedMessage.ofMessage clock m)
    | _ => none

/-- The values that a client is sent: messages, and behind them acknowledgements. -/
def outgoingValues (messages : List Message) (acknowledged : List Response) : List Value :=
  messages.map .message ++ acknowledged.map .response

/-- A gateway takes in a payload of a client that decodes to these values, and gives out what waits
for the client. This is what is left of it. -/
structure Gateway.TakesIn (g : Gateway) (client : String) (payload : Bytes) (values : List Value)
    (left : Gateway) : Prop where
  /-- One record is kept with the others of the client, at a time behind all earlier receptions. -/
  recorded : payload ≠ [] → g.lastReception < g.nextReception.1 ∧
    left.store.receivedFrom client = lastEntries g.store.capacity
      (Table.put g.nextReception.1 (.ofValues g.clock values) (g.store.receivedFrom client))
  /-- An empty payload leaves no record. -/
  unrecorded : payload = [] → left.store.received = g.store.received
  others : ∀ other, other ≠ client →
    left.store.receivedFrom other = g.store.receivedFrom other
  /-- Nothing waits for the client any more. -/
  waiting : ∀ other, left.store.waiting other =
    if other = client then [] else g.store.waiting other

theorem Gateway.TakesIn.congr {g left left' : Gateway} {client : String} {payload : Bytes}
    {values : List Value} (h : g.TakesIn client payload values left)
    (received : left'.store.received = left.store.received)
    (outgoing : left'.store.outgoing = left.store.outgoing) :
    g.TakesIn client payload values left' where
  recorded some := by
    rw [Store.receivedFrom_congr received]
    exact h.recorded some
  unrecorded none := received.trans (h.unrecorded none)
  others other different :=
    (Store.receivedFrom_congr received other).trans (h.others other different)
  waiting other := (Store.waiting_congr outgoing other).trans (h.waiting other)

theorem Gateway.lastReception_lt_nextReception (g : Gateway) : g.lastReception < g.nextReception.1 :=
  Nat.lt_of_lt_of_le (Nat.lt_succ_self _) (Nat.le_max_right _ _)

namespace Connection

variable {client : String} {payload : Bytes} {values : List Value} {g : Gateway}

theorem map_messagesOf {α : Type} (f : Message → α) (values : List Value) :
    (messagesOf values).map f = values.filterMap fun
      | .message m => some (f m)
      | _ => none := by
  rw [messagesOf, List.map_filterMap]
  congr 1
  funext v
  cases v <;> rfl

theorem acknowledgements_eq (messages : List Message) :
    acknowledgements messages = messages.filterMap Message.acknowledgement? := by
  unfold acknowledgements
  congr 1
  funext m
  obtain ⟨path, ticket, body⟩ := m
  cases ticket <;> rfl

theorem acknowledgements_messagesOf (values : List Value) :
    acknowledgements (messagesOf values) = values.filterMap Value.acknowledgement? := by
  rw [acknowledgements_eq, messagesOf, List.filterMap_filterMap]
  congr 1
  funext v
  cases v <;> rfl

/-! ## Taking in a payload -/

/-- The gateway that has taken in a payload which decodes to these values. -/
def takenIn (clientId : String) (payload : Bytes) (values : List Value) (g : Gateway) : Gateway :=
  if payload = [] then g
  else
    { g.nextReception.2 with
      store := g.store.receive clientId g.nextReception.1 (.ofValues g.clock values) }

theorem decode_nil : Bysant.decode [] = .ok [] :=
  (decode_encodeAll_of_sound (by simp) : Bysant.decode (encodeAll []) = .ok [])

/-- Whatever payload decodes is taken in. -/
theorem takeIn_eq (clientId : String) (decodes : Bysant.decode payload = .ok values) (g : Gateway) :
    takeIn clientId payload g =
      .ok (values.filterMap Value.acknowledgement?, takenIn clientId payload values g) := by
  unfold takenIn
  by_cases none : payload = []
  · rw [none, decode_nil] at decodes
    obtain rfl : [] = values := Except.ok.inj decodes
    rw [if_pos none, none]
    rfl
  · have some : payload.isEmpty = false := by simpa using none
    have record : ⟨g.clock, (messagesOf values).map (ReceivedMessage.ofMessage g.clock)⟩ =
        ReceivedEnvelope.ofValues g.clock values := by
      rw [map_messagesOf]
      rfl
    rw [if_neg none, ← acknowledgements_messagesOf, ← record]
    unfold takeIn
    rw [some, decodes]
    rfl

theorem outgoing_takenIn (clientId : String) (payload : Bytes) (values : List Value) (g : Gateway) :
    (takenIn clientId payload values g).store.outgoing = g.store.outgoing := by
  unfold takenIn
  split <;> rfl

theorem receivedFrom_takenIn (some : payload ≠ []) (values : List Value) (g : Gateway) :
    (takenIn client payload values g).store.receivedFrom client =
      lastEntries g.store.capacity (Table.put g.nextReception.1 (.ofValues g.clock values)
        (g.store.receivedFrom client)) := by
  rw [takenIn, if_neg some]
  exact Store.receivedFrom_receive _ _

theorem receivedFrom_takenIn_of_ne {other : String} (different : other ≠ client) (payload : Bytes)
    (values : List Value) (g : Gateway) :
    (takenIn client payload values g).store.receivedFrom other = g.store.receivedFrom other := by
  unfold takenIn
  split
  · rfl
  · exact (Store.spares_receive different _ _).receivedFrom

/-! ## Answers in clear -/

/-- What a client is sent that sent these values: the messages queued for it, and behind them an
acknowledgement of each of its messages that carried a ticket. -/
def answerValues (clientId : String) (values : List Value) (g : Gateway) : List Value :=
  outgoingValues (g.store.waiting clientId) (values.filterMap Value.acknowledgement?)

/-- The envelope that the client is sent, in clear. -/
def answerEnvelope (clientId : String) (values : List Value) (g : Gateway) : Envelope :=
  .ofPayload (.ofList [(.status, StatusCode.ok.toValue)])
    (encodeAll (answerValues clientId values g))

/-- The gateway that has answered a payload in clear which decodes to these values: it has taken in
the messages, and taken those that were queued. -/
def answeredGateway (clientId : String) (payload : Bytes) (values : List Value) (g : Gateway) :
    Gateway :=
  let taken := takenIn clientId payload values g
  { taken with store := (taken.store.dequeue clientId).2 }

theorem dequeue_fst (store : Store) (clientId : String) :
    (store.dequeue clientId).1 = store.queued? clientId := by
  unfold Store.dequeue
  split
  · rename_i messages queued
    exact queued.symm
  · rename_i none
    exact none.symm

/-- The answer to a payload that decodes, in clear. -/
theorem answer_eq (decodes : Bysant.decode payload = .ok values) (clientId : String) (g : Gateway) :
    answer clientId payload g =
      .ok (answerEnvelope clientId values g, answeredGateway clientId payload values g) := by
  have queued : ((takenIn clientId payload values g).store.dequeue clientId).1 =
      g.store.queued? clientId := by
    rw [dequeue_fst, Store.queued?, outgoing_takenIn, Store.queued?]
  rw [answer, takeIn_eq clientId decodes g]
  simp only [queued]
  rfl

/-- The answer fails only if the payload does not decode. -/
theorem answer_of_error {error : Bysant.DecodeError} (fails : Bysant.decode payload = .error error)
    (clientId : String) (g : Gateway) : answer clientId payload g = .error error := by
  have some : payload.isEmpty = false := by
    cases payload with
    | nil => cases decode_nil.symm.trans fails
    | cons byte rest => rfl
  unfold answer takeIn
  rw [some, fails]
  rfl

theorem profiles_answeredGateway (clientId : String) (payload : Bytes) (values : List Value)
    (g : Gateway) :
    (answeredGateway clientId payload values g).store.profiles = g.store.profiles := by
  refine (Store.profiles_dequeue _ _).trans ?_
  unfold takenIn
  split <;> rfl

theorem entropy_answeredGateway (clientId : String) (payload : Bytes) (values : List Value)
    (g : Gateway) : (answeredGateway clientId payload values g).entropy = g.entropy := by
  show (takenIn clientId payload values g).entropy = g.entropy
  unfold takenIn
  split <;> rfl

/-- Taking the messages that wait for a client leaves the received data alone. -/
theorem received_answeredGateway (clientId : String) (payload : Bytes) (values : List Value)
    (g : Gateway) : (answeredGateway clientId payload values g).store.received =
      (takenIn clientId payload values g).store.received :=
  Store.received_dequeue _ clientId

/-- The answer takes all messages that wait for a client, and none that wait for another one. -/
theorem waiting_answeredGateway (clientId : String) (payload : Bytes) (values : List Value)
    (g : Gateway) (other : String) :
    (answeredGateway clientId payload values g).store.waiting other =
      if other = clientId then [] else g.store.waiting other := by
  rw [answeredGateway]
  split
  · rename_i same
    rw [same]
    exact Store.waiting_dequeue
  · rename_i different
    exact (Store.spares_dequeue different).waiting.trans
      (Store.waiting_congr (outgoing_takenIn clientId payload values g) other)

theorem takesIn_answeredGateway (client : String) (payload : Bytes) (values : List Value)
    (g : Gateway) :
    g.TakesIn client payload values (answeredGateway client payload values g) := by
  have received := received_answeredGateway client payload values g
  refine ⟨fun some => ⟨?_, ?_⟩, fun none => ?_, fun other different => ?_, fun other => ?_⟩
  · exact g.lastReception_lt_nextReception
  · rw [Store.receivedFrom_congr received]
    exact receivedFrom_takenIn some values g
  · rw [received, takenIn, if_pos none]
  · rw [Store.receivedFrom_congr received]
    exact receivedFrom_takenIn_of_ne different payload values g
  · exact waiting_answeredGateway client payload values g other

end Connection

end Telemetry
