import Telemetry.Proofs.Gateway.Business
/-!
# When the data of a client is received

Only an accepted payload that is not empty adds to the received data. It does so in two moments: the
time of its reception is drawn from what all connections share, and its record is kept under this
time. In between, other connections may have been served. Whatever else comes of an envelope leaves
the received data and the time of the last reception alone.
-/

namespace Telemetry

open Bysant (Envelope StatusCode Value Response encodeAll)

open Connection (respond)

open Store (ReceivedEnvelope)

variable {g g' g'' : Gateway} {s : Session} {t : Turn} {payload : Bytes} {values : List Value}

/-! ## What leaves the received data alone -/

namespace Gateway

/-- From one gateway to the other, nothing is received. -/
structure Keeps (g g' : Gateway) : Prop where
  received : g'.store.received = g.store.received
  capacity : g'.store.capacity = g.store.capacity
  lastReception : g'.lastReception = g.lastReception

theorem Keeps.refl (g : Gateway) : g.Keeps g := ⟨rfl, rfl, rfl⟩

theorem Keeps.trans (first : g.Keeps g') (second : g'.Keeps g'') : g.Keeps g'' :=
  ⟨second.received.trans first.received, second.capacity.trans first.capacity,
    second.lastReception.trans first.lastReception⟩

theorem keeps_drawNonce (g : Gateway) : g.Keeps g.drawNonce.2 := ⟨rfl, rfl, rfl⟩

theorem keeps_drawKeyPair (g : Gateway) : g.Keeps g.drawKeyPair.2 := by
  unfold drawKeyPair
  cases g.entropy.drawKeyPair
  exact ⟨rfl, rfl, rfl⟩

theorem keeps_drawPassword (g : Gateway) : g.Keeps g.drawPassword.2 := by
  unfold drawPassword
  split <;> exact ⟨rfl, rfl, rfl⟩

theorem keeps_updateProfile (g : Gateway) (client : String)
    (f : Security.Profile → Security.Profile) :
    g.Keeps { g with store := g.store.updateProfile client f } := by
  refine ⟨Store.received_updateProfile, ?_, rfl⟩
  unfold Store.updateProfile
  split <;> rfl

theorem keeps_dequeue (g : Gateway) (client : String) :
    g.Keeps { g with store := (g.store.dequeue client).2 } := by
  unfold Store.dequeue
  split <;> exact ⟨rfl, rfl, rfl⟩

/-- Administrators receive nothing. -/
theorem keeps_register (g : Gateway) (client : String) (r : Admin.Registration) :
    g.Keeps (Admin.register g client r).2 := by
  unfold Admin.register
  split <;> exact ⟨rfl, rfl, rfl⟩

theorem keeps_send (g : Gateway) (client : String) (settings : List (String × Json)) :
    g.Keeps (Admin.send g client settings).2 := by
  unfold Admin.send
  dsimp only
  split <;> exact ⟨rfl, rfl, rfl⟩

end Gateway

namespace Session

theorem keeps_renewNonce (s : Session) (g : Gateway) : g.Keeps (s.renewNonce g).gateway :=
  (Gateway.keeps_drawNonce g).trans (Gateway.keeps_updateProfile _ _ _)

theorem keeps_signResponse (response : Envelope) (s : Session) (g : Gateway) :
    g.Keeps (s.signResponse response g).gateway := by
  unfold signResponse
  split
  · dsimp only
    split
    · exact Gateway.Keeps.refl g
    · exact keeps_renewNonce _ g
  · exact Gateway.Keeps.refl g

theorem keeps_authenticate (e : Envelope) (s : Session) (g : Gateway) :
    g.Keeps (s.authenticate e g).gateway := by
  cases authentication : s.profile.authentication with
  | none =>
    rw [authenticate_of_free authentication]
    exact Gateway.Keeps.refl g
  | some kind =>
    cases credential : s.profile.credential with
    | none =>
      unfold authenticate
      simp only [authentication, credential]
      exact Gateway.Keeps.refl g
    | some password =>
      have secured : s.Secured kind password := ⟨authentication, credential⟩
      rw [secured.authenticate_eq]
      have judged := judged_judge kind password e { s with peerNonce := none } g
      generalize judge kind password e { s with peerNonce := none } g = outcome at judged
      cases judged with
      | challenged mac few drawn =>
        subst drawn
        exact keeps_renewNonce _ g
      | _ => exact Gateway.Keeps.refl g

theorem keeps_negotiate {e : Envelope} {outcome : Outcome (Option Envelope)}
    (step : s.negotiate e g = .ok outcome) : g.Keeps outcome.gateway := by
  have negotiated := negotiated_negotiate e s g
  rw [step] at negotiated
  cases negotiated with
  | @keyOffered _ _ _ drawn _ idle needs plain keyDrawn saltDrawn status =>
    have first := Gateway.keeps_drawKeyPair g
    have second := Gateway.keeps_drawNonce drawn
    rw [keyDrawn] at first
    rw [saltDrawn] at second
    exact first.trans second
  | @passwordOffered _ _ _ _ _ _ _ drawn _ waits ours salted theirs signed shared passwordDrawn
      saltDrawn status =>
    have first := Gateway.keeps_drawPassword g
    have second := Gateway.keeps_drawNonce drawn
    rw [passwordDrawn] at first
    rw [saltDrawn] at second
    exact first.trans second
  | committed waits shared offered salted authentication mac =>
    exact Gateway.keeps_updateProfile g _ _

end Session

namespace Connection

theorem keeps_respond (response : Envelope) (s : Session) (g : Gateway) :
    g.Keeps (respond response s g).gateway := by
  rw [(respond_effects response s g).2]
  exact Session.keeps_signResponse response s g

end Connection

/-! ## Records -/

/-- The request of a session is accepted in a turn, and its payload is to be recorded. -/
structure Turn.Reports (t : Turn) (s : Session) (payload : Bytes) (values : List Value) : Prop
    extends t.Grants s payload where
  some : payload ≠ []
  decodes : Bysant.decode payload = .ok values

namespace Turn

/-- An accepted payload that is not to be recorded is empty or malformed. -/
theorem Grants.keeps (grants : t.Grants s payload)
    (unreported : ∀ values, ¬ t.Reports s payload values) : t.gateway.Keeps t.handled.gateway := by
  have answered := (Connection.handled_of_granted grants).2
  cases decodes : Bysant.decode payload with
  | error error =>
    rw [answered, Connection.answer_of_error decodes]
    exact Gateway.Keeps.refl _
  | ok values =>
    obtain rfl : payload = [] :=
      Decidable.not_not.mp fun some => unreported values ⟨grants, some, decodes⟩
    rw [answered, Connection.answer_eq decodes]
    exact (Gateway.keeps_dequeue t.gateway s.clientId).trans (Connection.keeps_respond _ _ _)

/-- If no payload is to be recorded, nothing is received. -/
theorem keeps_handled (unreported : ∀ s payload values, ¬ t.Reports s payload values) :
    t.gateway.Keeps t.handled.gateway := by
  cases opened : t.opened with
  | none =>
    rw [Turn.handled, Connection.handle, show Connection.sessionFor _ _ _ = _ from opened]
    exact Gateway.Keeps.refl _
  | some s =>
    by_cases granted : ∃ payload, t.Grants s payload
    · obtain ⟨payload, grants⟩ := granted
      exact grants.keeps (unreported s payload)
    rw [Connection.handled_of_opened opened, Connection.handleIn]
    cases needs : s.profile.needsNegotiation with
    | true =>
      rw [if_pos rfl]
      cases step : s.negotiate t.envelope t.gateway with
      | ok outcome => exact Session.keeps_negotiate step
      | error error after left =>
        obtain ⟨rfl, rfl⟩ := Session.unchanged_of_error step
        exact Gateway.Keeps.refl _
    | false =>
      have keeps := Session.keeps_authenticate t.envelope s t.gateway
      rw [if_neg Bool.false_ne_true]
      split <;> rename_i authenticated <;> rw [authenticated] at keeps
      · have judged := congrArg Outcome.result authenticated
        exact absurd ⟨_, opened, needs, judged⟩ granted
      · exact keeps.trans (Connection.keeps_respond _ _ _)
      · exact keeps
      · exact keeps

end Turn

/-! ## Two moments -/

/-- An envelope that was accepted from a client, and the time of its reception. -/
structure Reception where
  client : String
  time : Nat
  envelope : ReceivedEnvelope

/-- What is left of an accepted request once the time of its reception is drawn: the record, and the
answer with these acknowledgements in a session. -/
structure Underway where
  reception : Reception
  session : Session
  acks : List Response

/-- Draws the time of reception for a payload that decodes to these values, and which is dated by
some reading of the clock. -/
def Turn.draw (t : Turn) (s : Session) (values : List Value) (date : Int64) : Underway :=
  ⟨⟨s.clientId, t.gateway.nextReception.1, .ofValues date values⟩,
    (s.authenticate t.envelope t.gateway).session, values.filterMap Value.acknowledgement?⟩

/-- The gateway that keeps the record of a reception. -/
def Gateway.receive (g : Gateway) (r : Reception) : Gateway :=
  { g with store := g.store.receive r.client r.time r.envelope }

namespace Underway

/-- Keeps the record and answers. -/
def finish (u : Underway) (g : Gateway) : Handled :=
  let received := g.receive u.reception
  let (queued, store) := received.store.dequeue u.reception.client
  let values := (queued.getD []).map Value.message ++ u.acks.map Value.response
  respond (.ofPayload (.ofList [(.status, StatusCode.ok.toValue)]) (encodeAll values)) u.session
    { received with store }

/-- Behind the record, nothing is received. -/
theorem keeps_finish (u : Underway) (g : Gateway) :
    (g.receive u.reception).Keeps (u.finish g).gateway :=
  (Gateway.keeps_dequeue _ u.reception.client).trans (Connection.keeps_respond _ _ _)

end Underway

/-- When nothing comes in between, the two moments are the whole of a turn. -/
theorem Turn.Reports.handled_eq (reports : t.Reports s payload values) :
    t.handled = (t.draw s values t.gateway.clock).finish t.gateway.nextReception.2 := by
  rw [(Connection.handled_of_granted reports.toGrants).2]
  unfold Connection.answer
  rw [Connection.takeIn_eq s.clientId reports.decodes, Connection.takenIn, if_neg reports.some]
  rfl

end Telemetry
