import Telemetry.Proofs.Gateway.Later
import Telemetry.Proofs.Session.Judgement
import Telemetry.Proofs.Session.Rounds
/-!
# What a session keeps

The name of the client, the way it authenticates and the cipher of its payloads are settled when a
session opens. Later on only two things of the profile change: a missing working password may be
negotiated, and the nonce may give way to one that is newly drawn.
-/

namespace Telemetry

open Bysant (Envelope)

open Security (ChecksumKind Profile)

namespace Session

variable {s s' s'' : Session} {e : Envelope} {g g' : Gateway} {kind : ChecksumKind}
  {password : String} {outcome : Outcome (Option Envelope)}

/-- What stays the same in a session that goes on while the gateway is used. -/
structure Continues (s : Session) (g : Gateway) (s' : Session) : Prop where
  client : s'.clientId = s.clientId
  authentication : s'.profile.authentication = s.profile.authentication
  encryption : s'.profile.encryption = s.profile.encryption
  credential : ∀ password, s.profile.credential = some password →
    s'.profile.credential = some password
  nonce : s'.profile.nonce = s.profile.nonce ∨ g.Draws s'.profile.nonce

theorem Continues.trans (first : s.Continues g s') (later : g.Later g')
    (second : s'.Continues g' s'') : s.Continues g s'' where
  client := second.client.trans first.client
  authentication := second.authentication.trans first.authentication
  encryption := second.encryption.trans first.encryption
  credential password held := second.credential password (first.credential password held)
  nonce := by
    rcases second.nonce with same | drawn
    · rw [same]
      exact first.nonce
    · exact .inr (later.draws drawn)

theorem continues_of_profile (client : s'.clientId = s.clientId) (same : s'.profile = s.profile)
    (g : Gateway) : s.Continues g s' :=
  ⟨client, by rw [same], by rw [same], fun _ held => by rw [same, held], .inl (by rw [same])⟩

theorem Continues.refl (s : Session) (g : Gateway) : s.Continues g s :=
  continues_of_profile rfl rfl g

theorem Continues.secured (h : s.Continues g s') (secured : s.Secured kind password) :
    s'.Secured kind password :=
  ⟨h.authentication.trans secured.authentication, h.credential password secured.credential⟩

theorem continues_renewNonce (s : Session) (g : Gateway) :
    s.Continues g (s.renewNonce g).session :=
  ⟨rfl, rfl, rfl, fun _ => id, .inr (Gateway.draws_drawNonce g)⟩

theorem quiet_renewNonce (s : Session) (g : Gateway) : g.Quiet (s.renewNonce g).gateway :=
  (Gateway.quiet_drawNonce g).trans (Gateway.quiet_updateProfile _ _ _)

/-- A connection may come from one state to another: the gateway is used, and a session that is open
goes on. -/
structure Leads (session : Option Session) (g : Gateway) (session' : Option Session)
    (g' : Gateway) : Prop where
  later : g.Later g'
  continues : ∀ s, session = some s → ∃ s', session' = some s' ∧ s.Continues g s'

theorem leads_some (later : g.Later g') (continues : s.Continues g s') :
    Leads (some s) g (some s') g' := by
  refine ⟨later, fun _ opened => ⟨s', rfl, ?_⟩⟩
  obtain rfl := Option.some.inj opened
  exact continues

variable {session session' session'' : Option Session} {g'' : Gateway}

theorem Leads.of_later (later : g.Later g') (session : Option Session) :
    Leads session g session g' :=
  ⟨later, fun s same => ⟨s, same, Continues.refl s g⟩⟩

theorem Leads.trans (first : Leads session g session' g') (second : Leads session' g' session'' g'') :
    Leads session g session'' g'' := by
  refine ⟨first.later.trans second.later, fun s same => ?_⟩
  obtain ⟨s', same', continues⟩ := first.continues s same
  obtain ⟨s'', same'', continues'⟩ := second.continues s' same'
  exact ⟨s'', same'', continues.trans first.later continues'⟩

/-! ## Negotiating -/

/-- The last round of a negotiation stores the new password. No other one touches the profile, in the
session or in the store. -/
theorem store_negotiate (step : s.negotiate e g = .ok outcome) :
    outcome.session.clientId = s.clientId ∧
      (outcome.session.profile = s.profile ∧ outcome.gateway.store = g.store ∨
        ∃ password, outcome.session.profile = { s.profile with password := some password } ∧
          outcome.gateway.store = g.store.setPassword s.clientId password) := by
  have negotiated := negotiated_negotiate e s g
  rw [step] at negotiated
  cases negotiated with
  | @keyOffered _ _ _ drawn left idle needs plain keyDrawn saltDrawn status =>
    have first := g.store_drawKeyPair
    have second := drawn.store_drawNonce
    rw [keyDrawn] at first
    rw [saltDrawn] at second
    exact ⟨rfl, .inl ⟨rfl, second.trans first⟩⟩
  | @passwordOffered _ _ _ _ _ _ _ drawn left waits ours salted theirs signed shared passwordDrawn
      saltDrawn status =>
    have first := g.store_drawPassword
    have second := drawn.store_drawNonce
    rw [passwordDrawn] at first
    rw [saltDrawn] at second
    exact ⟨rfl, .inl ⟨rfl, second.trans first⟩⟩
  | @committed _ _ _ password waits shared offered salted authentication mac =>
    exact ⟨rfl, .inr ⟨password, rfl, rfl⟩⟩

/-- No step of a negotiation has to do with received data or queued messages, and a new password
does not take the place of another one. -/
theorem negotiate_spec (needs : s.profile.needsNegotiation = true)
    (step : s.negotiate e g = .ok outcome) :
    s.Continues g outcome.session ∧ g.Quiet outcome.gateway := by
  have negotiated := negotiated_negotiate e s g
  rw [step] at negotiated
  cases negotiated with
  | @keyOffered _ _ _ drawn _ idle needs plain keyDrawn saltDrawn status =>
    have first := Gateway.quiet_drawKeyPair g
    have second := Gateway.quiet_drawNonce drawn
    rw [keyDrawn] at first
    rw [saltDrawn] at second
    exact ⟨continues_of_profile (by rfl) (by rfl) g, first.trans second⟩
  | @passwordOffered _ _ _ _ _ _ _ drawn _ waits ours salted theirs signed shared passwordDrawn
      saltDrawn status =>
    have first := Gateway.quiet_drawPassword g
    have second := Gateway.quiet_drawNonce drawn
    rw [passwordDrawn] at first
    rw [saltDrawn] at second
    exact ⟨continues_of_profile (by rfl) (by rfl) g, first.trans second⟩
  | committed waits shared offered salted authentication mac =>
    have missing : s.profile.credential = none := by
      simpa [Profile.needsNegotiation] using (Bool.and_eq_true_iff.mp needs).2
    refine ⟨⟨rfl, rfl, rfl, fun held given => ?_, .inl rfl⟩, Gateway.quiet_updateProfile g _ _⟩
    rw [missing] at given
    cases given

end Session

end Telemetry
