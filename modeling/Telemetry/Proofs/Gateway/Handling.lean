import Telemetry.Proofs.Gateway.Exchange
import Telemetry.Proofs.Session.Continuity
/-!
# What handling an envelope comes to

An envelope of a client that authenticates under a working password comes to one of three things:
its payload is taken in and answered, the last response is sent again, or it is refused. Only the
first one touches the data received from the client and the messages queued for it.
-/

namespace Telemetry

open Bysant (Envelope Value)

open Security (ChecksumKind)

namespace Session

variable {s : Session} {e : Envelope} {g : Gateway}

/-- Signing a response changes a session and a gateway by a new nonce at most. -/
theorem signResponse_spec (e : Envelope) (s : Session) (g : Gateway) :
    s.Continues g (s.signResponse e g).session ∧ g.Quiet (s.signResponse e g).gateway := by
  unfold signResponse
  split
  · rename_i peerNonce _ _ _
    have kept : s.Continues g { s with peerNonce := none, lastResponse := some e } :=
      continues_of_profile (by rfl) (by rfl) g
    dsimp only
    split
    · exact ⟨kept, Gateway.Quiet.refl g⟩
    · exact ⟨kept.trans (Gateway.Later.refl g) (continues_renewNonce _ g), quiet_renewNonce _ g⟩
  · exact ⟨Continues.refl s g, Gateway.Quiet.refl g⟩

end Session

namespace Connection

variable {s : Session} {kind : ChecksumKind} {password clientId : String} {e response : Envelope}
  {g : Gateway} {payload nonce : Bytes} {values : List Value}

/-! ## Responses -/

/-- A response that cannot be signed has the same effects as one that is. -/
theorem respond_effects (response : Envelope) (s : Session) (g : Gateway) :
    (respond response s g).session = some (s.signResponse response g).session ∧
      (respond response s g).gateway = (s.signResponse response g).gateway := by
  unfold respond
  split
  · rename_i same
    rw [same]
    exact ⟨rfl, rfl⟩
  · rename_i same
    rw [same]
    exact ⟨rfl, rfl⟩

theorem quiet_respond (response : Envelope) (s : Session) (g : Gateway) :
    g.Quiet (respond response s g).gateway := by
  rw [(respond_effects response s g).2]
  exact (Session.signResponse_spec response s g).2

theorem leads_respond (response : Envelope) (s : Session) (g : Gateway) :
    Session.Leads (some s) g (respond response s g).session (respond response s g).gateway := by
  obtain ⟨continues, quiet⟩ := Session.signResponse_spec response s g
  obtain ⟨session, gateway⟩ := respond_effects response s g
  rw [session, gateway]
  exact Session.leads_some quiet.toLater continues

/-- A response goes out as it is if the request brought no nonce. -/
theorem respond_of_none (asked : s.peerNonce = none) (response : Envelope) (g : Gateway) :
    respond response s g = ⟨⟨[response], false⟩, some s, g⟩ := by
  have plain : s.signResponse response g = ⟨.ok response, s, g⟩ := by
    unfold Session.signResponse
    split
    · rename_i given
      rw [asked] at given
      cases given
    · rfl
  rw [respond, plain]

/-- Otherwise it is ciphered and signed under this nonce. -/
theorem respond_of_some (secured : s.Secured kind password) (asked : s.peerNonce = some nonce)
    (response : Envelope) (g : Gateway) : ∃ ciphered,
      s.sealPayload password nonce response.payload = .ok ciphered ∧
      respond response s g =
        let renewed := { s with peerNonce := none, lastResponse := some response }.renewNonce g
        ⟨⟨[Session.signedResponse kind password response (Bytes.ofString renewed.result) nonce
          ciphered], false⟩, some renewed.session, renewed.gateway⟩ := by
  obtain ⟨ciphered, sent, -⟩ :=
    Session.device_openPayload_sealPayload s kind password nonce response.payload
  refine ⟨ciphered, sent, ?_⟩
  rw [respond, Session.signResponse_of_sealed secured asked sent]

theorem later_answeredGateway (clientId : String) (payload : Bytes) (values : List Value)
    (g : Gateway) : g.Later (answeredGateway clientId payload values g) := by
  have entropy := entropy_answeredGateway clientId payload values g
  refine ⟨by rw [entropy], by rw [entropy], fun client known => ?_⟩
  rwa [Store.profile?, profiles_answeredGateway]

/-! ## Clients with a working password -/

/-- What an envelope of a client with a working password comes to. -/
inductive Handles (kind : ChecksumKind) (password : String) (e : Envelope) (s : Session)
    (g : Gateway) : Handled → Prop where
  /-- The checksum is right, and the payload is taken in and answered. -/
  | answered {clear : Bytes} {values : List Value}
      (mac : e.header.bytes? .mac = some (s.requestChecksum kind password e.payload))
      (opened : s.openPayload password e.payload = .ok clear)
      (decodes : Bysant.decode clear = .ok values)
      (judged : (s.authenticate e g).result = .ok (.accepted clear)) :
      Handles kind password e s g (respond (answerEnvelope s.clientId values g)
        { s with attempts := 0, peerNonce := e.header.bytes? .nonce }
        (answeredGateway s.clientId clear values g))
  /-- The last response is sent once more. -/
  | replayed {response : Envelope} {nonce : Bytes}
      (last : s.lastResponse = some response)
      (given : e.header.bytes? .nonce = some nonce)
      (judged : (s.authenticate e g).result = .ok (.replay response)) :
      Handles kind password e s g (respond response { s with peerNonce := some nonce } g)
  /-- The reply says that something went wrong. -/
  | refused {reply : Envelope} {closes : Bool} {after : Session} {left : Gateway}
      (failed : reply.status? ≠ some .ok) (continues : s.Continues g after) (quiet : g.Quiet left) :
      Handles kind password e s g ⟨⟨[reply], closes⟩, some after, left⟩

theorem status?_challengeEnvelope (kind : ChecksumKind) (nonce : String) :
    (Session.challengeEnvelope kind nonce).status? = some .unauthorized := by
  show Bysant.StatusCode.ofValue? Bysant.StatusCode.unauthorized.toValue = _
  decide

theorem handles_handleIn (secured : s.Secured kind password) (e : Envelope) (g : Gateway) :
    Handles kind password e s g (handleIn e s g) := by
  have unchanged (attempts : Nat) (peerNonce : Option Bytes) :
      s.Continues g { s with attempts, peerNonce } := Session.continues_of_profile (by rfl) (by rfl) g
  have authenticates := secured.authenticate_eq e g
  have judged := Session.judged_judge kind password e { s with peerNonce := none } g
  rw [handleIn, secured.needsNegotiation, if_neg (by decide), authenticates]
  generalize Session.judge kind password e { s with peerNonce := none } g = outcome
    at judged authenticates
  have result := congrArg Outcome.result authenticates
  cases judged with
  | replayed challenges last given => exact .replayed last given result
  | @accepted clear mac opened =>
    dsimp only
    cases decodes : Bysant.decode clear with
    | ok values =>
      rw [answer_eq decodes]
      exact .answered mac opened decodes result
    | error _ =>
      rw [answer_of_error decodes]
      exact .refused (by decide) (unchanged _ _) (Gateway.Quiet.refl g)
  | unreadable mac => exact .refused (by decide) (unchanged _ _) (Gateway.Quiet.refl g)
  | challenged mac few drawn =>
    subst drawn
    have renewed := Session.continues_renewNonce
      { s with attempts := s.attempts + 1, peerNonce := none } g
    have failed : (Session.challengeEnvelope kind
        ({ s with attempts := s.attempts + 1, peerNonce := none }.renewNonce g).result).status? ≠
          some .ok := by
      rw [status?_challengeEnvelope]
      decide
    exact .refused failed ((unchanged _ _).trans (Gateway.Later.refl g) renewed)
      (Session.quiet_renewNonce _ g)
  | lockedOut mac many => exact .refused (by decide) (unchanged _ _) (Gateway.Quiet.refl g)

theorem Handles.leads {handled : Handled} (h : Handles kind password e s g handled) :
    Session.Leads (some s) g handled.session handled.gateway := by
  cases h with
  | answered mac opened decodes judged =>
    refine (Session.leads_some (later_answeredGateway s.clientId _ _ g) ?_).trans
      (leads_respond _ _ _)
    refine Session.continues_of_profile ?_ ?_ g <;> rfl
  | replayed last given judged =>
    refine (Session.leads_some (Gateway.Later.refl g) ?_).trans (leads_respond _ _ _)
    refine Session.continues_of_profile ?_ ?_ g <;> rfl
  | refused failed continues quiet => exact Session.leads_some quiet.toLater continues

/-- A request with the right checksum that brings no nonce is answered in clear. -/
theorem handleIn_of_no_nonce {clear : Bytes} (secured : s.Secured kind password)
    (mac : e.header.bytes? .mac = some (s.requestChecksum kind password e.payload))
    (opened : s.openPayload password e.payload = .ok clear)
    (decodes : Bysant.decode clear = .ok values) (without : e.header.bytes? .nonce = none)
    (g : Gateway) : handleIn e s g = ⟨⟨[answerEnvelope s.clientId values g], false⟩,
      some { s with attempts := 0, peerNonce := none },
      answeredGateway s.clientId clear values g⟩ := by
  have accepted := secured.authenticate_of_mac mac opened (.inr (.inr without)) g
  rw [without] at accepted
  rw [handleIn, secured.needsNegotiation, if_neg (by decide), accepted]
  dsimp only
  rw [answer_eq decodes]
  exact respond_of_none rfl _ _

/-- As no nonce is drawn for the answer, the session accepts the same request again. -/
theorem accepted_again {clear : Bytes} (secured : s.Secured kind password)
    (mac : e.header.bytes? .mac = some (s.requestChecksum kind password e.payload))
    (opened : s.openPayload password e.payload = .ok clear)
    (without : e.header.bytes? .nonce = none) (g : Gateway) :
    (Session.authenticate e { s with attempts := 0, peerNonce := none } g).result =
      .ok (.accepted clear) := by
  have answering : Session.Secured { s with attempts := 0, peerNonce := none } kind password :=
    ⟨secured.authentication, secured.credential⟩
  rw [answering.authenticate_of_mac mac opened (.inr (.inr without))]

/-! ## Any client -/

/-- What a client without a needed password sends is a step of a negotiation, or ends it. -/
theorem handleIn_of_needsNegotiation (needs : s.profile.needsNegotiation = true) (e : Envelope)
    (g : Gateway) : Session.Leads (some s) g (handleIn e s g).session (handleIn e s g).gateway ∧
      g.Quiet (handleIn e s g).gateway := by
  rw [handleIn, if_pos needs]
  cases step : s.negotiate e g with
  | ok outcome =>
    obtain ⟨continues, quiet⟩ := Session.negotiate_spec needs step
    exact ⟨Session.leads_some quiet.toLater continues, quiet⟩
  | error error after left =>
    obtain ⟨rfl, rfl⟩ := Session.unchanged_of_error step
    refine ⟨Session.leads_some (Gateway.Later.refl _) ?_, Gateway.Quiet.refl _⟩
    refine Session.continues_of_profile ?_ ?_ _ <;> rfl

/-- The payload of a client that need not authenticate is taken in as it is. -/
theorem leads_of_unauthenticated (free : s.profile.authentication = none) (e : Envelope)
    (g : Gateway) : Session.Leads (some s) g (handleIn e s g).session (handleIn e s g).gateway := by
  have needs : s.profile.needsNegotiation = false := by
    rw [Security.Profile.needsNegotiation, free]
    rfl
  have accepted : s.authenticate e g =
      ⟨.ok (.accepted e.payload), { s with peerNonce := none }, g⟩ := by
    unfold Session.authenticate
    simp only [free]
  have kept : s.Continues g { s with peerNonce := none } :=
    Session.continues_of_profile (by rfl) (by rfl) g
  rw [handleIn, needs, if_neg (by decide), accepted]
  dsimp only
  cases decodes : Bysant.decode e.payload with
  | ok values =>
    rw [answer_eq decodes]
    exact (Session.leads_some (later_answeredGateway s.clientId _ values g) kept).trans
      (leads_respond _ _ _)
  | error _ =>
    rw [answer_of_error decodes]
    exact Session.leads_some (Gateway.Later.refl g) kept

/-- A client that has to authenticate has a working password or has to negotiate one. -/
theorem exists_secured (authentication : s.profile.authentication = some kind)
    (settled : s.profile.needsNegotiation = false) : ∃ password, s.Secured kind password := by
  unfold Security.Profile.needsNegotiation at settled
  rw [authentication] at settled
  cases held : s.profile.credential with
  | none =>
    rw [held] at settled
    cases settled
  | some password => exact ⟨password, authentication, held⟩

/-- Whatever an envelope comes to, its session goes on. -/
theorem leads_handleIn (e : Envelope) (s : Session) (g : Gateway) :
    Session.Leads (some s) g (handleIn e s g).session (handleIn e s g).gateway := by
  cases needs : s.profile.needsNegotiation with
  | true => exact (handleIn_of_needsNegotiation needs e g).1
  | false =>
    cases authentication : s.profile.authentication with
    | none => exact leads_of_unauthenticated authentication e g
    | some kind =>
      obtain ⟨password, secured⟩ := exists_secured authentication needs
      exact (handles_handleIn secured e g).leads

end Connection

end Telemetry
