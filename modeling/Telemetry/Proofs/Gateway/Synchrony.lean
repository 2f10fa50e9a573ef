import Telemetry.Proofs.Gateway.Outcomes
/-!
# Session, store and client agree on the nonce

The nonce and the working password of a client are kept in its session and in the store, and the
client learns every new nonce from a header entry of what it is sent. They are changed at three
places, by a challenge, by the signature of a response and by the end of a negotiation, and each of
them brings all holders up to date. So the nonce that was sent last is the one that the next request
has to be made with, in the same session or in one that opens later.
-/

namespace Telemetry

open Bysant (Envelope Header)

open Security (ChecksumKind Entropy KeyIv Profile checksum)

variable {s after judged : Session} {e : Envelope} {g g' left : Gateway}
  {nonce nonce' nonce'' client : String} {written more : List Envelope}

/-! ## What a client is told -/

/-- Whoever held one nonce before these envelopes were sent holds the other one behind them: the one
in the last header that has a nonce, if any. -/
def Tells (nonce : String) (written : List Envelope) (nonce' : String) : Prop :=
  match (written.filter fun e => e.header.contains .nonce).getLast? with
  | some last => last.header.bytes? .nonce = some (Bytes.ofString nonce')
  | none => nonce' = nonce

theorem tells_of_silent (silent : ∀ e ∈ written, e.header.contains .nonce = false) :
    Tells nonce written nonce := by
  have none : (written.filter fun e => e.header.contains .nonce) = [] := by
    rw [List.filter_eq_nil_iff]
    intro e member
    simp [silent e member]
  rw [Tells, none, List.getLast?_nil]

theorem tells_singleton (given : e.header.bytes? .nonce = some (Bytes.ofString nonce')) :
    Tells nonce [e] nonce' := by
  have carries : e.header.contains .nonce = true := by
    unfold Header.bytes? at given
    unfold Header.contains
    cases found : e.header.get? .nonce with
    | none =>
      rw [found] at given
      cases given
    | some value => rfl
  rw [Tells, List.filter_singleton, carries, cond_true, List.getLast?_singleton]
  exact given

/-- The envelopes that are sent later count. -/
theorem Tells.append (first : Tells nonce written nonce') (second : Tells nonce' more nonce'') :
    Tells nonce (written ++ more) nonce'' := by
  unfold Tells at *
  rw [List.filter_append, List.getLast?_append]
  cases last : (more.filter fun e => e.header.contains .nonce).getLast? with
  | some e =>
    rw [last] at second
    exact second
  | none =>
    rw [last] at second
    obtain rfl : nonce'' = nonce' := second
    rw [Option.none_or]
    exact first

namespace Session

/-! ## One step -/

/-- What becomes of a session while envelopes are handled. Nothing but nonce and password changes in
its profile, the same profile is stored, and the client was told the nonce. -/
structure Advances (s : Session) (written : List Envelope) (after : Session) (left : Gateway) :
    Prop where
  client : after.clientId = s.clientId
  stored : left.store.profile? s.clientId = some after.profile
  fields : after.profile =
    { s.profile with nonce := after.profile.nonce, password := after.profile.password }
  told : Tells s.profile.nonce written after.profile.nonce

theorem Advances.trans (first : s.Advances written judged g)
    (second : judged.Advances more after left) : s.Advances (written ++ more) after left where
  client := second.client.trans first.client
  stored := by
    rw [← first.client]
    exact second.stored
  fields := by
    have fields := second.fields
    rw [first.fields] at fields
    exact fields
  told := first.told.append second.told

/-- A session whose profile is stored advances without a word. -/
theorem Mirrors.advances (mirrors : s.Mirrors after)
    (stored : left.store.profile? s.clientId = some s.profile)
    (silent : ∀ e ∈ written, e.header.contains .nonce = false) :
    s.Advances written after left where
  client := mirrors.client
  stored := by rw [mirrors.profile, stored]
  fields := by rw [mirrors.profile]
  told := by
    rw [mirrors.profile]
    exact tells_of_silent silent

/-- A session that opens later has the same profile. -/
theorem Advances.restart (h : s.Advances written after left) :
    s.Advances written (.start left.store s.clientId) left := by
  have again : (start left.store s.clientId).profile = after.profile := by
    rw [start, h.stored, Option.getD_some]
  refine ⟨rfl, ?_, ?_, ?_⟩
  · rw [again, h.stored]
  · rw [again]
    exact h.fields
  · rw [again]
    exact h.told

/-- A new nonce is stored and told. -/
theorem Mirrors.renews (mirrors : s.Mirrors judged)
    (stored : g.store.profile? s.clientId = some s.profile)
    (given : e.header.bytes? .nonce = some (Bytes.ofString (judged.renewNonce g).result)) :
    s.Advances [e] (judged.renewNonce g).session (judged.renewNonce g).gateway where
  client := mirrors.client
  stored := by
    rw [← mirrors.client, ← mirrors.profile] at stored
    rw [← mirrors.client]
    exact Store.profile?_setNonce stored (g.drawNonce).1
  fields := by
    rw [← mirrors.profile]
    rfl
  told := tells_singleton given

/-- The envelopes of a negotiation carry no nonce. -/
theorem silent_negotiate {outcome : Outcome (Option Envelope)}
    (step : s.negotiate e g = .ok outcome) :
    ∀ reply ∈ outcome.result.toList, reply.header.contains .nonce = false := by
  intro reply written
  unfold negotiate at step
  split at step
  · unfold offerKey at step
    split at step
    · cases step
    · split at step
      · cases step
      · obtain rfl := NegotiationStep.ok.inj step
        obtain rfl := List.mem_singleton.mp written
        rfl
  · unfold offerPassword at step
    split at step
    · cases step
    · dsimp only at step
      split at step
      · cases step
      · obtain rfl := NegotiationStep.ok.inj step
        obtain rfl := List.mem_singleton.mp written
        rfl
  · unfold commitPassword at step
    split at step
    · cases step
    · obtain rfl := NegotiationStep.ok.inj step
      cases written
  · cases step

/-- A round of a negotiation does not speak of nonces, and its last one stores the password. -/
theorem advances_negotiate {outcome : Outcome (Option Envelope)}
    (stored : g.store.profile? s.clientId = some s.profile)
    (step : s.negotiate e g = .ok outcome) :
    s.Advances outcome.result.toList outcome.session outcome.gateway := by
  have silent := silent_negotiate step
  obtain ⟨client, ⟨profile, same⟩ | ⟨password, profile, renewed⟩⟩ := store_negotiate step
  · exact Mirrors.advances ⟨client, profile⟩ (by rw [same, stored]) silent
  · refine ⟨client, ?_, by rw [profile], ?_⟩
    · rw [renewed, Store.setPassword, Store.profile?_updateProfile, stored, Option.map_some,
        if_pos rfl, profile]
    · rw [profile]
      exact tells_of_silent silent

end Session

namespace Connection

/-- A response that is signed brings the next nonce. -/
theorem advances_signed {kind : ChecksumKind} {password : String} {peerNonce : Bytes}
    (mirrors : s.Mirrors judged) (stored : g.store.profile? s.clientId = some s.profile)
    (secured : judged.Secured kind password) (asked : judged.peerNonce = some peerNonce)
    (response : Envelope) : ∃ after, (respond response judged g).session = some after ∧
      s.Advances (respond response judged g).reaction.writes after
        (respond response judged g).gateway := by
  obtain ⟨ciphered, -, responds⟩ := respond_of_some secured asked response g
  have signing : s.Mirrors { judged with peerNonce := none, lastResponse := some response } :=
    ⟨mirrors.client, mirrors.profile⟩
  rw [responds]
  exact ⟨_, rfl, signing.renews stored Session.bytes?_nonce_signedResponse⟩

/-- An answer brings the next nonce, or none if it goes out in clear. -/
theorem advances_answer (mirrors : s.Mirrors judged)
    (stored : g.store.profile? s.clientId = some s.profile) (ready : judged.Ready)
    {response : Envelope} (silent : response.header.contains .nonce = false) :
    ∃ after, (respond response judged g).session = some after ∧
      s.Advances (respond response judged g).reaction.writes after
        (respond response judged g).gateway := by
  rcases ready with unasked | ⟨kind, password, peerNonce, secured, asked⟩
  · rw [respond_of_none unasked]
    exact ⟨judged, rfl, mirrors.advances stored (by simpa using silent)⟩
  · exact advances_signed mirrors stored secured asked response

/-- A session whose profile is stored advances whatever an envelope comes to. -/
theorem Settles.advances {handled : Handled} (h : Settles e s g handled)
    (stored : g.store.profile? s.clientId = some s.profile) : ∃ after,
      handled.session = some after ∧ s.Advances handled.reaction.writes after handled.gateway := by
  cases h with
  | negotiated needs step => exact ⟨_, rfl, Session.advances_negotiate stored step⟩
  | refused retains blames =>
    exact ⟨_, rfl, retains.advances stored (List.forall_mem_singleton.mpr rfl)⟩
  | challenged retains drawn =>
    subst drawn
    exact ⟨_, rfl, retains.renews stored rfl⟩
  | replayed retains secured asked last =>
    exact advances_signed retains.toMirrors stored secured asked _
  | answered retains ready =>
    refine advances_answer retains.toMirrors ?_ ready rfl
    rwa [Store.profile?, profiles_answeredGateway]

/-! ## A run -/

/-- What a client was sent over a connection, and over those it had before, while its profile was
changed by nobody else. The connection is fed chunks of any bytes, and the gateway may become another
one in between. -/
inductive Owns (client : String) (p : Profile) : List Envelope → Connection → Gateway → Prop where
  | created {g : Gateway} (stored : g.store.profile? client = some p) : Owns client p [] {} g
  | fed {written : List Envelope} {c : Connection} {g : Gateway} (owns : Owns client p written c g)
      (chunk : Bytes) : Owns client p (written ++ (c.onBytes chunk g).1.writes)
        (c.onBytes chunk g).2.1 (c.onBytes chunk g).2.2
  | meanwhile {written : List Envelope} {c : Connection} {g g' : Gateway}
      (owns : Owns client p written c g)
      (same : g'.store.profile? client = g.store.profile? client) : Owns client p written c g'
  /-- The client connects anew. -/
  | reconnected {written : List Envelope} {c : Connection} {g : Gateway}
      (owns : Owns client p written c g) (own : ∀ s, c.session = some s → s.clientId = client) :
      Owns client p written {} g

variable {p : Profile} {c : Connection} {session : Option Session}

/-- The session of this client, which may be yet to open, has advanced from one with the profile. -/
def InStep (client : String) (p : Profile) (written : List Envelope) (session : Option Session)
    (g : Gateway) : Prop :=
  let first : Session := { clientId := client, profile := p }
  match session with
  | none => first.Advances written (.start g.store client) g
  | some s => s.clientId = client → first.Advances written s g

theorem InStep.handle (inStep : InStep client p written session g) (e : Envelope) :
    InStep client p (written ++ (handle e session g).reaction.writes) (handle e session g).session
      (handle e session g).gateway := by
  cases found : sessionFor e session g with
  | none =>
    rw [Connection.handle, found, List.append_nil]
    exact inStep
  | some s =>
    obtain ⟨reached, opened, continues⟩ := (leads_of_sessionFor found).continues s rfl
    have handles : Connection.handle e session g = handleIn e s g := by
      rw [Connection.handle, found]
    rw [handles] at opened ⊢
    rw [opened]
    intro own
    have own : s.clientId = client := continues.client.symm.trans own
    have before : Session.Advances { clientId := client, profile := p } written s g := by
      cases session with
      | some current =>
        obtain rfl := eq_of_sessionFor found
        exact inStep own
      | none =>
        rw [eq_start_of_sessionFor found, own]
        exact inStep
    have stored : g.store.profile? s.clientId = some s.profile := by
      rw [own]
      exact before.stored
    obtain ⟨after, same, advances⟩ := (settles_handleIn e s g).advances stored
    obtain rfl := Option.some.inj (opened.symm.trans same)
    exact before.trans advances

theorem Owns.inStep (owns : Owns client p written c g) : InStep client p written c.session g := by
  induction owns with
  | @created g stored =>
    have mirrors : Session.Mirrors { clientId := client, profile := p } (.start g.store client) := by
      refine ⟨rfl, ?_⟩
      rw [Session.start, stored, Option.getD_some]
    exact mirrors.advances stored (List.forall_mem_nil _)
  | fed owns chunk ih =>
    exact keeps_onBytes (P := InStep client p) (fun e _ _ _ before => before.handle e) ih chunk
  | @meanwhile written c g g' owns same ih =>
    cases session : c.session with
    | none =>
      rw [session] at ih
      have advances : Session.Advances _ written (.start g.store client) g := ih
      have again : Session.start g'.store client = .start g.store client := by
        rw [Session.start, same, Session.start]
      unfold InStep
      rw [again]
      exact { advances with stored := same.trans advances.stored }
    | some s =>
      rw [session] at ih
      intro own
      have advances := ih own
      exact { advances with stored := same.trans advances.stored }
  | @reconnected written c g owns own ih =>
    cases session : c.session with
    | none =>
      rw [session] at ih
      exact ih
    | some s =>
      rw [session] at ih
      exact (ih (own s session)).restart

end Connection

/-! ## The next request -/

namespace Session

/-- A session accepts what its device signs under a nonce, and whatever it accepts was signed under
this nonce with the working password and is deciphered by them. -/
structure JudgesUnder (s : Session) (nonce : Bytes) : Prop where
  accepts : ∀ kind password, s.Secured kind password →
    ∀ (request : Envelope) (entropy : Entropy) (g : Gateway),
      request.header.contains .challenge = false → ∃ signed peerNonce rest after,
        (s.device kind password).signRequest request nonce entropy =
          (.ok (signed, peerNonce), rest) ∧
        s.authenticate signed g = ⟨.ok (.accepted request.payload), after, g⟩
  verifies : ∀ kind password, s.Secured kind password →
    ∀ (e : Envelope) (g : Gateway) (clear : Bytes),
      (s.authenticate e g).result = .ok (.accepted clear) →
        e.header.bytes? .mac = some (checksum kind (Bytes.ofString s.clientId)
          (Bytes.ofString password) nonce e.payload) ∧
        (s.device kind password).openPayload nonce e.payload = .ok clear

theorem judgesUnder (s : Session) : s.JudgesUnder (Bytes.ofString s.profile.nonce) where
  accepts _ _ secured _ entropy g unchallenged :=
    accepts_signRequest secured (.inl unchallenged) entropy g
  verifies kind password secured e g clear accepted := by
    obtain ⟨mac, opened⟩ := secured.of_accepted accepted
    refine ⟨mac, ?_⟩
    unfold openPayload at opened
    unfold Credentials.openPayload device Credentials.ofPassword
    cases encryption : s.profile.encryption with
    | none =>
      rw [encryption] at opened
      exact congrArg Except.ok (Except.ok.inj opened)
    | some cipher =>
      rw [encryption] at opened
      dsimp only at opened ⊢
      rw [show KeyIv.ofDigest cipher _ _ = KeyIv.ofPassword cipher _ _ from rfl, opened]
      rfl

end Session

namespace Connection

variable {p : Profile} {c : Connection}

/-- As long as nobody else changes the profile of a client, however often it connects anew: behind
every chunk, the profile in its session is the one that is stored; it differs from the first one in
nonce and password at most; and its nonce is the one that the client was told last. It is the nonce
by which the next request is judged, in this session and in one that opens when the client comes
back. -/
theorem Owns.synchronized (owns : Owns client p written c g) (opened : c.session = some s)
    (own : s.clientId = client) :
    g.store.profile? client = some s.profile ∧
      s.profile = { p with nonce := s.profile.nonce, password := s.profile.password } ∧
      Tells p.nonce written s.profile.nonce ∧
      (Session.start g.store client).profile = s.profile ∧
      ∀ current, current = s ∨ current = .start g.store client →
        current.JudgesUnder (Bytes.ofString s.profile.nonce) := by
  have inStep := owns.inStep
  rw [opened] at inStep
  have advances := inStep own
  have stored : g.store.profile? client = some s.profile := advances.stored
  have again : (Session.start g.store client).profile = s.profile := by
    rw [Session.start, stored, Option.getD_some]
  refine ⟨stored, advances.fields, advances.told, again, ?_⟩
  rintro current (rfl | rfl)
  · exact current.judgesUnder
  · rw [← again]
    exact (Session.start g.store client).judgesUnder

/-- A client that was challenged is expected to use the nonce of the challenge. -/
theorem synchronized_hello : ∃ c challenge g,
    (Owns "dev" openingSession.profile [challenge] c g ∧ c.session = some challengedSession ∧
      challengedSession.clientId = "dev") ∧
    challenge.header.bytes? .nonce = some (Bytes.ofString challengedSession.profile.nonce) ∧
    challengedSession.profile.nonce ≠ openingSession.profile.nonce ∧
    (Session.start g.store "dev").profile = challengedSession.profile ∧
    (Session.start g.store "dev").JudgesUnder (Bytes.ofString challengedSession.profile.nonce) := by
  obtain ⟨c, fed, -, -, session⟩ :=
    Reachable.created.onBytes_encode rfl sound_hello rfl stays_hello
  have opened : c.session = some challengedSession := session.trans session_hello
  obtain ⟨challenge, written⟩ : ∃ challenge,
      (handle hello none securedGateway).reaction.writes = [challenge] :=
    List.length_eq_one_iff.mp (by decide +kernel)
  have stored : securedGateway.store.profile? "dev" = some openingSession.profile := by rfl
  have owns := (Owns.created stored).fed hello.encode
  rw [fed, List.nil_append] at owns
  rw [written] at owns
  have own : challengedSession.clientId = "dev" := by decide +kernel
  have different : challengedSession.profile.nonce ≠ openingSession.profile.nonce := by
    decide +kernel
  obtain ⟨-, -, told, again, judges⟩ := owns.synchronized opened own
  refine ⟨c, challenge, _, ⟨owns, opened, own⟩, ?_, different, again, judges _ (.inr rfl)⟩
  -- the nonce has changed, so that the challenge must have told it
  unfold Tells at told
  split at told
  · rename_i last found
    have member := List.mem_of_getLast? found
    obtain rfl := List.mem_singleton.mp (List.mem_filter.mp member).1
    exact told
  · exact absurd told different

end Connection

end Telemetry
