import Telemetry.Proofs.Gateway.Replies
/-!
# A request is accepted once

The nonce under which a request was accepted gives way to a new one when the reply is signed, which
is the case if the request brought a nonce of its own. From then on the session only has nonces that
are drawn later, so that the same request cannot be accepted again, unless a nonce or a checksum
comes twice.
-/

namespace Telemetry

open Bysant (Envelope Value)

open Security (ChecksumKind)

namespace Connection

variable {front back : List Turn} {c : Connection} {s s' : Session} {kind : ChecksumKind}
  {password : String} {nonce clear : Bytes} {e response reply : Envelope} {g g' : Gateway} {t : Turn}
  {stays : Bool}

/-- A session of a client has moved on to the next nonce of a gateway, and the nonce is stored. -/
structure Renews (client : String) (before : Gateway) (after : Session) (left : Gateway) : Prop where
  nonce : after.profile.nonce = before.drawNonce.1
  drawn : left.entropy = before.drawNonce.2.entropy
  stored : ∃ p, left.store.profile? client = some p ∧ p.nonce = after.profile.nonce

theorem renews_renewNonce (known : (g.store.profile? s.clientId).isSome) :
    Renews s.clientId g (s.renewNonce g).session (s.renewNonce g).gateway := by
  obtain ⟨p, stored⟩ := Option.isSome_iff_exists.mp known
  exact ⟨rfl, rfl, _, Store.profile?_setNonce stored g.drawNonce.1, rfl⟩

/-- The reply to a request which brought a nonce consumes the session's nonce. -/
theorem respond_renews (secured : s.Secured kind password) (asked : s.peerNonce = some nonce)
    (known : (g.store.profile? s.clientId).isSome) (response : Envelope) : ∃ after,
      (respond response s g).session = some after ∧
      Renews s.clientId g after (respond response s g).gateway := by
  obtain ⟨ciphered, -, responds⟩ := respond_of_some secured asked response g
  rw [responds]
  have renews := renews_renewNonce
    (s := { s with peerNonce := none, lastResponse := some response }) known
  exact ⟨_, rfl, renews⟩

/-- A request that is accepted, answered with success, and brought a nonce consumes the session's
nonce. -/
theorem turn_renews (opened : t.opened = some s) (secured : s.Secured kind password)
    (known : (t.gateway.store.profile? s.clientId).isSome)
    (accepted : (s.authenticate t.envelope t.gateway).result = .ok (.accepted clear))
    (given : t.envelope.header.bytes? .nonce = some nonce)
    (written : reply ∈ t.handled.reaction.writes) (succeeds : reply.status? = some .ok) :
    ∃ after, t.handled.session = some after ∧
      Renews s.clientId t.gateway after t.handled.gateway := by
  have handles := handles_handleIn secured t.envelope t.gateway
  rw [← handled_of_opened opened] at handles
  generalize t.handled = handled at handles written ⊢
  cases handles with
  | @answered payload values mac deciphered decodes judged =>
    have ready : Session.Secured { s with
        attempts := 0, peerNonce := t.envelope.header.bytes? .nonce } kind password :=
      ⟨secured.authentication, secured.credential⟩
    have stays : ((answeredGateway s.clientId payload values t.gateway).store.profile?
        s.clientId).isSome := by
      rwa [Store.profile?, profiles_answeredGateway]
    obtain ⟨after, session, renews⟩ := respond_renews ready given stays
      (answerEnvelope s.clientId values t.gateway)
    -- the answer has drawn nothing
    have entropy := entropy_answeredGateway s.clientId payload values t.gateway
    refine ⟨after, session, renews.nonce.trans ?_, renews.drawn.trans ?_, renews.stored⟩
    · rw [Gateway.drawNonce, entropy]
      rfl
    · rw [Gateway.drawNonce, entropy]
      rfl
  | replayed last found judged =>
    rw [accepted] at judged
    cases judged
  | refused failed continues quiet =>
    obtain rfl := List.mem_singleton.mp written
    exact absurd succeeds failed

/-! ## The same request again -/

/-- A request that was accepted under one nonce is not accepted under another, unless the checksums
collide. -/
theorem not_accepted_of_ne (secured : s.Secured kind password)
    (accepted : (s.authenticate e g).result = .ok (.accepted clear))
    (secured' : s'.Secured kind password) (different : s'.profile.nonce ≠ s.profile.nonce)
    (collisionFree : s'.requestChecksum kind password e.payload =
      s.requestChecksum kind password e.payload → s'.profile.nonce = s.profile.nonce) :
    ∀ clear, (s'.authenticate e g').result ≠ .ok (.accepted clear) := by
  intro clear again
  have mac := (secured.of_accepted accepted).1
  have mac' := (secured'.of_accepted again).1
  exact different (collisionFree (Option.some.inj (mac'.symm.trans mac)))

theorem session_of_opened (opened : t.opened = some s') (current : t.session = some s) :
    s' = s := by
  unfold Turn.opened at opened
  rw [current] at opened
  exact eq_of_sessionFor opened

/-- Over the history of a connection, a request that is accepted, answered with success, and brought
a nonce is accepted once: the session moves on to a newly drawn nonce, which is stored, and in every
later turn its nonce is one that was drawn since. The same request is not accepted then, as long as
this nonce differs from the old one and the two do not give the same checksum. -/
theorem History.accepted_once (history : History (front ++ t :: back) c g stays)
    (opened : t.opened = some s) (secured : s.Secured kind password)
    (accepted : (s.authenticate t.envelope t.gateway).result = .ok (.accepted clear))
    (given : t.envelope.header.bytes? .nonce = some nonce)
    (written : reply ∈ t.handled.reaction.writes) (succeeds : reply.status? = some .ok) :
    (∃ after, t.handled.session = some after ∧
      Renews s.clientId t.gateway after t.handled.gateway) ∧
    ∀ later ∈ back, later.envelope = t.envelope → ∀ s', later.opened = some s' →
      t.gateway.Draws s'.profile.nonce ∧
      (s'.profile.nonce ≠ s.profile.nonce →
        (s'.requestChecksum kind password t.envelope.payload =
          s.requestChecksum kind password t.envelope.payload →
            s'.profile.nonce = s.profile.nonce) →
        ∀ clear, (s'.authenticate later.envelope later.gateway).result ≠ .ok (.accepted clear)) := by
  have orderly := history.orderly
  have member : t ∈ front ++ t :: back := List.mem_append_right _ List.mem_cons_self
  have authenticates : s.profile.authentication.isSome := by
    rw [secured.authentication]
    rfl
  have known := (orderly.knew t member).opened opened s rfl authenticates
  obtain ⟨after, session, renews⟩ :=
    turn_renews opened secured known accepted given written succeeds
  refine ⟨⟨after, session, renews⟩, fun later behind same s' opened' => ?_⟩
  -- the session in the later turn continues the one after the request
  have reaches := leads_of_sessionFor opened
  obtain ⟨_, session', kept⟩ := reaches.continues s rfl
  obtain rfl := Option.some.inj (session.symm.trans session')
  have ordered := (List.pairwise_append.mp orderly.ordered).2.1
  have leads := (List.pairwise_cons.mp ordered).1 later behind
  obtain ⟨current, session'', continues⟩ := leads.continues after session
  obtain rfl := session_of_opened opened' session''
  have draws : t.gateway.Draws s'.profile.nonce := by
    rcases continues.nonce with unchanged | drawn
    · rw [unchanged, renews.nonce]
      exact Gateway.draws_drawNonce t.gateway
    · exact reaches.later.draws drawn
  refine ⟨draws, fun different collisionFree => ?_⟩
  rw [same]
  exact not_accepted_of_ne secured accepted (continues.secured (kept.secured secured)) different
    collisionFree

/-- The turn in which the report of a known client arrives again. -/
def repeating : Turn := ⟨signedReport, reporting.handled.session, reporting.handled.gateway⟩

theorem history_repeating : ∃ c left stays, History [reporting, repeating] c left stays := by
  have sound : ∀ e ∈ [signedReport, signedReport], (Value.envelope e).Sound Bysant.maxDepth := by
    intro e member
    obtain rfl : e = signedReport := by simpa using member
    exact sound_signedReport
  obtain ⟨reply, after, left, handles, -⟩ := handled_reporting
  have stays : reporting.handled.reaction.close = false :=
    congrArg (fun handled => handled.reaction.close) handles
  obtain ⟨c, -, history⟩ := exists_history sound securedGateway
  have turns : turnsOf [signedReport, signedReport] none securedGateway =
      [reporting, repeating] := by
    refine (turnsOf_cons stays _).trans ?_
    rw [turnsOf_singleton, repeating]
  rw [turns] at history
  exact ⟨c, _, _, history⟩

theorem accepted_once_reporting : ∃ c left stays reply after,
    (History ([] ++ reporting :: [repeating]) c left stays ∧
      reporting.opened = some openingSession ∧ openingSession.Secured .md5 "pw" ∧
      (openingSession.authenticate reporting.envelope reporting.gateway).result =
        .ok (.accepted report.payload) ∧
      reporting.envelope.header.bytes? .nonce = some (Bytes.ofString "device") ∧
      reply ∈ reporting.handled.reaction.writes ∧ reply.status? = some .ok) ∧
    Renews "dev" securedGateway after reporting.handled.gateway ∧
    repeating.opened = some after ∧
    ∀ clear, (after.authenticate signedReport repeating.gateway).result ≠
      .ok (.accepted clear) := by
  obtain ⟨c, left, stays, history⟩ := history_repeating
  obtain ⟨reply, _, _, handles, answered⟩ := handled_reporting
  have written : reply ∈ reporting.handled.reaction.writes := by
    rw [handles]
    exact List.mem_singleton_self _
  have given : reporting.envelope.header.bytes? .nonce = some (Bytes.ofString "device") :=
    Session.bytes?_nonce_signedRequest
  have accepted : (openingSession.authenticate reporting.envelope reporting.gateway).result =
      .ok (.accepted report.payload) :=
    congrArg Outcome.result (Session.authenticate_signedRequest secured_openingSession
      (.inr rfl) openPayload_sealedReport securedGateway)
  have history : History ([] ++ reporting :: [repeating]) c left stays := history
  obtain ⟨⟨after, session, renews⟩, others⟩ := history.accepted_once
    opened_reporting secured_openingSession accepted given written answered.status
  obtain ⟨_, same, kept⟩ := (leads_of_sessionFor opened_reporting).continues openingSession rfl
  obtain rfl := Option.some.inj (session.symm.trans same)
  have opened : repeating.opened = some after := by
    rw [repeating, session]
    refine opened_of_names ?_ _
    rw [senderId?_signedReport, kept.client]
    rfl
  have different : after.profile.nonce ≠ openingSession.profile.nonce := by
    rw [renews.nonce]
    decide +kernel
  have collisionFree : after.requestChecksum .md5 "pw" reporting.envelope.payload =
      openingSession.requestChecksum .md5 "pw" reporting.envelope.payload →
        after.profile.nonce = openingSession.profile.nonce := by
    intro collides
    unfold Session.requestChecksum at collides
    rw [kept.client, renews.nonce] at collides
    exact absurd collides (by decide +kernel)
  have same : repeating.envelope = signedReport := rfl
  obtain ⟨-, refuses⟩ := others repeating (List.mem_singleton_self _) same after opened
  exact ⟨c, left, stays, reply, after, ⟨history, opened_reporting, secured_openingSession, accepted,
    given, written, answered.status⟩, renews, opened, refuses different collisionFree⟩

/-! ## Without a nonce -/

/-- The turn in which the request without a nonce arrives again. -/
def askingAgain : Turn := ⟨withoutNonce, asking.handled.session, asking.handled.gateway⟩

/-- A request without a nonce that is answered with success is accepted once more: no nonce is drawn
for its reply. -/
theorem accepted_twice : (∃ c left stays, History [greeting, asking, askingAgain] c left stays) ∧
    asking.opened = some queueingSession ∧ queueingSession.Secured .md5 "pw" ∧
    (queueingSession.authenticate withoutNonce asking.gateway).result = .ok (.accepted []) ∧
    (∃ reply ∈ asking.handled.reaction.writes, reply.status? = some .ok) ∧
    ∃ after, asking.handled.session = some after ∧
      after.profile.nonce = queueingSession.profile.nonce ∧
      asking.handled.gateway.entropy.used = asking.gateway.entropy.used ∧
      askingAgain.opened = some after ∧
      (after.authenticate withoutNonce askingAgain.gateway).result = .ok (.accepted []) := by
  have sound : ∀ e ∈ [hello, withoutNonce, withoutNonce],
      (Value.envelope e).Sound Bysant.maxDepth := by
    intro e member
    exact sound_asking e (by simpa using member)
  obtain ⟨c, -, history⟩ := exists_history sound queueingGateway
  have turns : turnsOf [hello, withoutNonce, withoutNonce] none queueingGateway =
      [greeting, asking, askingAgain] := by
    have first := stays_asking greeting (by simp)
    have second := stays_asking asking (by simp)
    refine (turnsOf_cons first _).trans (congrArg _ ((turnsOf_cons second _).trans ?_))
    rw [turnsOf_singleton, askingAgain]
  rw [turns] at history
  have deciphered : queueingSession.openPayload "pw" withoutNonce.payload = .ok [] := by
    decide +kernel
  have accepted := secured_queueingSession.authenticate_of_mac rfl deciphered (.inr (.inr rfl))
    asking.gateway
  have again := accepted_again secured_queueingSession rfl deciphered rfl askingAgain.gateway
  have opened : askingAgain.opened =
      some { queueingSession with attempts := 0, peerNonce := none } := by
    rw [askingAgain, handled_asking]
    exact opened_of_names (s := { queueingSession with attempts := 0, peerNonce := none })
      names_withoutNonce _
  have replied : answerEnvelope queueingSession.clientId [] asking.gateway ∈
      asking.handled.reaction.writes := by
    rw [handled_asking]
    exact List.mem_singleton_self _
  have entropy : asking.handled.gateway.entropy = asking.gateway.entropy := by
    rw [handled_asking]
    exact entropy_answeredGateway _ _ _ _
  refine ⟨⟨c, _, _, history⟩, opened_asking, secured_queueingSession,
    congrArg Outcome.result accepted, ⟨_, replied, by decide +kernel⟩, _, ?_, ?_,
    congrArg Security.Entropy.used entropy, opened, again⟩
  · rw [handled_asking]
  · rfl

end Connection

end Telemetry
