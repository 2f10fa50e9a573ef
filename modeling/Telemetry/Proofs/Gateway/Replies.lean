import Telemetry.Proofs.Gateway.Admission
/-!
# Replies are signed and ciphered

A client with a working password that sends a nonce along gets its replies protected: they carry the
next nonce, a checksum under the client's own nonce, and the payload ciphered under it. The nonce is
what asks for this protection. A request with the right checksum that brings none is answered in
clear.
-/

namespace Telemetry

open Bysant (Envelope Value)

open Security (ChecksumKind KeyIv checksum)

/-- A reply protects a response in clear under the nonce of its request. -/
structure Session.Protects (s : Session) (kind : ChecksumKind) (password : String) (nonce : Bytes)
    (clear reply : Envelope) : Prop where
  mac : reply.header.bytes? .mac = some (checksum kind (Bytes.ofString Gateway.serverName)
    (Bytes.ofString password) nonce reply.payload)
  /-- The payload is ciphered if the client uses a cipher. -/
  ciphered : ∀ cipher, s.profile.encryption = some cipher →
    (KeyIv.ofPassword cipher (Bytes.ofString password) nonce).encrypt cipher clear.payload =
      .ok reply.payload
  plain : s.profile.encryption = none → reply.payload = clear.payload

/-- A response in clear to an envelope: the last one, if the client wants it again, or the answer to
the payload. -/
inductive Turn.Responds (t : Turn) (password : String) (s : Session) : Envelope → Prop where
  | again {response : Envelope} (last : s.lastResponse = some response) : Responds t password s response
  | answer {payload : Bytes} {values : List Value}
      (opened : s.openPayload password t.envelope.payload = .ok payload)
      (decodes : Bysant.decode payload = .ok values) :
      Responds t password s (Connection.answerEnvelope s.clientId values t.gateway)

namespace Connection

variable {c : Connection} {s : Session} {kind : ChecksumKind} {password : String} {nonce : Bytes}
  {e response reply : Envelope} {g : Gateway} {t : Turn}

/-- The only thing that is sent in response to a request which brought a nonce protects the
response, and carries the nonce that the session has drawn. -/
theorem respond_protects (secured : s.Secured kind password) (asked : s.peerNonce = some nonce)
    (response : Envelope) (g : Gateway) : ∃ reply after,
      (respond response s g).reaction.writes = [reply] ∧
      (respond response s g).session = some after ∧
      reply.header.bytes? .nonce = some (Bytes.ofString after.profile.nonce) ∧
      s.Protects kind password nonce response reply := by
  obtain ⟨ciphered, sent, responds⟩ := respond_of_some secured asked response g
  rw [responds]
  refine ⟨_, _, rfl, rfl, Session.bytes?_nonce_signedResponse, ?_⟩
  unfold Session.sealPayload at sent
  refine ⟨Bysant.Header.bytes?_insert_self, fun cipher uses => ?_, fun none => ?_⟩
  · rw [uses] at sent
    exact sent
  · rw [none] at sent
    exact (Except.ok.inj sent).symm

/-- If an envelope brings a nonce, whatever is sent back with success protects its response. -/
theorem turn_protects (opened : t.opened = some s) (secured : s.Secured kind password)
    (given : t.envelope.header.bytes? .nonce = some nonce)
    (written : reply ∈ t.handled.reaction.writes) (succeeds : reply.status? = some .ok) :
    ∃ clear after, t.Responds password s clear ∧ t.handled.session = some after ∧
      reply.header.bytes? .nonce = some (Bytes.ofString after.profile.nonce) ∧
      s.Protects kind password nonce clear reply := by
  have handles := handles_handleIn secured t.envelope t.gateway
  rw [← handled_of_opened opened] at handles
  generalize t.handled = handled at handles written ⊢
  cases handles with
  | @answered payload values mac deciphered decodes judged =>
    have accepted : Session.Secured { s with
        attempts := 0, peerNonce := t.envelope.header.bytes? .nonce } kind password :=
      ⟨secured.authentication, secured.credential⟩
    obtain ⟨sent, after, writes, session, fresh, protects⟩ := respond_protects accepted given
      (answerEnvelope s.clientId values t.gateway)
      (answeredGateway s.clientId payload values t.gateway)
    rw [writes] at written
    obtain rfl := List.mem_singleton.mp written
    exact ⟨_, after, .answer deciphered decodes, session, fresh,
      ⟨protects.mac, protects.ciphered, protects.plain⟩⟩
  | @replayed response asked last found judged =>
    obtain rfl : asked = nonce := Option.some.inj (found.symm.trans given)
    have challenged : Session.Secured { s with peerNonce := some asked } kind password :=
      ⟨secured.authentication, secured.credential⟩
    obtain ⟨sent, after, writes, session, fresh, protects⟩ :=
      respond_protects challenged rfl response t.gateway
    rw [writes] at written
    obtain rfl := List.mem_singleton.mp written
    exact ⟨_, after, .again last, session, fresh,
      ⟨protects.mac, protects.ciphered, protects.plain⟩⟩
  | refused failed continues quiet =>
    obtain rfl := List.mem_singleton.mp written
    exact absurd succeeds failed

/-- A connection sends nothing but what it sends in its turns. As long as the client of a turn has a
working password and has sent a nonce along, every envelope with success carries the session's next
nonce and the server's checksum under the client's nonce, and its payload is ciphered if the client
uses a cipher. -/
theorem onBytes_protects (c : Connection) (chunk : Bytes) (g : Gateway) :
    let turns := turnsOf (decode c.decoder chunk).2.1 c.session g
    (c.onBytes chunk g).1.writes = turns.flatMap (fun t => t.handled.reaction.writes) ∧
    ∀ t ∈ turns, ∀ s kind password nonce, t.opened = some s → s.Secured kind password →
      t.envelope.header.bytes? .nonce = some nonce →
      ∀ reply ∈ t.handled.reaction.writes, reply.status? = some .ok →
      ∃ clear after, t.Responds password s clear ∧ t.handled.session = some after ∧
        reply.header.bytes? .nonce = some (Bytes.ofString after.profile.nonce) ∧
        s.Protects kind password nonce clear reply := by
  intro turns
  refine ⟨writes_onBytes c chunk g, ?_⟩
  intro t _ s kind password nonce opened secured given reply written succeeds
  exact turn_protects opened secured given written succeeds

theorem onBytes_protects_report : ∃ reply clear after,
    (reporting ∈ turnsOf (decode (Connection.decoder {}) (Bysant.encodeAll
        [.envelope signedReport])).2.1 none securedGateway ∧
      reporting.opened = some openingSession ∧ openingSession.Secured .md5 "pw" ∧
      reporting.envelope.header.bytes? .nonce = some (Bytes.ofString "device") ∧
      reply ∈ reporting.handled.reaction.writes ∧ reply.status? = some .ok) ∧
    reporting.Responds "pw" openingSession clear ∧ reporting.handled.session = some after ∧
    reply.header.bytes? .nonce = some (Bytes.ofString after.profile.nonce) ∧
    openingSession.Protects .md5 "pw" (Bytes.ofString "device") clear reply := by
  have sound : ∀ e ∈ [signedReport], (Value.envelope e).Sound Bysant.maxDepth := by
    intro e member
    obtain rfl := List.mem_singleton.mp member
    exact sound_signedReport
  obtain ⟨_, decoded⟩ := decode_envelopes sound
  have member : reporting ∈ turnsOf (decode (Connection.decoder {}) (Bysant.encodeAll
      [.envelope signedReport])).2.1 none securedGateway := by
    rw [show decode _ (Bysant.encodeAll [.envelope signedReport]) = _ from decoded]
    exact List.mem_cons_self
  have given : reporting.envelope.header.bytes? .nonce = some (Bytes.ofString "device") :=
    Session.bytes?_nonce_signedRequest
  obtain ⟨reply, _, _, handles, answered⟩ := handled_reporting
  have written : reply ∈ reporting.handled.reaction.writes := by
    rw [handles]
    exact List.mem_singleton_self _
  obtain ⟨clear, after, protects⟩ := (onBytes_protects {} (Bysant.encodeAll
    [.envelope signedReport]) securedGateway).2 reporting member openingSession .md5 "pw"
    (Bytes.ofString "device") opened_reporting secured_openingSession given reply written
    answered.status
  exact ⟨reply, clear, after, ⟨member, opened_reporting, secured_openingSession, given, written,
    answered.status⟩, protects⟩

/-! ## Without a nonce -/

def queuedMessage : Bysant.Message := ⟨"@cmd", none, [("reboot", .bool true)]⟩

/-- A gateway with a message for a client whose payloads are ciphered. -/
def queueingGateway : Gateway :=
  { emptyGateway with
    store :=
      { capacity := 4
        outgoing := [("dev", [queuedMessage])]
        profiles := [("dev", ⟨"dev", some .md5, some .ctr128, "000000", none, some "pw"⟩)] } }

/-- The turn in which a new connection challenges the client. -/
def greeting : Turn := ⟨hello, none, queueingGateway⟩

def queueingSession : Session := greeting.handled.session.getD (.unsecured "")

theorem session_greeting : greeting.handled.session = some queueingSession := by
  have opens : greeting.handled.session.isSome := by decide +kernel
  unfold queueingSession
  obtain ⟨s, opened⟩ := Option.isSome_iff_exists.mp opens
  rw [opened]
  rfl

theorem secured_queueingSession : queueingSession.Secured .md5 "pw" :=
  ⟨by decide +kernel, by decide +kernel⟩

/-- An empty request with the right checksum and without a nonce. -/
def withoutNonce : Envelope :=
  ⟨⟨[(.id, .text "dev"), (.mac, .bytes (queueingSession.requestChecksum .md5 "pw" []))]⟩, [], []⟩

/-- The next turn, in which the connection handles the request. -/
def asking : Turn := ⟨withoutNonce, greeting.handled.session, greeting.handled.gateway⟩

theorem names_withoutNonce : withoutNonce.senderId? = some queueingSession.clientId := by
  decide +kernel

theorem opened_asking : asking.opened = some queueingSession := by
  rw [asking, session_greeting]
  exact opened_of_names names_withoutNonce _

theorem handled_asking : asking.handled =
    ⟨⟨[answerEnvelope queueingSession.clientId [] asking.gateway], false⟩,
      some { queueingSession with attempts := 0, peerNonce := none },
      answeredGateway queueingSession.clientId [] [] asking.gateway⟩ := by
  have deciphered : queueingSession.openPayload "pw" [] = .ok [] := by decide +kernel
  rw [handled_of_opened opened_asking]
  exact handleIn_of_no_nonce secured_queueingSession rfl deciphered decode_nil rfl
    asking.gateway

theorem sound_asking : ∀ e ∈ [hello, withoutNonce], (Value.envelope e).Sound Bysant.maxDepth := by
  have representable : ∀ e ∈ [hello, withoutNonce], (Value.envelope e).Representable := by
    decide +kernel
  have wellFormed : ∀ e ∈ [hello, withoutNonce], (Value.envelope e).WellFormed := by
    decide +kernel
  exact fun e member => Bysant.sound_iff.mpr ⟨representable e member, wellFormed e member⟩

theorem stays_asking : ∀ t ∈ [greeting, asking], t.handled.reaction.close = false := by
  have first : greeting.handled.reaction.close = false := by decide +kernel
  have second : asking.handled.reaction.close = false := by rw [handled_asking]
  simp [first, second]

theorem turns_asking : turnsOf [hello, withoutNonce] none queueingGateway = [greeting, asking] := by
  refine (turnsOf_cons (stays_asking greeting (by simp)) _).trans ?_
  rw [turnsOf_singleton, asking]

/-- The answer goes out without nonce, checksum and cipher, though the client uses one. -/
theorem answered_in_clear : (∃ c left, History [greeting, asking] c left true) ∧
    asking.opened = some queueingSession ∧ queueingSession.Secured .md5 "pw" ∧
    queueingSession.profile.encryption = some .ctr128 ∧
    ∃ reply ∈ asking.handled.reaction.writes, reply.status? = some .ok ∧
      reply.header.contains .nonce = false ∧ reply.header.contains .mac = false ∧
      reply.payload = Bysant.encodeAll [.message queuedMessage] := by
  obtain ⟨c, -, history⟩ := exists_history sound_asking queueingGateway
  rw [stays_handleAll (turns_asking ▸ stays_asking), turns_asking] at history
  refine ⟨⟨c, _, history⟩, opened_asking, secured_queueingSession, by decide +kernel,
    answerEnvelope queueingSession.clientId [] asking.gateway, ?_, by decide +kernel,
    by decide +kernel, by decide +kernel, by decide +kernel⟩
  rw [handled_asking]
  exact List.mem_singleton_self _

end Connection

end Telemetry
