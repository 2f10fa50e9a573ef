import Telemetry.Proofs.Gateway.Outcomes
/-!
# The last response, again and again

A device that has missed a response, or could not read it, challenges the server, which then sends
its last response once more. The response is kept in clear and signed anew for every challenge, so
that the server may be challenged any number of times: each reply opens to the same payload under the
nonce of its own challenge, and nothing but the nonces moves on.
-/

namespace Telemetry

open Bysant (Envelope StatusCode Value encodeAll maxDepth maxLength)

open Security (ChecksumKind)

namespace Connection

variable {c : Connection} {s session : Session} {kind : ChecksumKind} {password client : String}
  {e response : Envelope} {nonce : Bytes} {g : Gateway}

/-! ## One challenge -/

/-- An envelope by which a device challenges the server, with the nonce that it brings. Before it
arrives, others may have used the gateway. -/
structure Challenge where
  others : Gateway → Gateway
  envelope : Envelope
  nonce : Bytes

/-- The challenge keeps to the limits of the format, and names this client if it names any. -/
structure Challenge.Proper (x : Challenge) (client : String) : Prop where
  sound : (Value.envelope x.envelope).Sound maxDepth
  names : ∀ sender, x.envelope.senderId? = some sender → sender = client
  challenges : x.envelope.header.contains .challenge = true
  given : x.envelope.header.bytes? .nonce = some x.nonce

/-- What a challenge comes to: the gateways in front of it and behind it, and what is sent. -/
structure Moment where
  found : Gateway
  reaction : Reaction
  left : Gateway

/-- A challenge has brought the device that owns these credentials a response. -/
structure Replayed (device : Credentials) (response : Envelope) (x : Challenge) (m : Moment)
    (reply : Envelope) : Prop where
  reaction : m.reaction = ⟨[reply], false⟩
  status : reply.status? = response.status?
  /-- The device verifies the reply under its own nonce, and gets the payload in clear. -/
  opened : device.openResponse reply x.nonce = .ok response.payload
  /-- The device can read the reply, if it is not too long. -/
  read : reply.payload.length ≤ maxLength → Bysant.decode reply.encode = .ok [.envelope reply]
  /-- The reply brings the nonce that the gateway has drawn for it. -/
  next : reply.header.bytes? .nonce = some (Bytes.ofString m.found.drawNonce.1)
  drawn : m.left.entropy = m.found.drawNonce.2.entropy
  /-- No data comes in, and no message is taken from a queue. -/
  quiet : m.found.Quiet m.left

/-- What is left of a session behind a challenge. -/
structure Holds (s : Session) (kind : ChecksumKind) (password : String) (response : Envelope)
    (session : Session) : Prop where
  client : session.clientId = s.clientId
  device : session.device kind password = s.device kind password
  last : session.lastResponse = some response
  attempts : session.attempts = s.attempts

/-- A challenge is not judged by its checksum. -/
theorem handleIn_of_challenge (secured : s.Secured kind password)
    (last : s.lastResponse = some response) (challenges : e.header.contains .challenge = true)
    (given : e.header.bytes? .nonce = some nonce) (g : Gateway) :
    handleIn e s g = respond response { s with peerNonce := some nonce } g := by
  have judged : Session.judge kind password e { s with peerNonce := none } g =
      ⟨.replay response, { s with peerNonce := some nonce }, g⟩ := by
    simp only [Session.judge, challenges, last, given]
  rw [handleIn, secured.needsNegotiation, if_neg (by decide), secured.authenticate_eq e g, judged]

theorem handle_challenge (secured : s.Secured kind password) (keeps : s.KeepsAnswer)
    (last : s.lastResponse = some response) {x : Challenge} (proper : x.Proper s.clientId)
    (g : Gateway) : ∃ reply session left,
      handle x.envelope (some s) g = ⟨⟨[reply], false⟩, some session, left⟩ ∧
      Replayed (s.device kind password) response x ⟨g, ⟨[reply], false⟩, left⟩ reply ∧
      session.Secured kind password ∧ Holds s kind password response session := by
  have own : sessionFor x.envelope (some s) g = some s := by
    unfold sessionFor
    cases names : x.envelope.senderId? with
    | none => rfl
    | some sender => exact if_pos (proper.names sender names)
  have asked : Session.Secured { s with peerNonce := some x.nonce } kind password :=
    ⟨secured.authentication, secured.credential⟩
  obtain ⟨ciphered, opened, signs⟩ := Session.signResponse_eq asked rfl response g
  have responds : handle x.envelope (some s) g =
      respond response { s with peerNonce := some x.nonce } g := by
    rw [handle, own]
    exact handleIn_of_challenge secured last proper.challenges proper.given g
  rw [respond, signs] at responds
  refine ⟨_, _, _, responds, ?_, ⟨secured.authentication, secured.credential⟩, ⟨rfl, rfl, rfl, rfl⟩⟩
  have quiet := Session.quiet_renewNonce
    { s with peerNonce := none, lastResponse := some response } g
  -- the form of the response matters to its encoding only
  obtain ⟨payload, rfl⟩ := keeps response last
  exact {
    reaction := rfl
    status := Session.status?_signedResponse
    opened := Session.openResponse_signedResponse opened
    read := fun fits => Session.decode_signedResponse kind password x.nonce payload
      ((Nat.le_of_eq (length_drawNonce _)).trans (by decide)) fits
    next := Session.bytes?_nonce_signedResponse
    drawn := rfl
    quiet := quiet }

/-- A connection that waits for a device whose last response is kept sends it once more, and waits
for the same device again. -/
theorem Awaits.replay (awaits : c.Awaits s kind password) (last : s.lastResponse = some response)
    {x : Challenge} (proper : x.Proper s.clientId) (g : Gateway) : ∃ reply after session left,
      c.onBytes x.envelope.encode g = (⟨[reply], false⟩, after, left) ∧
      Replayed (s.device kind password) response x ⟨g, ⟨[reply], false⟩, left⟩ reply ∧
      after.Awaits session kind password ∧ Holds s kind password response session := by
  have keeps := awaits.reachable.isFed.keepsAnswer s awaits.session
  obtain ⟨reply, session, left, handles, replayed, secured, holds⟩ :=
    handle_challenge awaits.secured keeps last proper g
  rw [← awaits.session] at handles
  obtain ⟨after, fed, reachable, whole, same⟩ :=
    awaits.reachable.onBytes_encode awaits.whole proper.sound handles rfl
  exact ⟨reply, after, session, left, fed, replayed, ⟨reachable, whole, same, secured⟩, holds⟩

/-! ## Any number of challenges -/

/-- Feeds challenges one after the other. Gives what each of them comes to. -/
def challengeAll : List Challenge → Connection → Gateway → List Moment × Connection × Gateway
  | [], c, g => ([], c, g)
  | x :: rest, c, g =>
    let found := x.others g
    let (reaction, after, left) := c.onBytes x.envelope.encode found
    let (moments, last, final) := challengeAll rest after left
    (⟨found, reaction, left⟩ :: moments, last, final)

theorem Holds.trans {s' s'' : Session} (first : Holds s kind password response s')
    (second : Holds s' kind password response s'') : Holds s kind password response s'' where
  client := second.client.trans first.client
  device := second.device.trans first.device
  last := second.last
  attempts := second.attempts.trans first.attempts

/-- However often a device challenges the server, whatever nonces it uses and whatever others do to
the gateway in between: every time it gets one envelope with the status of the last response, which
opens to the payload of that response under the device's nonce and brings a newly drawn nonce. None
of the challenges touches the received data or the queues, so that all of them together do not if
the others do not. Behind them the count of failures is what it was, and the same response is still
kept. -/
theorem Awaits.replays (awaits : c.Awaits s kind password) (last : s.lastResponse = some response)
    (challenges : List Challenge) (proper : ∀ x ∈ challenges, x.Proper s.clientId) (g : Gateway) :
    let device := Credentials.ofPassword s.clientId (some kind) s.profile.encryption password
    ∃ moments after final session,
      challengeAll challenges c g = (moments, after, final) ∧
      List.Forall₂ (fun x m => ∃ reply, Replayed device response x m reply) challenges moments ∧
      after.Awaits session kind password ∧ Holds s kind password response session ∧
      ((∀ x ∈ challenges, ∀ g : Gateway, g.Quiet (x.others g)) → g.Quiet final) := by
  intro device
  induction challenges generalizing c s g with
  | nil =>
    exact ⟨[], c, g, s, rfl, .nil, awaits, ⟨rfl, rfl, last, rfl⟩, fun _ => Gateway.Quiet.refl g⟩
  | cons x rest ih =>
    obtain ⟨first, others⟩ := List.forall_mem_cons.mp proper
    obtain ⟨reply, middle, between, left, fed, replayed, waits, holds⟩ :=
      awaits.replay last first (x.others g)
    rw [← holds.client] at others
    obtain ⟨moments, after, final, session, served, all, awaits', holds', quiet⟩ :=
      ih waits holds.last others left
    have same : Credentials.ofPassword between.clientId (some kind) between.profile.encryption
        password = device := holds.device
    rw [same] at all
    refine ⟨_, after, final, session, ?_, .cons ⟨reply, replayed⟩ all, awaits', holds.trans holds',
      fun calm => ?_⟩
    · rw [challengeAll, fed]
      dsimp only
      rw [served]
    · obtain ⟨before, others⟩ := List.forall_mem_cons.mp calm
      exact (before g).trans (replayed.quiet.trans (quiet others))

/-- The envelope by which a device challenges the server under some nonce. -/
def asksAgain (nonce : String) : Envelope :=
  ⟨⟨[(.id, .text "dev"), (.nonce, .bytes (Bytes.ofString nonce)), (.challenge, .text "hmac-md5")]⟩,
    [], []⟩

def twice : List Challenge :=
  ["first", "second"].map fun nonce => ⟨id, asksAgain nonce, Bytes.ofString nonce⟩

theorem proper_twice : ∀ x ∈ twice, x.Proper "dev" := by
  have representable : ∀ x ∈ twice, (Value.envelope x.envelope).Representable := by decide +kernel
  have wellFormed : ∀ x ∈ twice, (Value.envelope x.envelope).WellFormed := by decide +kernel
  intro x member
  have sound := Bysant.sound_iff.mpr ⟨representable x member, wellFormed x member⟩
  obtain ⟨nonce, -, rfl⟩ := List.mem_map.mp member
  exact ⟨sound, fun sender names => (Option.some.inj names).symm, rfl, rfl⟩

/-- The server has answered the report of a known client, and keeps the answer. -/
theorem exists_awaits_reporting : ∃ c s, Awaits c s .md5 "pw" ∧ s.clientId = "dev" ∧
    s.lastResponse = some (answerEnvelope "dev" reported securedGateway) := by
  let accepting : Session :=
    { openingSession with attempts := 0, peerNonce := some (Bytes.ofString "device") }
  have ready : accepting.Secured .md5 "pw" :=
    ⟨secured_openingSession.authentication, secured_openingSession.credential⟩
  have accepted : openingSession.authenticate reporting.envelope reporting.gateway =
      ⟨.ok (.accepted report.payload), accepting, securedGateway⟩ :=
    Session.authenticate_signedRequest secured_openingSession (.inr rfl) openPayload_sealedReport
      securedGateway
  obtain ⟨ciphered, -, responds⟩ := respond_of_some ready rfl
    (answerEnvelope "dev" reported securedGateway)
    (answeredGateway "dev" report.payload reported securedGateway)
  have handles : reporting.handled = respond (answerEnvelope "dev" reported securedGateway) accepting
      (answeredGateway "dev" report.payload reported securedGateway) := by
    rw [handled_of_opened opened_reporting, handleIn, secured_openingSession.needsNegotiation,
      if_neg (by decide), accepted]
    dsimp only
    rw [answer_eq decode_report]
    rfl
  rw [responds] at handles
  have handles : handle signedReport none securedGateway = _ := handles
  obtain ⟨c, -, reachable, whole, session⟩ :=
    Reachable.created.onBytes_encode rfl sound_signedReport handles rfl
  exact ⟨c, _, ⟨reachable, whole, session, ready.authentication, ready.credential⟩, rfl, rfl⟩

/-- A device that challenges the server twice gets the answer to its report twice. -/
theorem replays_twice : ∃ c s,
    (Awaits c s .md5 "pw" ∧ s.lastResponse = some (answerEnvelope "dev" reported securedGateway) ∧
      ∀ x ∈ twice, x.Proper s.clientId) ∧
    ∃ moments after final session,
      challengeAll twice c securedGateway = (moments, after, final) ∧
      List.Forall₂ (fun x m => ∃ reply, Replayed (s.device .md5 "pw")
        (answerEnvelope "dev" reported securedGateway) x m reply) twice moments ∧
      Holds s .md5 "pw" (answerEnvelope "dev" reported securedGateway) session ∧
      securedGateway.Quiet final := by
  obtain ⟨c, s, awaits, client, last⟩ := exists_awaits_reporting
  have proper : ∀ x ∈ twice, x.Proper s.clientId := by
    rw [client]
    exact proper_twice
  obtain ⟨moments, after, final, session, served, all, -, holds, quiet⟩ :=
    awaits.replays last twice proper securedGateway
  refine ⟨c, s, ⟨awaits, last, proper⟩, moments, after, final, session, served, all, holds,
    quiet fun x member g => ?_⟩
  obtain ⟨nonce, -, rfl⟩ := List.mem_map.mp member
  exact Gateway.Quiet.refl g

end Connection

end Telemetry
