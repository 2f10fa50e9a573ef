import Telemetry.Proofs.Gateway.Sending
/-!
# No reply is an internal error

Whatever an envelope comes to, it comes to one of five things, and none of them is a failure of the
server: a client that authenticates has what it takes to do so, and a response can always be
ciphered and signed. So the replies that tell of an internal error are never written.
-/

namespace Telemetry

open Bysant (Envelope StatusCode Value encodeAll maxDepth)

open Security (ChecksumKind Cipher KeyIv)

namespace Session

variable {s after : Session}

/-- Two sessions of one client with the same profile. -/
structure Mirrors (s after : Session) : Prop where
  client : after.clientId = s.clientId
  profile : after.profile = s.profile

/-- What stays the same in a session until a response is signed or the nonce is renewed. -/
structure Retains (s after : Session) : Prop extends s.Mirrors after where
  last : after.lastResponse = s.lastResponse

/-- The response that the session keeps, if any, is an answer in clear. -/
def KeepsAnswer (s : Session) : Prop :=
  ∀ response, s.lastResponse = some response →
    ∃ payload, response = .ofPayload (.ofList [(.status, StatusCode.ok.toValue)]) payload

theorem Retains.keepsAnswer (h : s.Retains after) (keeps : s.KeepsAnswer) : after.KeepsAnswer := by
  intro response last
  rw [h.last] at last
  exact keeps response last

theorem keepsAnswer_start (store : Store) (client : String) : (start store client).KeepsAnswer := by
  intro response last
  cases last

/-- The session signs its response for a nonce of its client, or the request brought none. -/
def Ready (s : Session) : Prop :=
  s.peerNonce = none ∨
    ∃ kind password nonce, s.Secured kind password ∧ s.peerNonce = some nonce

/-- A response can always be signed. -/
theorem signResponse_ok (response : Envelope) (s : Session) (g : Gateway) :
    ∃ signed, (s.signResponse response g).result = .ok signed := by
  unfold signResponse
  split
  · rename_i kind password peerNonce _ _ _
    obtain ⟨ciphered, sent, -⟩ :=
      device_openPayload_sealPayload s kind password peerNonce response.payload
    have sent : sealPayload password peerNonce
        { s with peerNonce := none, lastResponse := some response } response.payload =
          .ok ciphered := sent
    dsimp only
    rw [sent]
    exact ⟨_, rfl⟩
  · exact ⟨response, rfl⟩

/-- A client that need not negotiate first is judged. -/
theorem authenticate_ok (settled : s.profile.needsNegotiation = false) (e : Envelope) (g : Gateway) :
    ∃ verdict, (s.authenticate e g).result = .ok verdict := by
  cases authentication : s.profile.authentication with
  | none =>
    rw [authenticate_of_free authentication]
    exact ⟨_, rfl⟩
  | some kind =>
    obtain ⟨password, secured⟩ := Connection.exists_secured authentication settled
    rw [secured.authenticate_eq]
    exact ⟨_, rfl⟩

end Session

namespace Connection

variable {e : Envelope} {s : Session} {g : Gateway} {handled : Handled} {c : Connection}
  {session : Option Session}

/-! ## What an envelope comes to -/

/-- What an envelope of a session comes to. -/
inductive Settles (e : Envelope) (s : Session) (g : Gateway) : Handled → Prop where
  /-- A round of the negotiation is over. -/
  | negotiated {outcome : Outcome (Option Envelope)} (needs : s.profile.needsNegotiation = true)
      (step : s.negotiate e g = .ok outcome) :
      Settles e s g ⟨⟨outcome.result.toList, false⟩, some outcome.session, outcome.gateway⟩
  /-- The client is turned away. -/
  | refused {status : StatusCode} {after : Session} (retains : s.Retains after)
      (blames : status = .badRequest ∨ status = .forbidden) :
      Settles e s g ⟨refuse status, some after, g⟩
  /-- The client is given a new nonce and may try again. -/
  | challenged {kind : ChecksumKind} {failed : Session} {renewed : Outcome String}
      (retains : s.Retains failed) (drawn : failed.renewNonce g = renewed) :
      Settles e s g ⟨⟨[Session.challengeEnvelope kind renewed.result], false⟩,
        some renewed.session, renewed.gateway⟩
  /-- The last response is sent once more. -/
  | replayed {kind : ChecksumKind} {password : String} {nonce : Bytes} {response : Envelope}
      {judged : Session} (retains : s.Retains judged) (secured : judged.Secured kind password)
      (asked : judged.peerNonce = some nonce) (last : s.lastResponse = some response) :
      Settles e s g (respond response judged g)
  /-- The payload is taken in and answered. -/
  | answered {clear : Bytes} {values : List Value} {judged : Session} (retains : s.Retains judged)
      (ready : judged.Ready) :
      Settles e s g (respond (answerEnvelope s.clientId values g) judged
        (answeredGateway s.clientId clear values g))

/-- A payload that is accepted is answered if it decodes. -/
theorem settles_accepted {judged : Session} (retains : s.Retains judged) (ready : judged.Ready)
    (clear : Bytes) : Settles e s g (match answer s.clientId clear g with
      | .ok (response, left) => respond response judged left
      | .error _ => ⟨refuse .badRequest, some judged, g⟩) := by
  cases decodes : Bysant.decode clear with
  | ok values =>
    rw [answer_eq decodes]
    exact .answered retains ready
  | error _ =>
    rw [answer_of_error decodes]
    exact .refused retains (.inl rfl)

theorem settles_of_secured {kind : ChecksumKind} {password : String}
    (secured : s.Secured kind password) (e : Envelope) (g : Gateway) :
    Settles e s g (handleIn e s g) := by
  have judged := Session.judged_judge kind password e { s with peerNonce := none } g
  rw [handleIn, secured.needsNegotiation, if_neg (by decide), secured.authenticate_eq e g]
  generalize Session.judge kind password e { s with peerNonce := none } g = outcome at judged
  cases judged with
  | replayed challenges last given =>
    exact .replayed ⟨⟨rfl, rfl⟩, rfl⟩ ⟨secured.authentication, secured.credential⟩ rfl last
  | @accepted clear mac opened =>
    have retains : s.Retains { s with attempts := 0, peerNonce := e.header.bytes? .nonce } :=
      ⟨⟨rfl, rfl⟩, rfl⟩
    refine settles_accepted retains ?_ clear
    cases given : e.header.bytes? .nonce with
    | none => exact .inl rfl
    | some nonce =>
      exact .inr ⟨kind, password, nonce, ⟨secured.authentication, secured.credential⟩, rfl⟩
  | unreadable mac => exact .refused ⟨⟨rfl, rfl⟩, rfl⟩ (.inl rfl)
  | challenged mac few drawn =>
    have retains : s.Retains { s with attempts := s.attempts + 1, peerNonce := none } :=
      ⟨⟨rfl, rfl⟩, rfl⟩
    exact .challenged retains drawn
  | lockedOut mac many => exact .refused ⟨⟨rfl, rfl⟩, rfl⟩ (.inr rfl)

theorem settles_handleIn (e : Envelope) (s : Session) (g : Gateway) :
    Settles e s g (handleIn e s g) := by
  cases needs : s.profile.needsNegotiation with
  | true =>
    rw [handleIn, if_pos needs]
    cases step : s.negotiate e g with
    | ok outcome => exact .negotiated needs step
    | error error after left =>
      obtain ⟨rfl, rfl⟩ := Session.unchanged_of_error step
      exact .refused ⟨⟨rfl, rfl⟩, rfl⟩ (.inr rfl)
  | false =>
    cases authentication : s.profile.authentication with
    | none =>
      rw [handleIn, needs, if_neg (by decide), Session.authenticate_of_free authentication]
      have retains : s.Retains { s with peerNonce := none } := ⟨⟨rfl, rfl⟩, rfl⟩
      exact settles_accepted retains (.inl rfl) e.payload
    | some kind =>
      obtain ⟨password, secured⟩ := exists_secured authentication needs
      exact settles_of_secured secured e g

/-! ## Replies -/

/-- How requests are answered. -/
def statuses : List StatusCode :=
  [.ok, .badRequest, .unauthorized, .forbidden, .authenticationRequired]

/-- The envelope tells how a request was answered. -/
def Reports (reply : Envelope) : Prop := ∃ status ∈ statuses, reply.status? = some status

theorem Reports.status?_ne {reply : Envelope} (h : Reports reply) :
    reply.status? ≠ some .unexpectedError := by
  obtain ⟨status, known, told⟩ := h
  rw [told]
  intro same
  obtain rfl := Option.some.inj same
  exact absurd known (by decide)

/-- The session that is left keeps an answer, and every reply tells how the request was answered. -/
structure Tidy (handled : Handled) : Prop where
  keeps : ∀ s, handled.session = some s → s.KeepsAnswer
  reports : ∀ reply ∈ handled.reaction.writes, Reports reply

theorem tidy_of_replies {after : Session} {replies : List Envelope} (keeps : after.KeepsAnswer)
    (reports : ∀ reply ∈ replies, Reports reply) (closes : Bool) (left : Gateway) :
    Tidy ⟨⟨replies, closes⟩, some after, left⟩ := by
  refine ⟨fun s same => ?_, reports⟩
  obtain rfl := Option.some.inj same
  exact keeps

theorem tidy_of_reply {after : Session} {reply : Envelope} (status : StatusCode)
    (known : status ∈ statuses) (keeps : after.KeepsAnswer) (told : reply.status? = some status)
    (closes : Bool) (left : Gateway) : Tidy ⟨⟨[reply], closes⟩, some after, left⟩ :=
  tidy_of_replies keeps (List.forall_mem_singleton.mpr ⟨status, known, told⟩) closes left

/-- An answer is sent as such, and kept. -/
theorem tidy_respond (ready : s.Ready) (keeps : s.KeepsAnswer) (payload : Bytes) (g : Gateway) :
    Tidy (respond (.ofPayload (.ofList [(.status, StatusCode.ok.toValue)]) payload) s g) := by
  rcases ready with unasked | ⟨kind, password, nonce, secured, asked⟩
  · rw [respond_of_none unasked]
    exact tidy_of_reply .ok (by decide) keeps rfl _ _
  · obtain ⟨ciphered, -, responds⟩ := respond_of_some secured asked
      (.ofPayload (.ofList [(.status, StatusCode.ok.toValue)]) payload) g
    rw [responds]
    refine tidy_of_reply .ok (by decide) ?_ Session.status?_signedResponse _ _
    intro response last
    exact ⟨payload, (Option.some.inj last).symm⟩

/-- A round of a negotiation has nothing to do with the last response. -/
theorem tidy_negotiated {outcome : Outcome (Option Envelope)} (keeps : s.KeepsAnswer)
    (step : s.negotiate e g = .ok outcome) :
    Tidy ⟨⟨outcome.result.toList, false⟩, some outcome.session, outcome.gateway⟩ := by
  have negotiated := Session.negotiated_negotiate e s g
  rw [step] at negotiated
  cases negotiated with
  | keyOffered idle needs plain keyDrawn saltDrawn status =>
    refine tidy_of_reply .authenticationRequired (by decide) ?_ status _ _
    exact keeps
  | passwordOffered waits ours salted theirs signed shared passwordDrawn saltDrawn status =>
    refine tidy_of_reply .authenticationRequired (by decide) ?_ status _ _
    exact keeps
  | committed waits shared offered salted authentication mac =>
    refine tidy_of_replies ?_ (List.forall_mem_nil _) _ _
    exact keeps

/-- Whatever an envelope comes to, the session keeps an answer, and nothing that is sent tells of an
internal error. -/
theorem Settles.tidy (h : Settles e s g handled) (keeps : s.KeepsAnswer) : Tidy handled := by
  cases h with
  | negotiated needs step => exact tidy_negotiated keeps step
  | refused retains blames =>
    have kept := retains.keepsAnswer keeps
    rcases blames with rfl | rfl
    · exact tidy_of_reply .badRequest (by decide) kept rfl _ _
    · exact tidy_of_reply .forbidden (by decide) kept rfl _ _
  | challenged retains drawn =>
    subst drawn
    refine tidy_of_reply .unauthorized (by decide) ?_ (status?_challengeEnvelope _ _) _ _
    exact retains.keepsAnswer keeps
  | replayed retains secured asked last =>
    obtain ⟨payload, rfl⟩ := keeps _ last
    exact tidy_respond (.inr ⟨_, _, _, secured, asked⟩) (retains.keepsAnswer keeps) payload g
  | answered retains ready => exact tidy_respond ready (retains.keepsAnswer keeps) _ _

/-! ## Chunks -/

theorem tidy_handle (keeps : ∀ s, session = some s → s.KeepsAnswer) (e : Envelope) (g : Gateway) :
    Tidy (handle e session g) := by
  cases found : sessionFor e session g with
  | none =>
    rw [handle, found]
    exact ⟨keeps, List.forall_mem_nil _⟩
  | some s =>
    rw [handle, found]
    refine (settles_handleIn e s g).tidy ?_
    cases session with
    | some current =>
      obtain rfl := eq_of_sessionFor found
      exact keeps s rfl
    | none =>
      rw [eq_start_of_sessionFor found]
      exact Session.keepsAnswer_start _ _

/-- What every envelope keeps up, about the session, the gateway and all that was written so far, a
chunk keeps up as well. -/
theorem keeps_onBytes {P : List Envelope → Option Session → Gateway → Prop}
    (step : ∀ e written session g, P written session g →
      P (written ++ (handle e session g).reaction.writes) (handle e session g).session
        (handle e session g).gateway)
    {written : List Envelope} {c : Connection} {g : Gateway} (before : P written c.session g)
    (chunk : Bytes) : P (written ++ (c.onBytes chunk g).1.writes) (c.onBytes chunk g).2.1.session
      (c.onBytes chunk g).2.2 := by
  have all (envelopes : List Envelope) (written : List Envelope) (session : Option Session)
      (g : Gateway) (before : P written session g) :
      P (written ++ (handleAll envelopes session g).reaction.writes)
        (handleAll envelopes session g).session (handleAll envelopes session g).gateway := by
    induction envelopes generalizing written session g with
    | nil =>
      rw [handleAll, List.append_nil]
      exact before
    | cons e rest ih =>
      have first := step e written session g before
      unfold handleAll
      dsimp only
      split
      · exact first
      · have others := ih _ _ _ first
        rwa [List.append_assoc] at others
  have writes : (c.onBytes chunk g).1.writes =
      (handleAll (decode c.decoder chunk).2.1 c.session g).reaction.writes :=
    (writes_onBytes c chunk g).trans (writes_handleAll _ _ _).symm
  rw [writes]
  exact all (decode c.decoder chunk).2.1 written c.session g before

/-- A connection that was created and was fed any chunks, each while the gateway was in any state,
also behind one that should have closed it. -/
inductive Fed : Connection → Prop where
  | created : Fed {}
  | fed {c : Connection} (before : Fed c) (chunk : Bytes) (g : Gateway) :
      Fed (c.onBytes chunk g).2.1

theorem onBytes_reports (keeps : ∀ s, c.session = some s → s.KeepsAnswer) (chunk : Bytes)
    (g : Gateway) : (∀ s, (c.onBytes chunk g).2.1.session = some s → s.KeepsAnswer) ∧
      ∀ reply ∈ (c.onBytes chunk g).1.writes, Reports reply := by
  let P (written : List Envelope) (session : Option Session) (_ : Gateway) : Prop :=
    (∀ s, session = some s → s.KeepsAnswer) ∧ ∀ reply ∈ written, Reports reply
  have step (e : Envelope) (written : List Envelope) (session : Option Session) (g : Gateway)
      (before : P written session g) : P (written ++ (handle e session g).reaction.writes)
        (handle e session g).session (handle e session g).gateway := by
    have tidy := tidy_handle before.1 e g
    exact ⟨tidy.keeps, List.forall_mem_append.mpr ⟨before.2, tidy.reports⟩⟩
  exact keeps_onBytes (P := P) step ⟨keeps, List.forall_mem_nil _⟩ chunk

theorem Fed.keepsAnswer (fed : c.Fed) : ∀ s, c.session = some s → s.KeepsAnswer := by
  induction fed with
  | created =>
    intro s opened
    cases opened
  | fed before chunk g ih => exact (onBytes_reports ih chunk g).1

theorem Reachable.isFed (h : c.Reachable) : c.Fed := by
  induction h with
  | created => exact .created
  | fed reachable chunk g stays ih => exact ih.fed chunk g

end Connection

/-! ## No internal error -/

/-- The session in which a turn has its envelope authenticated. None is, if the client has to
negotiate a working password first. -/
def Turn.judging? (t : Turn) : Option Session :=
  t.opened.filter fun s => !s.profile.needsNegotiation

namespace Connection

variable {c : Connection}

/-- Whatever a connection is fed while the gateway is in any state: an envelope is authenticated only
for a client that has the working password it needs, and is judged then; whatever response a session
signs, keys and initial blocks have the lengths that their cipher needs, so that it is signed; and no
reply tells of an internal error. -/
theorem Fed.never_fails (fed : c.Fed) (chunk : Bytes) (g : Gateway) :
    (∀ t ∈ turnsOf (decode c.decoder chunk).2.1 c.session g, ∀ s, t.judging? = some s →
      (s.profile.authentication = none ∨ s.profile.credential.isSome) ∧
        ∃ verdict, (s.authenticate t.envelope t.gateway).result = .ok verdict) ∧
    (∀ (cipher : Cipher) (password nonce payload : Bytes),
      let key := KeyIv.ofPassword cipher password nonce
      key.fits cipher = true ∧ ∃ ciphered, key.encrypt cipher payload = .ok ciphered) ∧
    (∀ (response : Envelope) (s : Session) (g : Gateway),
      ∃ signed, (s.signResponse response g).result = .ok signed) ∧
    ∀ reply ∈ (c.onBytes chunk g).1.writes, reply.status? ≠ some .unexpectedError := by
  refine ⟨?_, ?_, Session.signResponse_ok, ?_⟩
  · intro t _ s judging
    obtain ⟨-, settled⟩ := Option.filter_eq_some_iff.mp judging
    have settled : s.profile.needsNegotiation = false := by simpa using settled
    refine ⟨?_, Session.authenticate_ok settled t.envelope t.gateway⟩
    cases authentication : s.profile.authentication with
    | none => exact .inl rfl
    | some kind =>
      obtain ⟨password, secured⟩ := exists_secured authentication settled
      exact .inr (Option.isSome_iff_exists.mpr ⟨password, secured.credential⟩)
  · intro cipher password nonce payload key
    have fits := KeyIv.fits_ofDigest cipher (Crypto.md5 password) nonce
    obtain ⟨ciphered, encrypted, -⟩ := KeyIv.decrypt_encrypt fits payload
    exact ⟨fits, ciphered, encrypted⟩
  · intro reply written
    exact ((onBytes_reports fed.keepsAnswer chunk g).2 reply written).status?_ne

def helloTurn : Turn := ⟨hello, none, securedGateway⟩

theorem judging?_helloTurn : helloTurn.judging? = some openingSession := by
  have opened : helloTurn.opened = some openingSession := by rfl
  rw [Turn.judging?, opened, Option.filter_some, secured_openingSession.needsNegotiation]
  rfl

/-- A client that greets the server is judged, and gets one reply. -/
theorem never_fails_hello : Fed {} ∧ ∃ verdict reply,
    (openingSession.authenticate hello securedGateway).result = .ok verdict ∧
      (onBytes {} (encodeAll [.envelope hello]) securedGateway).1.writes = [reply] ∧
      reply.status? ≠ some .unexpectedError := by
  have sound : ∀ e ∈ [hello], (Value.envelope e).Sound maxDepth :=
    List.forall_mem_singleton.mpr sound_hello
  obtain ⟨after, decoded⟩ := decode_envelopes sound
  have turns : turnsOf (decode (Connection.decoder {}) (encodeAll [.envelope hello])).2.1 none
      securedGateway = [helloTurn] := by
    rw [show decode (Connection.decoder {}) (encodeAll [.envelope hello]) = _ from decoded]
    exact turnsOf_singleton hello none securedGateway
  have writes := writes_onBytes {} (encodeAll [.envelope hello]) securedGateway
  rw [turns, List.flatMap_singleton] at writes
  obtain ⟨reply, replied⟩ : ∃ reply, helloTurn.handled.reaction.writes = [reply] :=
    List.length_eq_one_iff.mp (by decide +kernel)
  obtain ⟨judges, -, -, reports⟩ :=
    Fed.created.never_fails (encodeAll [.envelope hello]) securedGateway
  rw [turns] at judges
  obtain ⟨-, verdict, judged⟩ :=
    judges helloTurn (List.mem_singleton_self _) openingSession judging?_helloTurn
  rw [replied] at writes
  refine ⟨.created, verdict, reply, judged, writes, reports reply ?_⟩
  rw [writes]
  exact List.mem_singleton_self reply

end Connection

end Telemetry
