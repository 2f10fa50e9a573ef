import Telemetry.Proofs.Gateway.Replies
import Telemetry.Proofs.Store.Clients
/-!
# Queued messages are delivered once and in order

Administrators queue messages for clients, and any number of connections answer the clients, in any
order. A message waits until a request of its client is accepted, and is placed in the reply to this
request. No other reply takes one away, so that what was placed in the replies to a client and what
still waits for it are, one behind the other, what was queued for it.
-/

namespace Telemetry

open Bysant (Envelope Value Message encodeAll)

open Security (ChecksumKind)

open Connection (answerEnvelope answeredGateway)

variable {t : Turn} {s : Session} {g g' g'' : Gateway} {e response : Envelope} {clear : Bytes}
  {values : List Value}

/-! ## Accepted requests -/

/-- The session of a request that is accepted, and the values of its payload. -/
def Turn.accepted? (t : Turn) : Option (Session × List Value) :=
  match t.opened with
  | none => none
  | some s =>
    if s.profile.needsNegotiation then none
    else
      match (s.authenticate t.envelope t.gateway).result with
      | .ok (.accepted payload) =>
        match Bysant.decode payload with
        | .ok values => some (s, values)
        | .error _ => none
      | _ => none

/-- The request of a session is accepted in a turn, and this is its payload in clear. -/
structure Turn.Grants (t : Turn) (s : Session) (payload : Bytes) : Prop where
  opened : t.opened = some s
  settled : s.profile.needsNegotiation = false
  judged : (s.authenticate t.envelope t.gateway).result = .ok (.accepted payload)

/-- The messages that are placed in the reply to a client: all that wait for it, if its request is
accepted. -/
def Turn.placed (t : Turn) (client : String) : List Message :=
  match t.accepted? with
  | some (s, _) => if client = s.clientId then t.gateway.store.waiting client else []
  | none => []

/-- A reply bears a payload in clear, if nothing else was asked for, or protected under the nonce
that the request brought. -/
inductive Turn.Bears (t : Turn) (s : Session) (payload : Bytes) (reply : Envelope) : Prop where
  | clear
      (unasked : s.profile.authentication = none ∨ t.envelope.header.bytes? .nonce = none)
      (same : reply.payload = payload)
  | secured {kind : ChecksumKind} {password : String} {nonce : Bytes} {response : Envelope}
      (secured : s.Secured kind password)
      (given : t.envelope.header.bytes? .nonce = some nonce)
      (same : response.payload = payload)
      (protects : s.Protects kind password nonce response reply)

/-- What becomes of the messages that wait when a turn is taken. -/
inductive Turn.Accounts (t : Turn) : Prop where
  /-- The request of a client is accepted. The only reply says so, and bears the messages placed in
  it, and behind them the acknowledgements. -/
  | answered {s : Session} {values : List Value} {reply : Envelope}
      (accepted : t.accepted? = some (s, values))
      (writes : t.handled.reaction.writes = [reply])
      (status : reply.status? = some .ok)
      (bears : t.Bears s (encodeAll ((t.placed s.clientId).map .message ++
        (values.filterMap Value.acknowledgement?).map .response)) reply)
      (others : ∀ client, client ≠ s.clientId → t.placed client = [])
  /-- The last response to a client is sent once more, and takes no messages along. -/
  | replayed {s : Session} {response : Envelope}
      (opened : t.opened = some s)
      (last : s.lastResponse = some response)
      (judged : (s.authenticate t.envelope t.gateway).result = .ok (.replay response))
      (nothing : ∀ client, t.placed client = [])
  /-- No reply says that all went well, and none takes messages along. -/
  | silent
      (failed : ∀ reply ∈ t.handled.reaction.writes, reply.status? ≠ some .ok)
      (nothing : ∀ client, t.placed client = [])

namespace Turn

theorem Grants.accepted?_eq_some (grants : t.Grants s clear)
    (decodes : Bysant.decode clear = .ok values) : t.accepted? = some (s, values) := by
  simp only [accepted?, grants.opened, grants.settled, grants.judged, decodes, Bool.false_eq_true,
    if_false]

/-- What it takes for a request to be accepted. -/
theorem of_accepted? (accepted : t.accepted? = some (s, values)) :
    ∃ clear, t.Grants s clear ∧ Bysant.decode clear = .ok values := by
  unfold accepted? at accepted
  split at accepted
  · cases accepted
  · rename_i opened
    split at accepted
    · cases accepted
    · rename_i settled
      split at accepted
      · rename_i clear judged
        split at accepted
        · rename_i decodes
          obtain ⟨rfl, rfl⟩ := Prod.mk.inj (Option.some.inj accepted)
          exact ⟨clear, ⟨opened, by simpa using settled, judged⟩, decodes⟩
        · cases accepted
      · cases accepted

theorem placed_of_none (none : t.accepted? = none) (client : String) : t.placed client = [] := by
  rw [placed, none]

theorem placed_self (accepted : t.accepted? = some (s, values)) :
    t.placed s.clientId = t.gateway.store.waiting s.clientId := by
  simp only [placed, accepted, if_true]

theorem placed_of_ne (accepted : t.accepted? = some (s, values)) {client : String}
    (different : client ≠ s.clientId) : t.placed client = [] := by
  simp only [placed, accepted, different, if_false]

end Turn

namespace Session

/-- How the session behind an accepted request comes from the one before: it remembers a nonce only
if its client has a working password and the request brought this nonce. -/
structure Accepts (s : Session) (e : Envelope) (after : Session) : Prop where
  client : after.clientId = s.clientId
  profile : after.profile = s.profile
  nonce : (after.peerNonce = none ∧
      (s.profile.authentication = none ∨ e.header.bytes? .nonce = none)) ∨
    ∃ kind password nonce, s.Secured kind password ∧ after.peerNonce = some nonce ∧
      e.header.bytes? .nonce = some nonce

/-- Whoever need not authenticate is accepted. -/
theorem authenticate_of_free (free : s.profile.authentication = none) (e : Envelope) (g : Gateway) :
    s.authenticate e g = ⟨.ok (.accepted e.payload), { s with peerNonce := none }, g⟩ := by
  unfold authenticate
  simp only [free]

/-- Accepting a request touches nothing but the session. -/
theorem authenticate_of_accepted
    (accepted : (s.authenticate e g).result = .ok (.accepted clear)) :
    ∃ after, s.authenticate e g = ⟨.ok (.accepted clear), after, g⟩ ∧ s.Accepts e after := by
  cases authentication : s.profile.authentication with
  | none =>
    rw [authenticate_of_free authentication] at accepted ⊢
    obtain rfl := Verdict.accepted.inj (Except.ok.inj accepted)
    exact ⟨_, rfl, rfl, rfl, .inl ⟨rfl, .inl authentication⟩⟩
  | some kind =>
    cases credential : s.profile.credential with
    | none =>
      have refused : (s.authenticate e g).result = .error (.negotiationRequired s.clientId) := by
        unfold authenticate
        simp only [authentication, credential]
      rw [refused] at accepted
      cases accepted
    | some password =>
      have secured : s.Secured kind password := ⟨authentication, credential⟩
      rw [secured.authenticate_eq] at accepted ⊢
      have verdict := Except.ok.inj accepted
      have judged := judged_judge kind password e { s with peerNonce := none } g
      generalize judge kind password e { s with peerNonce := none } g = outcome at judged verdict
      cases judged with
      | accepted mac opened =>
        obtain rfl := Verdict.accepted.inj verdict
        refine ⟨_, rfl, rfl, rfl, ?_⟩
        cases e.header.bytes? .nonce with
        | none => exact .inl ⟨rfl, .inr rfl⟩
        | some nonce => exact .inr ⟨kind, password, nonce, secured, rfl, rfl⟩
      | _ => cases verdict

end Session

/-! ## One turn -/

namespace Connection

/-- The reply to an accepted request bears the payload of its response. -/
theorem respond_bears {after : Session} (accepts : s.Accepts t.envelope after) (response : Envelope)
    (g : Gateway) : ∃ reply, (respond response after g).reaction.writes = [reply] ∧
      reply.status? = response.status? ∧ t.Bears s response.payload reply := by
  rcases accepts.nonce with ⟨nothing, unasked⟩ | ⟨kind, password, nonce, secured, asked, given⟩
  · refine ⟨response, ?_, rfl, .clear unasked rfl⟩
    rw [respond_of_none nothing]
  · have profile := accepts.profile
    have own : after.Secured kind password := by
      refine ⟨?_, ?_⟩
      · rw [profile, secured.authentication]
      · rw [profile, secured.credential]
    obtain ⟨reply, _, writes, _, _, protects⟩ := respond_protects own asked response g
    obtain ⟨ciphered, _, responds⟩ := respond_of_some own asked response g
    refine ⟨reply, writes, ?_, .secured secured given rfl ⟨protects.mac, ?_, ?_⟩⟩
    · rw [responds] at writes
      obtain rfl := List.singleton_inj.mp writes
      exact Session.status?_signedResponse
    · rw [← profile]
      exact protects.ciphered
    · rw [← profile]
      exact protects.plain

/-- A turn in which a request is accepted answers its payload, or turns the client away. -/
theorem handled_of_granted (grants : t.Grants s clear) :
    let after := (s.authenticate t.envelope t.gateway).session
    s.Accepts t.envelope after ∧ t.handled = match answer s.clientId clear t.gateway with
      | .ok (response, left) => respond response after left
      | .error _ => ⟨refuse .badRequest, some after, t.gateway⟩ := by
  obtain ⟨after, authenticated, accepts⟩ := Session.authenticate_of_accepted grants.judged
  rw [handled_of_opened grants.opened, handleIn, grants.settled, if_neg (by decide), authenticated]
  dsimp only
  rw [accepts.client]
  refine ⟨accepts, ?_⟩
  cases answer s.clientId clear t.gateway <;> rfl

/-- A turn in which a request is accepted responds with the messages that wait. -/
theorem handled_of_accepted (accepted : t.accepted? = some (s, values)) : ∃ after clear,
    s.Accepts t.envelope after ∧ t.handled = respond (answerEnvelope s.clientId values t.gateway)
      after (answeredGateway s.clientId clear values t.gateway) := by
  obtain ⟨clear, grants, decodes⟩ := Turn.of_accepted? accepted
  obtain ⟨accepts, handled⟩ := handled_of_granted grants
  rw [answer_eq decodes] at handled
  exact ⟨_, clear, accepts, handled⟩

/-- The replies of a negotiation do not say that all went well. -/
theorem failed_of_needsNegotiation (needs : s.profile.needsNegotiation = true) (e : Envelope)
    (g : Gateway) :
    ∀ reply ∈ (handleIn e s g).reaction.writes, reply.status? ≠ some .ok := by
  rw [handleIn, if_pos needs]
  have negotiated := Session.negotiated_negotiate e s g
  generalize s.negotiate e g = step at negotiated
  intro reply written
  cases negotiated with
  | failed kept =>
    obtain rfl := List.mem_singleton.mp written
    decide
  | lost missing =>
    obtain rfl := List.mem_singleton.mp written
    decide
  | keyOffered idle needs plain keyDrawn saltDrawn status =>
    obtain rfl := List.mem_singleton.mp written
    rw [status]
    decide
  | passwordOffered waits ours salted theirs signed shared passwordDrawn saltDrawn status =>
    obtain rfl := List.mem_singleton.mp written
    rw [status]
    decide
  | committed waits shared offered salted authentication mac => cases written

/-- A client that need not authenticate is turned away if its payload cannot be read. -/
theorem handled_of_free_refused (refused : t.accepted? = none) (opened : t.opened = some s)
    (settled : s.profile.needsNegotiation = false) (free : s.profile.authentication = none) :
    t.handled = ⟨refuse .badRequest, some { s with peerNonce := none }, t.gateway⟩ := by
  have judged := Session.authenticate_of_free free t.envelope t.gateway
  cases decodes : Bysant.decode t.envelope.payload with
  | ok values =>
    have grants : t.Grants s t.envelope.payload := ⟨opened, settled, by rw [judged]⟩
    cases refused.symm.trans (grants.accepted?_eq_some decodes)
  | error error =>
    rw [handled_of_opened opened, handleIn, settled, if_neg (by decide), judged]
    dsimp only
    rw [answer_of_error decodes]

/-- A turn in which no request is accepted leaves all queues alone. -/
theorem accounts_of_not_accepted (refused : t.accepted? = none) :
    t.Accounts ∧ t.handled.gateway.store.outgoing = t.gateway.store.outgoing := by
  have nothing := Turn.placed_of_none refused
  have silent {reply : Envelope} (writes : t.handled.reaction.writes = [reply])
      (failed : reply.status? ≠ some .ok) : t.Accounts := by
    refine .silent (fun other written => ?_) nothing
    rw [writes] at written
    obtain rfl := List.mem_singleton.mp written
    exact failed
  cases opened : t.opened with
  | none =>
    have ignored : t.handled.reaction.writes = [] := by
      rw [Turn.handled, handle, show sessionFor _ _ _ = _ from opened]
    refine ⟨.silent (fun reply written => ?_) nothing, (idle_of_not_opened opened).outgoing⟩
    rw [ignored] at written
    cases written
  | some s =>
    have handled := handled_of_opened opened
    cases needs : s.profile.needsNegotiation with
    | true =>
      have quiet := (handleIn_of_needsNegotiation needs t.envelope t.gateway).2
      have failed := failed_of_needsNegotiation needs t.envelope t.gateway
      rw [← handled] at quiet failed
      exact ⟨.silent failed nothing, quiet.outgoing⟩
    | false =>
      cases authentication : s.profile.authentication with
      | none =>
        have handled := handled_of_free_refused refused opened needs authentication
        refine ⟨silent (by rw [handled]; rfl) (by decide), ?_⟩
        rw [handled]
      | some kind =>
        obtain ⟨password, secured⟩ := exists_secured authentication needs
        have handles := handles_handleIn secured t.envelope t.gateway
        rw [← handled] at handles
        generalize after : t.handled = what at handles
        cases handles with
        | answered mac deciphered decodes judged =>
          have grants : t.Grants s _ := ⟨opened, needs, judged⟩
          cases refused.symm.trans (grants.accepted?_eq_some decodes)
        | replayed last given judged =>
          exact ⟨.replayed opened last judged nothing, (quiet_respond _ _ _).outgoing⟩
        | refused failed continues quiet =>
          exact ⟨silent (by rw [after]) failed, quiet.outgoing⟩

/-- A turn places messages in a reply or lets them wait. -/
theorem settles (t : Turn) : t.Accounts ∧
    ∀ client, t.placed client ++ t.handled.gateway.store.waiting client =
      t.gateway.store.waiting client := by
  cases accepted : t.accepted? with
  | none =>
    obtain ⟨accounts, same⟩ := accounts_of_not_accepted accepted
    refine ⟨accounts, fun client => ?_⟩
    rw [Turn.placed_of_none accepted, Store.waiting_congr same, List.nil_append]
  | some found =>
    obtain ⟨s, values⟩ := found
    obtain ⟨after, clear, accepts, handled⟩ := handled_of_accepted accepted
    obtain ⟨reply, writes, status, bears⟩ := respond_bears accepts
      (answerEnvelope s.clientId values t.gateway)
      (answeredGateway s.clientId clear values t.gateway)
    rw [← handled] at writes
    have contents : (answerEnvelope s.clientId values t.gateway).payload =
        encodeAll ((t.placed s.clientId).map .message ++
          (values.filterMap Value.acknowledgement?).map .response) := by
      rw [Turn.placed_self accepted]
      rfl
    rw [contents] at bears
    refine ⟨.answered accepted writes (status.trans rfl) bears
      (fun other different => Turn.placed_of_ne accepted different), fun other => ?_⟩
    -- signing the response leaves the queues as the answer has left them
    have left := (quiet_respond (answerEnvelope s.clientId values t.gateway) after
      (answeredGateway s.clientId clear values t.gateway)).outgoing
    rw [← handled] at left
    rw [Store.waiting_congr left]
    rw [waiting_answeredGateway]
    by_cases same : other = s.clientId
    · rw [if_pos same, same, Turn.placed_self accepted, List.append_nil]
    · rw [if_neg same, Turn.placed_of_ne accepted same, List.nil_append]

end Connection

/-! ## All that happens to the queues -/

/-- Something that happens to the messages that wait for clients. -/
inductive Occurrence where
  | queued (client : String) (messages : List Message)
  /-- A connection takes a turn. -/
  | handled (turn : Turn)

/-- What was queued for a client, in order. -/
def queuedIn (client : String) (log : List Occurrence) : List Message :=
  log.flatMap fun
    | .queued other messages => if client = other then messages else []
    | .handled _ => []

/-- What was placed in replies to a client, in order. -/
def placedIn (client : String) (log : List Occurrence) : List Message :=
  log.flatMap fun
    | .queued _ _ => []
    | .handled t => t.placed client

variable {log log' : List Occurrence}

theorem queuedIn_append (client : String) :
    queuedIn client (log ++ log') = queuedIn client log ++ queuedIn client log' :=
  List.flatMap_append

theorem placedIn_append (client : String) :
    placedIn client (log ++ log') = placedIn client log ++ placedIn client log' :=
  List.flatMap_append

/-- From the one gateway to the other, messages are queued and placed in replies, and none is lost,
doubled or overtaken. -/
structure Conserves (g : Gateway) (log : List Occurrence) (g' : Gateway) : Prop where
  total : ∀ client, g.store.waiting client ++ queuedIn client log =
    placedIn client log ++ g'.store.waiting client
  /-- The same holds when a turn is taken. -/
  moments : ∀ before t after, log = before ++ .handled t :: after → ∀ client,
    g.store.waiting client ++ queuedIn client before =
      placedIn client before ++ t.gateway.store.waiting client
  accounts : ∀ t, .handled t ∈ log → t.Accounts

namespace Conserves

theorem refl_of_outgoing (same : g'.store.outgoing = g.store.outgoing) : Conserves g [] g' where
  total client := by
    rw [Store.waiting_congr same]
    exact List.append_nil _
  moments before t after split := by
    cases (List.append_eq_nil_iff.mp split.symm).2
  accounts t member := by cases member

theorem trans (first : Conserves g log g') (second : Conserves g' log' g'') :
    Conserves g (log ++ log') g'' where
  total client := by
    rw [queuedIn_append, placedIn_append, ← List.append_assoc, first.total, List.append_assoc,
      second.total, List.append_assoc]
  moments before t after split client := by
    rcases List.append_eq_append_iff.mp split with ⟨between, rfl, rest⟩ | ⟨between, front, rest⟩
    · rw [queuedIn_append, placedIn_append, ← List.append_assoc, first.total, List.append_assoc,
        second.moments between t after rest, List.append_assoc]
    · cases between with
      | nil =>
        obtain rfl : log = before := by simpa using front
        have start := second.moments [] t after rest.symm client
        rw [first.total]
        congr 1
        simpa [queuedIn, placedIn] using start
      | cons u others =>
        obtain ⟨rfl, -⟩ := List.cons.inj rest
        exact first.moments before t others front client
  accounts t member := by
    rcases List.mem_append.mp member with before | behind
    · exact first.accounts t before
    · exact second.accounts t behind

theorem queued (g : Gateway) (client : String) (messages : List Message) :
    Conserves g [.queued client messages]
      { g with store := g.store.enqueue client messages } where
  total other := by
    rw [Store.waiting_enqueue]
    simp [queuedIn, placedIn]
  moments before t after split := by
    cases before with
    | nil => cases split
    | cons first rest => cases (List.append_eq_nil_iff.mp (List.cons.inj split).2.symm).2
  accounts t member := by cases List.mem_singleton.mp member

theorem handled (t : Turn) : Conserves t.gateway [.handled t] t.handled.gateway where
  total client := by
    have settled := (Connection.settles t).2 client
    simpa [queuedIn, placedIn] using settled.symm
  moments before u after split client := by
    cases before with
    | nil =>
      obtain ⟨same, -⟩ := List.cons.inj split
      obtain rfl := Occurrence.handled.inj same
      exact List.append_nil _
    | cons first rest => cases (List.append_eq_nil_iff.mp (List.cons.inj split).2.symm).2
  accounts u member := by
    obtain rfl := Occurrence.handled.inj (List.mem_singleton.mp member)
    exact (Connection.settles u).1

theorem handleAll (envelopes : List Envelope) (session : Option Session) (g : Gateway) :
    Conserves g ((Connection.turnsOf envelopes session g).map .handled)
      (Connection.handleAll envelopes session g).gateway := by
  induction envelopes generalizing session g with
  | nil => exact refl_of_outgoing rfl
  | cons e rest ih =>
    have first := handled ⟨e, session, g⟩
    unfold Connection.handleAll Connection.turnsOf
    dsimp only
    by_cases closes : (Connection.handle e session g).reaction.close = true
    · rw [if_pos closes, if_pos closes]
      exact first
    · rw [if_neg closes, if_neg closes]
      exact first.trans (ih _ _)

end Conserves

/-- What happens while any number of connections and administrators share a gateway, and what it
comes to. Connections are fed chunks of any bytes, even those that have closed; what a connection
writes is what it writes in the turns of the log. -/
inductive Traffic (start : List Connection) (g₀ : Gateway) :
    List Occurrence → List Connection → Gateway → Prop where
  | started : Traffic start g₀ [] start g₀
  | connected {log : List Occurrence} {connections : List Connection} {g : Gateway}
      (traffic : Traffic start g₀ log connections g) : Traffic start g₀ log ({} :: connections) g
  | fed {log : List Occurrence} {front back : List Connection} {c : Connection} {g : Gateway}
      (traffic : Traffic start g₀ log (front ++ c :: back) g) (chunk : Bytes) :
      Traffic start g₀
        (log ++ (Connection.turnsOf (Connection.decode c.decoder chunk).2.1 c.session g).map .handled)
        (front ++ (c.onBytes chunk g).2.1 :: back) (c.onBytes chunk g).2.2
  | queued {log : List Occurrence} {connections : List Connection} {g : Gateway}
      (traffic : Traffic start g₀ log connections g) (client : String) (messages : List Message) :
      Traffic start g₀ (log ++ [.queued client messages]) connections
        { g with store := g.store.enqueue client messages }
  /-- Whatever else changes the gateway leaves the queues alone. -/
  | meanwhile {log : List Occurrence} {connections : List Connection} {g g' : Gateway}
      (traffic : Traffic start g₀ log connections g)
      (same : g'.store.outgoing = g.store.outgoing) : Traffic start g₀ log connections g'

namespace Traffic

variable {start connections : List Connection} {g₀ : Gateway}

theorem conserves (traffic : Traffic start g₀ log connections g) : Conserves g₀ log g := by
  induction traffic with
  | started => exact .refl_of_outgoing rfl
  | connected traffic ih => exact ih
  | fed traffic chunk ih => exact ih.trans (.handleAll _ _ _)
  | queued traffic client messages ih => exact ih.trans (.queued _ client messages)
  | meanwhile traffic same ih =>
    have whole := ih.trans (.refl_of_outgoing same)
    rwa [List.append_nil] at whole

/-- What it is to send settings to a client: their messages are queued, if there are any. -/
def sending (client : String) (settings : List (String × Json)) : List Occurrence :=
  if (Admin.messagesToSend settings).isEmpty then []
  else [.queued client (Admin.messagesToSend settings)]

theorem queuedIn_sending (client other : String) (settings : List (String × Json)) :
    queuedIn other (sending client settings) =
      if other = client then Admin.messagesToSend settings else [] := by
  unfold sending
  split
  · rename_i nothing
    rw [List.isEmpty_iff.mp nothing, ite_self]
    rfl
  · exact List.append_nil _

/-- Administrators who send settings are part of the traffic. -/
theorem posted (traffic : Traffic start g₀ log connections g) (client : String)
    (settings : List (String × Json)) : Traffic start g₀ (log ++ sending client settings)
      connections (Admin.send g client settings).2 := by
  unfold Admin.send sending
  dsimp only
  split
  · rwa [List.append_nil]
  · exact traffic.queued client (Admin.messagesToSend settings)

/-- A new connection may be sent any envelope that keeps to the limits. -/
theorem visited (traffic : Traffic start g₀ log connections g)
    (sound : (Value.envelope e).Sound Bysant.maxDepth) : ∃ after left,
      Traffic start g₀ (log ++ [.handled ⟨e, none, g⟩]) after left := by
  have alone : ∀ e' ∈ [e], (Value.envelope e').Sound Bysant.maxDepth := by
    intro e' member
    obtain rfl := List.mem_singleton.mp member
    exact sound
  obtain ⟨after, decoded⟩ := Connection.decode_envelopes alone
  have new : Traffic start g₀ log ([] ++ ({} : Connection) :: connections) g := traffic.connected
  have fed := new.fed (encodeAll ([e].map Value.envelope))
  rw [decoded, Connection.turnsOf_singleton] at fed
  exact ⟨_, _, fed⟩

/-- Every message that was queued for a client, and nothing else, was placed in one reply to this
client or still waits, in the order in which they were queued. This holds in the end and whenever a
turn is taken, and a turn places messages only in the reply to an accepted request. -/
theorem delivers (traffic : Traffic start g₀ log connections g)
    (empty : ∀ client, g₀.store.waiting client = []) :
    (∀ client, placedIn client log ++ g.store.waiting client = queuedIn client log) ∧
    (∀ before t after, log = before ++ .handled t :: after → ∀ client,
      placedIn client before ++ t.gateway.store.waiting client = queuedIn client before) ∧
    ∀ t, .handled t ∈ log → t.Accounts := by
  have conserves := traffic.conserves
  refine ⟨fun client => ?_, fun before t after split client => ?_, conserves.accounts⟩
  · rw [← conserves.total, empty, List.nil_append]
  · rw [← conserves.moments before t after split, empty, List.nil_append]

def oneSetting : List (String × Json) := [("light.color", .text "green")]

open Connection (emptyGateway hello)

/-- A client connects behind a setting that was sent to it. -/
theorem delivers_oneSetting : ∃ log connections g,
    (Traffic [] emptyGateway log connections g ∧
      (∀ client, emptyGateway.store.waiting client = []) ∧
      (placedIn "dev" log).length = 1 ∧ queuedIn "dev" log = Admin.messagesToSend oneSetting) ∧
    (∀ client, placedIn client log ++ g.store.waiting client = queuedIn client log) ∧
    (∀ before t after, log = before ++ .handled t :: after → ∀ client,
      placedIn client before ++ t.gateway.store.waiting client = queuedIn client before) ∧
    ∀ t, .handled t ∈ log → t.Accounts := by
  have empty : ∀ client, emptyGateway.store.waiting client = [] := fun _ => rfl
  have sound : (Value.envelope hello).Sound Bysant.maxDepth :=
    Bysant.sound_iff.mpr ⟨by decide +kernel, by decide +kernel⟩
  have sent := (Traffic.started : Traffic [] emptyGateway [] [] emptyGateway).posted "dev" oneSetting
  obtain ⟨_, _, served⟩ := sent.visited sound
  refine ⟨_, _, _, ⟨served, empty, by decide +kernel, ?_⟩, served.delivers empty⟩
  rw [queuedIn_append, List.nil_append, queuedIn_sending, if_pos rfl]
  exact List.append_nil _

end Traffic

end Telemetry
