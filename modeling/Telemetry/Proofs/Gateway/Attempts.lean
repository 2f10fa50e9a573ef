import Mathlib.Data.List.DropRight
import Telemetry.Proofs.Gateway.Admission
/-!
# Failures in a row

A client that has to authenticate is challenged every time it fails, up to a limit, and the
connection closes when the limit is reached. What counts are the failures since the session was
opened, since the last request that was accepted, or since a negotiation has ended with a new
password. Asking for the last response again is no failure and no success.
-/

namespace Telemetry

open Bysant (Envelope Value)

open Security (ChecksumKind)

namespace Session

/-- The envelope challenges the server to send its last response again. -/
def replays (s : Session) (e : Envelope) : Bool :=
  e.header.contains .challenge && s.lastResponse.isSome && (e.header.bytes? .nonce).isSome

/-- The response that the session keeps, if any, was one of success. -/
def LastOk (s : Session) : Prop :=
  ∀ response, s.lastResponse = some response → response.status? = some .ok

/-- The envelope should carry a checksum, and has none or a wrong one. -/
def fails (s : Session) (e : Envelope) : Bool :=
  match s.profile.authentication, s.profile.credential with
  | some kind, some password =>
    !s.replays e && e.header.bytes? .mac != some (s.requestChecksum kind password e.payload)
  | _, _ => false

end Session

namespace Turn

/-- The turn is a failed authentication. -/
def fails (t : Turn) : Bool := (t.opened.map fun s => s.fails t.envelope).getD false

/-- The turn accepts a request, or ends a negotiation with a new password. -/
def resets (t : Turn) : Bool :=
  match t.opened with
  | none => false
  | some s =>
    if s.profile.needsNegotiation then
      match s.negotiate t.envelope t.gateway with
      | .ok outcome => outcome.session.negotiation.stage = .done
      | .error _ _ _ => false
    else
      match (s.authenticate t.envelope t.gateway).result with
      | .ok (.accepted _) => true
      | _ => false

/-- How many challenges are written in the turn. -/
def challenges (t : Turn) : Nat :=
  t.handled.reaction.writes.countP fun reply => reply.status? = some .unauthorized

/-- The turns behind the last one that resets the count of failures. -/
def sinceReset (turns : List Turn) : List Turn := turns.rtakeWhile fun t => !t.resets

/-- The failures in a row. -/
def failuresSince (turns : List Turn) : Nat := (sinceReset turns).countP fails

/-- The challenges written in a row. -/
def challengesSince (turns : List Turn) : Nat := ((sinceReset turns).map challenges).sum

variable {turns : List Turn} {t : Turn}

theorem failuresSince_concat (turns : List Turn) (t : Turn) : failuresSince (turns ++ [t]) =
    if t.resets then 0 else failuresSince turns + if t.fails then 1 else 0 := by
  unfold failuresSince sinceReset
  rw [List.rtakeWhile_concat]
  cases t.resets with
  | true => rfl
  | false => simp [List.countP_singleton]

theorem challengesSince_concat (turns : List Turn) (t : Turn) : challengesSince (turns ++ [t]) =
    if t.resets then 0 else challengesSince turns + t.challenges := by
  unfold challengesSince sinceReset
  rw [List.rtakeWhile_concat]
  cases t.resets with
  | true => rfl
  | false => simp

end Turn

namespace Connection

variable {turns front : List Turn} {c : Connection} {session : Option Session} {g : Gateway}
  {t : Turn} {s last : Session} {kind : ChecksumKind} {password : String} {limit : Nat}
  {stays : Bool} {e response : Envelope}

/-! ## One turn -/

/-- What a turn of a session does to the count of failures. -/
inductive Counts (kind : ChecksumKind) (t : Turn) (s : Session) : Prop where
  /-- Nothing that counts happens, and the connection stays open. -/
  | kept {after : Session} (fails : t.fails = false) (resets : t.resets = false)
      (none : t.challenges = 0) (stays : t.handled.reaction.close = false)
      (session : t.handled.session = some after) (attempts : after.attempts = s.attempts)
      (lastOk : after.LastOk)
  | reset {after : Session} (fails : t.fails = false) (resets : t.resets = true)
      (none : t.challenges = 0) (session : t.handled.session = some after)
      (attempts : after.attempts = 0) (lastOk : after.LastOk)
  | challenged {after : Session} (fails : t.fails = true) (resets : t.resets = false)
      (few : s.attempts + 1 < max 1 t.gateway.attemptLimit)
      (reaction : t.handled.reaction =
        ⟨[Session.challengeEnvelope kind t.gateway.drawNonce.1], false⟩)
      (session : t.handled.session = some after) (attempts : after.attempts = s.attempts + 1)
      (nonce : after.profile.nonce = t.gateway.drawNonce.1)
      (drawn : t.handled.gateway.entropy = t.gateway.drawNonce.2.entropy)
      (lastOk : after.LastOk)
  | lockedOut (fails : t.fails = true) (many : max 1 t.gateway.attemptLimit ≤ s.attempts + 1)
      (reaction : t.handled.reaction = ⟨[.ofStatus .forbidden], true⟩)
  | closed (fails : t.fails = false) (closes : t.handled.reaction.close = true)

/-- A response of success is sent as such, and the count of failures stays. -/
theorem respond_counts (secured : s.Secured kind password) (lastOk : s.LastOk)
    (ok : response.status? = some .ok) (g : Gateway) :
    ∃ reply after left, respond response s g = ⟨⟨[reply], false⟩, some after, left⟩ ∧
      reply.status? = some .ok ∧ after.attempts = s.attempts ∧ after.LastOk := by
  cases asked : s.peerNonce with
  | none => exact ⟨response, s, g, respond_of_none asked response g, ok, rfl, lastOk⟩
  | some nonce =>
    obtain ⟨ciphered, -, responds⟩ := respond_of_some secured asked response g
    refine ⟨_, _, _, responds, Session.status?_signedResponse.trans ok, rfl, ?_⟩
    intro last same
    obtain rfl : response = last := Option.some.inj same
    exact ok

theorem fails_of_opened (opened : t.opened = some s) : t.fails = s.fails t.envelope := by
  rw [Turn.fails, opened, Option.map_some, Option.getD_some]

theorem challenges_of_status {reply : Envelope} (written : t.handled.reaction.writes = [reply])
    (status : reply.status? ≠ some .unauthorized) : t.challenges = 0 := by
  rw [Turn.challenges, written, List.countP_singleton]
  exact if_neg (by simpa using status)

theorem resets_of_secured (opened : t.opened = some s) (secured : s.Secured kind password) :
    t.resets = match (s.authenticate t.envelope t.gateway).result with
      | .ok (.accepted _) => true
      | _ => false := by
  simp only [Turn.resets, opened, secured.needsNegotiation, Bool.false_eq_true, if_false]

theorem fails_of_secured (secured : s.Secured kind password) (e : Envelope) :
    s.fails e = (!s.replays e &&
      e.header.bytes? .mac != some (s.requestChecksum kind password e.payload)) := by
  simp only [Session.fails, secured.authentication, secured.credential]

/-- A client that asks for the last response gets it, whatever checksum it sends. -/
theorem judge_of_replays (asks : s.replays e = true) (kind : ChecksumKind) (password : String)
    (g : Gateway) : ∃ response nonce, s.lastResponse = some response ∧
      s.judge kind password e g = ⟨.replay response, { s with peerNonce := some nonce }, g⟩ := by
  obtain ⟨⟨challenges, last⟩, given⟩ : (e.header.contains .challenge = true ∧
      s.lastResponse.isSome = true) ∧ (e.header.bytes? .nonce).isSome = true := by
    simpa [Session.replays] using asks
  obtain ⟨response, last⟩ := Option.isSome_iff_exists.mp last
  obtain ⟨nonce, given⟩ := Option.isSome_iff_exists.mp given
  refine ⟨response, nonce, last, ?_⟩
  simp only [Session.judge, challenges, last, given]

theorem counts_of_replays (opened : t.opened = some s) (secured : s.Secured kind password)
    (lastOk : s.LastOk) (asks : s.replays t.envelope = true) :
    ∃ reply after left, t.handled = ⟨⟨[reply], false⟩, some after, left⟩ ∧
      reply.status? = some .ok ∧ after.attempts = s.attempts ∧ after.LastOk ∧
      t.fails = false ∧ t.resets = false := by
  have asking : Session.replays { s with peerNonce := none } t.envelope = true := asks
  obtain ⟨response, nonce, last, judged⟩ := judge_of_replays asking kind password t.gateway
  have authenticates := secured.authenticate_eq t.envelope t.gateway
  rw [judged] at authenticates
  have challenged : Session.Secured { s with peerNonce := some nonce } kind password :=
    ⟨secured.authentication, secured.credential⟩
  obtain ⟨reply, after, left, responds, ok, attempts, still⟩ :=
    respond_counts challenged lastOk (lastOk response last) t.gateway
  refine ⟨reply, after, left, ?_, ok, attempts, still, ?_, ?_⟩
  · rw [handled_of_opened opened, handleIn, secured.needsNegotiation, if_neg (by decide),
      authenticates]
    exact responds
  · rw [fails_of_opened opened, fails_of_secured secured, asks]
    rfl
  · rw [resets_of_secured opened secured, authenticates]

theorem counts_of_secured (opened : t.opened = some s) (secured : s.Secured kind password)
    (lastOk : s.LastOk) : Counts kind t s := by
  cases asks : s.replays t.envelope with
  | true =>
    obtain ⟨reply, after, left, handled, ok, attempts, still, fails, resets⟩ :=
      counts_of_replays opened secured lastOk asks
    have none : t.challenges = 0 :=
      challenges_of_status (by rw [handled]) (by rw [ok]; decide)
    exact .kept fails resets none (by rw [handled]) (by rw [handled]) attempts still
  | false =>
    have handles := handled_of_opened opened
    have authenticates := secured.authenticate_eq t.envelope t.gateway
    have resets := resets_of_secured opened secured
    have fails := (fails_of_opened opened).trans (fails_of_secured secured t.envelope)
    rw [asks, Bool.not_false, Bool.true_and] at fails
    rw [handleIn, secured.needsNegotiation, if_neg (by decide), authenticates] at handles
    rw [authenticates] at resets
    have judged := Session.judged_judge kind password t.envelope { s with peerNonce := none }
      t.gateway
    generalize Session.judge kind password t.envelope { s with peerNonce := none } t.gateway =
      outcome at judged handles resets
    cases judged with
    | replayed challenges last given =>
      have asking : s.replays t.envelope = true := by
        have last : s.lastResponse = _ := last
        simp [Session.replays, challenges, last, given]
      rw [asking] at asks
      cases asks
    | @accepted clear mac deciphered =>
      have mac : t.envelope.header.bytes? .mac =
        some (s.requestChecksum kind password t.envelope.payload) := mac
      rw [mac, bne_self_eq_false] at fails
      dsimp only at handles resets
      cases decodes : Bysant.decode clear with
      | ok values =>
        rw [answer_eq decodes] at handles
        have accepted : Session.Secured
            { s with attempts := 0, peerNonce := t.envelope.header.bytes? .nonce } kind password :=
          ⟨secured.authentication, secured.credential⟩
        have succeeds : (answerEnvelope s.clientId values t.gateway).status? = some .ok := rfl
        obtain ⟨reply, after, left, responds, ok, attempts, still⟩ :=
          respond_counts accepted lastOk succeeds (answeredGateway s.clientId clear values t.gateway)
        have handled := handles.trans responds
        have none : t.challenges = 0 :=
          challenges_of_status (by rw [handled]) (by rw [ok]; decide)
        exact .reset fails resets none (by rw [handled]) attempts still
      | error _ =>
        rw [answer_of_error decodes] at handles
        exact .closed fails (by rw [handles]; rfl)
    | unreadable mac =>
      have mac : t.envelope.header.bytes? .mac =
        some (s.requestChecksum kind password t.envelope.payload) := mac
      rw [mac, bne_self_eq_false] at fails
      exact .closed fails (by rw [handles])
    | challenged mac few drawn =>
      have mac : t.envelope.header.bytes? .mac ≠
        some (s.requestChecksum kind password t.envelope.payload) := mac
      subst drawn
      let failed : Session := { s with attempts := s.attempts + 1, peerNonce := none }
      have handled : t.handled =
          ⟨⟨[Session.challengeEnvelope kind t.gateway.drawNonce.1], false⟩,
            some (failed.renewNonce t.gateway).session, (failed.renewNonce t.gateway).gateway⟩ :=
        handles
      exact .challenged (fails.trans (bne_iff_ne.mpr mac)) resets few
        (congrArg Handled.reaction handled) (congrArg Handled.session handled) rfl rfl
        (congrArg (fun h => h.gateway.entropy) handled) lastOk
    | lockedOut mac many =>
      have mac : t.envelope.header.bytes? .mac ≠
        some (s.requestChecksum kind password t.envelope.payload) := mac
      exact .lockedOut (fails.trans (bne_iff_ne.mpr mac)) many (by rw [handles])

theorem counts_of_needsNegotiation (opened : t.opened = some s)
    (needs : s.profile.needsNegotiation = true) (lastOk : s.LastOk) : Counts kind t s := by
  have missing : s.profile.credential = none := by
    simpa [Security.Profile.needsNegotiation] using (Bool.and_eq_true_iff.mp needs).2
  have fails : t.fails = false := by
    rw [fails_of_opened opened]
    unfold Session.fails
    rw [missing]
    cases s.profile.authentication <;> rfl
  have handles := handled_of_opened opened
  rw [handleIn, if_pos needs] at handles
  have resets : t.resets = match s.negotiate t.envelope t.gateway with
      | .ok outcome => decide (outcome.session.negotiation.stage = .done)
      | .error _ _ _ => false := by
    simp only [Turn.resets, opened, needs, if_true]
  have negotiated := Session.negotiated_negotiate t.envelope s t.gateway
  generalize s.negotiate t.envelope t.gateway = step at negotiated handles resets
  cases negotiated with
  | failed kept => exact .closed fails (by rw [handles]; rfl)
  | lost missing => exact .closed fails (by rw [handles]; rfl)
  | keyOffered idle needs plain keyDrawn saltDrawn status =>
    have none : t.challenges = 0 :=
      challenges_of_status (by rw [handles]; rfl) (by rw [status]; decide)
    exact .kept fails resets none (by rw [handles]) (congrArg Handled.session handles) rfl lastOk
  | passwordOffered waits ours salted theirs signed shared passwordDrawn saltDrawn status =>
    have none : t.challenges = 0 :=
      challenges_of_status (by rw [handles]; rfl) (by rw [status]; decide)
    exact .kept fails resets none (by rw [handles]) (congrArg Handled.session handles) rfl lastOk
  | committed waits shared offered salted authentication mac =>
    have none : t.challenges = 0 := by
      rw [Turn.challenges, handles]
      rfl
    exact .reset fails resets none (congrArg Handled.session handles) rfl lastOk

theorem counts_of_opened (opened : t.opened = some s)
    (authentication : s.profile.authentication = some kind) (lastOk : s.LastOk) :
    Counts kind t s := by
  cases needs : s.profile.needsNegotiation with
  | true => exact counts_of_needsNegotiation opened needs lastOk
  | false =>
    obtain ⟨password, secured⟩ := exists_secured authentication needs
    exact counts_of_secured opened secured lastOk

/-! ## All turns -/

/-- The count of failures of a session behind turns that have left the connection open. -/
structure Tallied (limit : Nat) (turns : List Turn) (s : Session) : Prop where
  few : s.attempts < max 1 limit
  challenges : s.attempts = Turn.challengesSince turns
  failures : s.attempts = Turn.failuresSince turns
  lastOk : s.LastOk

theorem tallied_start (limit : Nat) (store : Store) (client : String) :
    Tallied limit [] (.start store client) where
  few := Nat.lt_of_lt_of_le Nat.zero_lt_one (Nat.le_max_left 1 limit)
  challenges := rfl
  failures := rfl
  lastOk := nofun

theorem Tallied.turn (tallied : Tallied limit front s) (opened : t.opened = some s)
    (authentication : s.profile.authentication = some kind)
    (same : t.gateway.attemptLimit = limit) (stays : t.handled.reaction.close = false) :
    ∃ after, t.handled.session = some after ∧ Tallied limit (front ++ [t]) after := by
  obtain ⟨few, challenges, failures, lastOk⟩ := tallied
  cases counts_of_opened opened authentication lastOk with
  | @kept after fails resets none stays session attempts lastOk =>
    refine ⟨after, session, by rw [attempts]; exact few, ?_, ?_, lastOk⟩
    · rw [Turn.challengesSince_concat, resets, none, attempts, challenges]
      rfl
    · rw [Turn.failuresSince_concat, resets, fails, attempts, failures]
      rfl
  | @reset after fails resets none session attempts lastOk =>
    refine ⟨after, session, ?_, ?_, ?_, lastOk⟩
    · rw [attempts]
      exact Nat.lt_of_lt_of_le Nat.zero_lt_one (Nat.le_max_left 1 limit)
    · rw [Turn.challengesSince_concat, resets, attempts, if_pos rfl]
    · rw [Turn.failuresSince_concat, resets, attempts, if_pos rfl]
  | @challenged after fails resets few reaction session attempts nonce drawn lastOk =>
    have one : t.challenges = 1 := by
      rw [Turn.challenges, reaction, List.countP_singleton]
      exact if_pos (decide_eq_true (status?_challengeEnvelope kind _))
    refine ⟨after, session, by rw [attempts, ← same]; exact few, ?_, ?_, lastOk⟩
    · rw [Turn.challengesSince_concat, resets, one, attempts, challenges]
      rfl
    · rw [Turn.failuresSince_concat, resets, fails, attempts, failures]
      rfl
  | lockedOut fails many reaction =>
    rw [reaction] at stays
    cases stays
  | closed fails closes =>
    rw [closes] at stays
    cases stays

/-- An envelope that belongs to no session closes the connection. -/
theorem closes_of_not_opened (none : t.opened = none) : t.handled.reaction.close = true := by
  rw [Turn.handled, handle, show sessionFor _ _ _ = _ from none]

/-- What a connection has counted before a turn is what the session of the turn has counted. -/
theorem tallied_of_opened (opened : t.opened = some s)
    (fresh : t.session = none → front = [])
    (tallied : t.session = some s → Tallied limit front s) : Tallied limit front s := by
  cases session : t.session with
  | some current =>
    rw [Turn.opened, session] at opened
    obtain rfl := eq_of_sessionFor opened
    exact tallied session
  | none =>
    rw [fresh session]
    rw [Turn.opened, session] at opened
    rw [eq_start_of_sessionFor opened]
    exact tallied_start limit t.gateway.store s.clientId

/-- The first turn that leaves the connection open opens a session. -/
theorem Course.fresh (course : Course turns session g)
    (stays : ∀ t ∈ turns, t.handled.reaction.close = false) (none : session = none) :
    turns = [] := by
  induction course with
  | created g => rfl
  | @handled turns session g course e ih =>
    exfalso
    let t : Turn := ⟨e, session, g⟩
    have open_ : t.handled.reaction.close = false :=
      stays t (List.mem_append_right _ List.mem_cons_self)
    cases opened : t.opened with
    | none =>
      rw [closes_of_not_opened opened] at open_
      cases open_
    | some s =>
      obtain ⟨after, same, -⟩ := (leads_of_sessionFor opened).continues s rfl
      cases none.symm.trans same
  | meanwhile course later ih => exact ih stays none

theorem Course.tallied (course : Course turns session g)
    (stays : ∀ t ∈ turns, t.handled.reaction.close = false)
    (limits : ∀ t ∈ turns, t.gateway.attemptLimit = limit) (current : session = some s)
    (authentication : s.profile.authentication = some kind) : Tallied limit turns s := by
  induction course generalizing s with
  | created g => cases current
  | @handled turns session g course e ih =>
    let t : Turn := ⟨e, session, g⟩
    have last : t ∈ turns ++ [t] := List.mem_append_right _ List.mem_cons_self
    have before : ∀ u ∈ turns, u.handled.reaction.close = false := fun u member =>
      stays u (List.mem_append_left _ member)
    cases opened : t.opened with
    | none =>
      have closes := closes_of_not_opened opened
      rw [stays t last] at closes
      cases closes
    | some s₀ =>
      obtain ⟨after, same, continues⟩ := (leads_of_sessionFor opened).continues s₀ rfl
      obtain rfl : s = after := Option.some.inj (current.symm.trans same)
      have authenticates := continues.authentication.symm.trans authentication
      have tallied : Tallied limit turns s₀ :=
        tallied_of_opened opened (course.fresh before) fun held =>
          ih before (fun u member => limits u (List.mem_append_left _ member)) held authenticates
      obtain ⟨after, same, tallied⟩ :=
        tallied.turn opened authenticates (limits t last) (stays t last)
      obtain rfl : s = after := Option.some.inj (current.symm.trans same)
      exact tallied
  | meanwhile course later ih => exact ih stays limits current authentication

/-- Every turn is taken in the state that the turns in front of it have led to. -/
theorem Course.before (course : Course turns session g) (split : front ++ [t] <+: turns) :
    Course front t.session t.gateway := by
  induction course with
  | created g => simp at split
  | @handled turns session g course e ih =>
    rcases List.prefix_concat_iff.mp split with same | earlier
    · obtain ⟨rfl, last⟩ := List.append_inj' same rfl
      obtain rfl := List.singleton_inj.mp last
      exact course
    · exact ih earlier
  | meanwhile course later ih => exact ih split

end Connection

end Telemetry
