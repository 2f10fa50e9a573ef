import Telemetry.Proofs.Gateway.Handling
/-!
# The history of a connection

A history lists the envelopes that a connection has handled since it was created, each with the
session and the gateway at that moment. In between, other connections and the administrators may
have used the gateway. Every envelope is handled in a state that the ones before have led to, and a
session whose client has to authenticate belongs to a client with a stored profile.
-/

namespace Telemetry

open Bysant (Envelope EnvelopeDecoder Value maxDepth encodeAll)

open Session (Leads)

/-- An envelope that a connection handles, and the state in which it does. -/
structure Turn where
  envelope : Envelope
  session : Option Session
  gateway : Gateway

namespace Turn

def handled (t : Turn) : Handled := Connection.handle t.envelope t.session t.gateway

/-- The session that the envelope belongs to, if it does not name a wrong client. -/
def opened (t : Turn) : Option Session := Connection.sessionFor t.envelope t.session t.gateway

end Turn

namespace Connection

variable {turns : List Turn} {session : Option Session} {s : Session} {g g' : Gateway}
  {c : Connection} {e : Envelope} {envelopes : List Envelope} {stays : Bool}

/-- The turns in which envelopes are handled, up to one that closes the connection. -/
def turnsOf : List Envelope → Option Session → Gateway → List Turn
  | [], _, _ => []
  | e :: rest, session, g =>
    let first := handle e session g
    ⟨e, session, g⟩ ::
      if first.reaction.close then [] else turnsOf rest first.session first.gateway

/-- The turns that a connection has taken since it was created, and whether it is still open. As long
as it is, it is fed chunks of any bytes. Meanwhile the gateway may become another one. -/
inductive History : List Turn → Connection → Gateway → (stays : Bool) → Prop where
  | created (g : Gateway) : History [] {} g true
  | fed {turns : List Turn} {c : Connection} {g : Gateway} (history : History turns c g true)
      (chunk : Bytes) : History (turns ++ turnsOf (decode c.decoder chunk).2.1 c.session g)
        (c.onBytes chunk g).2.1 (c.onBytes chunk g).2.2 !(c.onBytes chunk g).1.close
  | meanwhile {turns : List Turn} {c : Connection} {g g' : Gateway} {stays : Bool}
      (history : History turns c g stays) (later : g.Later g') : History turns c g' stays

/-! ## Chunks and turns -/

theorem turnsOf_singleton (e : Envelope) (session : Option Session) (g : Gateway) :
    turnsOf [e] session g = [⟨e, session, g⟩] := by
  simp only [turnsOf, ite_self]

/-- A turn that leaves the connection open is followed by those of the envelopes behind. -/
theorem turnsOf_cons {t : Turn} (stays : t.handled.reaction.close = false)
    (rest : List Envelope) : turnsOf (t.envelope :: rest) t.session t.gateway =
      t :: turnsOf rest t.handled.session t.handled.gateway := by
  show t :: (if t.handled.reaction.close then []
    else turnsOf rest t.handled.session t.handled.gateway) = _
  rw [stays, if_neg (by decide)]

/-- A connection writes what it writes in its turns. -/
theorem writes_handleAll (envelopes : List Envelope) (session : Option Session) (g : Gateway) :
    (handleAll envelopes session g).reaction.writes =
      (turnsOf envelopes session g).flatMap fun t => t.handled.reaction.writes := by
  induction envelopes generalizing session g with
  | nil => rfl
  | cons e rest ih =>
    unfold handleAll turnsOf
    dsimp only
    rw [List.flatMap_cons]
    by_cases closes : (handle e session g).reaction.close = true
    · rw [if_pos closes, if_pos closes, List.flatMap_nil, List.append_nil]
      rfl
    · rw [if_neg closes, if_neg closes, ih]
      rfl

theorem writes_onBytes (c : Connection) (chunk : Bytes) (g : Gateway) :
    (c.onBytes chunk g).1.writes =
      (turnsOf (decode c.decoder chunk).2.1 c.session g).flatMap
        fun t => t.handled.reaction.writes := by
  rw [← writes_handleAll]
  unfold onBytes
  dsimp only
  cases (decode c.decoder chunk).2.2 <;> rfl

/-- The turns of a connection as one handles its envelopes one after the other. -/
inductive Course : List Turn → Option Session → Gateway → Prop where
  | created (g : Gateway) : Course [] none g
  | handled {turns : List Turn} {session : Option Session} {g : Gateway}
      (course : Course turns session g) (e : Envelope) :
      Course (turns ++ [⟨e, session, g⟩]) (handle e session g).session (handle e session g).gateway
  | meanwhile {turns : List Turn} {session : Option Session} {g g' : Gateway}
      (course : Course turns session g) (later : g.Later g') : Course turns session g'

theorem Course.handleAll (course : Course turns session g) (envelopes : List Envelope) :
    Course (turns ++ turnsOf envelopes session g) (handleAll envelopes session g).session
      (handleAll envelopes session g).gateway := by
  induction envelopes generalizing turns session g with
  | nil =>
    rw [turnsOf, List.append_nil]
    exact course
  | cons e rest ih =>
    have first := course.handled e
    unfold Connection.handleAll turnsOf
    dsimp only
    by_cases closes : (handle e session g).reaction.close = true
    · rw [if_pos closes, if_pos closes]
      exact first
    · rw [if_neg closes, if_neg closes]
      have others := ih first
      rwa [List.append_assoc, List.singleton_append] at others

theorem History.course (history : History turns c g stays) : Course turns c.session g := by
  induction history with
  | created g => exact .created g
  | fed history chunk ih => exact ih.handleAll _
  | meanwhile history later ih => exact ih.meanwhile later

/-- A new connection reads the envelopes whose encoding it is fed, if they keep to the format. -/
theorem decode_envelopes (sound : ∀ e ∈ envelopes, (Value.envelope e).Sound maxDepth) :
    ∃ after, decode (Connection.decoder {}) (encodeAll (envelopes.map Value.envelope)) =
      (after, envelopes, .ok ()) := by
  have soundValues : ∀ v ∈ envelopes.map Value.envelope, v.Sound maxDepth := by
    intro v member
    obtain ⟨e, inside, rfl⟩ := List.mem_map.mp member
    exact sound e inside
  have units : ∀ v ∈ envelopes.map Value.envelope, v.unit?.isSome := by
    intro v member
    obtain ⟨e, -, rfl⟩ := List.mem_map.mp member
    rfl
  have same : (envelopes.map Value.envelope).filterMap Value.unit? = envelopes := by
    rw [List.filterMap_map]
    exact List.filterMap_some
  obtain ⟨after, decoded, -⟩ := decode_encodeAll EnvelopeDecoder.follows_new rfl soundValues units
  rw [same] at decoded
  exact ⟨after, decoded⟩

theorem exists_history (sound : ∀ e ∈ envelopes, (Value.envelope e).Sound maxDepth) (g : Gateway) :
    let handled := handleAll envelopes none g
    ∃ c : Connection, c.session = handled.session ∧
      History (turnsOf envelopes none g) c handled.gateway !handled.reaction.close := by
  intro handled
  obtain ⟨after, decoded⟩ := decode_envelopes sound
  have fed := (History.created g).fed (encodeAll (envelopes.map Value.envelope))
  have handles : onBytes {} (encodeAll (envelopes.map Value.envelope)) g =
      (handled.reaction, ⟨after, handled.session⟩, handled.gateway) := by
    rw [onBytes, decoded]
  rw [handles, decoded] at fed
  exact ⟨_, rfl, fed⟩

/-- A connection is still open behind turns that all leave it open. -/
theorem stays_handleAll
    (stays : ∀ t ∈ turnsOf envelopes session g, t.handled.reaction.close = false) :
    (handleAll envelopes session g).reaction.close = false := by
  induction envelopes generalizing session g with
  | nil => rfl
  | cons e rest ih =>
    unfold turnsOf at stays
    obtain ⟨first, others⟩ := List.forall_mem_cons.mp stays
    have first : (handle e session g).reaction.close = false := first
    simp only [first, Bool.false_eq_true, if_false] at others
    simp only [handleAll, first, Bool.false_eq_true, if_false]
    exact ih others

/-! ## One turn -/

variable {s s' : Session}

theorem eq_of_sessionFor (found : sessionFor e (some s) g = some s') : s' = s := by
  unfold sessionFor at found
  split at found
  · rename_i same _
    exact (Option.some.inj (same.trans found)).symm
  · rename_i same _
    split at found
    · exact (Option.some.inj (same.trans found)).symm
    · cases found
  · rename_i same _
    cases same
  · cases found

/-- A session opens with the profile that is stored for the client it names. -/
theorem eq_start_of_sessionFor (found : sessionFor e none g = some s) :
    s = .start g.store s.clientId := by
  unfold sessionFor at found
  cases names : e.senderId? with
  | none =>
    rw [names] at found
    cases found
  | some client =>
    rw [names] at found
    obtain rfl := Option.some.inj found
    rfl

theorem handled_of_opened {t : Turn} (opened : t.opened = some s) :
    t.handled = handleIn t.envelope s t.gateway := by
  rw [Turn.handled, handle, show sessionFor _ _ _ = _ from opened]

/-- An envelope that names the client of an open session belongs to it. -/
theorem opened_of_names (names : e.senderId? = some s.clientId) (g : Gateway) :
    Turn.opened ⟨e, some s, g⟩ = some s := by
  unfold Turn.opened sessionFor
  dsimp only
  rw [names]
  exact if_pos rfl

theorem leads_of_sessionFor (found : sessionFor e session g = some s) :
    Leads (some s) g (handle e session g).session (handle e session g).gateway := by
  rw [handle, found]
  exact leads_handleIn e s g

theorem leads_handle (e : Envelope) (session : Option Session) (g : Gateway) :
    Leads session g (handle e session g).session (handle e session g).gateway := by
  cases found : sessionFor e session g with
  | none =>
    rw [handle, found]
    exact Leads.of_later (Gateway.Later.refl g) session
  | some s =>
    have leads := leads_of_sessionFor found
    cases session with
    | none =>
      refine ⟨leads.later, ?_⟩
      intro s same
      cases same
    | some current =>
      obtain rfl := eq_of_sessionFor found
      exact leads

theorem leads_handleAll (envelopes : List Envelope) (session : Option Session) (g : Gateway) :
    Leads session g (handleAll envelopes session g).session
      (handleAll envelopes session g).gateway := by
  induction envelopes generalizing session g with
  | nil => exact Leads.of_later (Gateway.Later.refl g) session
  | cons e rest ih =>
    have first := leads_handle e session g
    unfold handleAll
    by_cases closes : (handle e session g).reaction.close = true
    · simp only [closes, if_true]
      exact first
    · simp only [closes, Bool.false_eq_true, if_false]
      exact first.trans (ih _ _)

/-- What a connection is fed is part of what happens to the gateway in the view of the others. -/
theorem later_onBytes (c : Connection) (chunk : Bytes) (g : Gateway) :
    g.Later (c.onBytes chunk g).2.2 :=
  (leads_handleAll (decode c.decoder chunk).2.1 c.session g).later

/-- If the client of a session has to authenticate, it has a stored profile. -/
def Known (session : Option Session) (g : Gateway) : Prop :=
  ∀ s, session = some s → s.profile.authentication.isSome → (g.store.profile? s.clientId).isSome

/-- A session that opens has the profile that is stored for its client, if there is one. -/
theorem known_start (store : Store) (client : String)
    (authenticates : (Session.start store client).profile.authentication.isSome) :
    (store.profile? client).isSome := by
  unfold Session.start at authenticates
  cases stored : store.profile? client with
  | none =>
    rw [stored] at authenticates
    cases authenticates
  | some p => rfl

theorem Known.opened (known : Known session g) (found : sessionFor e session g = some s) :
    Known (some s) g := by
  cases session with
  | some current =>
    obtain rfl := eq_of_sessionFor found
    exact known
  | none =>
    rw [eq_start_of_sessionFor found]
    intro s' same authenticates
    obtain rfl := Option.some.inj same
    exact known_start g.store s.clientId authenticates

/-- No profile is taken away, so that a known client stays known. -/
theorem Known.trans (known : Known (some s) g) (leads : Leads (some s) g session g') :
    Known session g' := by
  intro s' same authenticates
  obtain ⟨_, same', continues⟩ := leads.continues s rfl
  obtain rfl := Option.some.inj (same.symm.trans same')
  rw [continues.client]
  rw [continues.authentication] at authenticates
  exact leads.later.known _ (known s rfl authenticates)

theorem Known.handle (known : Known session g) (e : Envelope) :
    Known (handle e session g).session (handle e session g).gateway := by
  cases found : sessionFor e session g with
  | none =>
    rw [Connection.handle, found]
    exact known
  | some s => exact (known.opened found).trans (leads_of_sessionFor found)

/-! ## All turns -/

/-- How the turns of a connection go together. -/
structure Orderly (turns : List Turn) (session : Option Session) (g : Gateway) : Prop where
  known : Known session g
  /-- Every turn was taken in a state in which the client was known. -/
  knew : ∀ t ∈ turns, Known t.session t.gateway
  /-- What every turn left behind has led to the present state. -/
  leads : ∀ t ∈ turns, Leads t.handled.session t.handled.gateway session g
  /-- What a turn left behind has led to the state of every later one. -/
  ordered : turns.Pairwise fun t later =>
    Leads t.handled.session t.handled.gateway later.session later.gateway

theorem Course.orderly (course : Course turns session g) : Orderly turns session g := by
  induction course with
  | created g =>
    refine ⟨?_, ?_, ?_, List.Pairwise.nil⟩
    · intro s same
      cases same
    · intro t member
      cases member
    · intro t member
      cases member
  | @handled turns session g course e ih =>
    refine ⟨ih.known.handle e, ?_, ?_, ?_⟩
    · intro t member
      rcases List.mem_append.mp member with before | new
      · exact ih.knew t before
      · obtain rfl := List.mem_singleton.mp new
        exact ih.known
    · intro t member
      rcases List.mem_append.mp member with before | new
      · exact (ih.leads t before).trans (leads_handle e session g)
      · obtain rfl := List.mem_singleton.mp new
        exact Leads.of_later (Gateway.Later.refl _) _
    · refine List.pairwise_append.mpr ⟨ih.ordered, List.pairwise_singleton _ _, ?_⟩
      intro t before new member
      obtain rfl := List.mem_singleton.mp member
      exact ih.leads t before
  | meanwhile course later ih =>
    refine ⟨?_, ih.knew, fun t member => ?_, ih.ordered⟩
    · intro s same authenticates
      exact later.known _ (ih.known s same authenticates)
    · exact (ih.leads t member).trans (Leads.of_later later _)

theorem History.orderly (history : History turns c g stays) : Orderly turns c.session g :=
  history.course.orderly

end Connection

end Telemetry
