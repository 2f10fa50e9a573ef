import Telemetry.Proofs.Gateway.Admission
import Telemetry.Proofs.Store.Clients
/-!
# A connection serves one client

The first envelope that a connection accepts names its client, for good. An envelope that names
another client only closes the connection, and one that names none is handled as if it named the
session's. Whatever is handled, nothing that is kept of other clients changes.
-/

namespace Telemetry

open Bysant (Envelope Header HeaderKey)

open Security (ChecksumKind)

variable {s : Session} {g : Gateway} {e e' : Envelope} {other : String}

namespace Session

/-! ## Other clients are spared -/

theorem spares_renewNonce (different : other ≠ s.clientId) (g : Gateway) :
    g.store.Spares other (s.renewNonce g).gateway.store :=
  Store.spares_updateProfile different _

theorem spares_signResponse (different : other ≠ s.clientId) (response : Envelope) (g : Gateway) :
    g.store.Spares other (s.signResponse response g).gateway.store := by
  unfold signResponse
  split
  · dsimp only
    split
    · exact Store.Spares.refl _ _
    · exact spares_renewNonce different g
  · exact Store.Spares.refl _ _

/-- Judging a request spares other clients, and it does not change whose session it is. -/
theorem authenticate_spec (e : Envelope) (s : Session) (g : Gateway) :
    (s.authenticate e g).session.clientId = s.clientId ∧
      ∀ other, other ≠ s.clientId → g.store.Spares other (s.authenticate e g).gateway.store := by
  unfold authenticate
  dsimp only
  split
  · exact ⟨rfl, fun other _ => Store.Spares.refl _ _⟩
  · rename_i kind _
    split
    · exact ⟨rfl, fun other _ => Store.Spares.refl _ _⟩
    · rename_i password _
      have judged := judged_judge kind password e { s with peerNonce := none } g
      generalize judge kind password e { s with peerNonce := none } g = outcome at judged
      cases judged with
      | challenged mac few drawn =>
        subst drawn
        exact ⟨rfl, fun other different => spares_renewNonce
          (s := { s with attempts := s.attempts + 1, peerNonce := none }) different g⟩
      | _ => exact ⟨rfl, fun other _ => Store.Spares.refl _ _⟩

/-- A step of a negotiation spares other clients. -/
theorem spares_negotiate {outcome : Outcome (Option Envelope)} (different : other ≠ s.clientId)
    (step : s.negotiate e g = .ok outcome) : g.store.Spares other outcome.gateway.store := by
  obtain ⟨-, ⟨-, same⟩ | ⟨password, -, stored⟩⟩ := store_negotiate step
  · rw [same]
    exact Store.Spares.refl _ _
  · rw [stored]
    exact Store.spares_updateProfile different _

end Session

namespace Connection

theorem spares_respond (different : other ≠ s.clientId) (response : Envelope) (g : Gateway) :
    g.store.Spares other (respond response s g).gateway.store := by
  rw [(respond_effects response s g).2]
  exact Session.spares_signResponse different response g

/-- Whether or not a payload decodes, other clients have nothing to do with it. -/
theorem spares_answer {client : String} {payload : Bytes} {response : Envelope} {left : Gateway}
    (different : other ≠ client) (answered : answer client payload g = .ok (response, left)) :
    g.store.Spares other left.store := by
  cases decodes : Bysant.decode payload with
  | error error =>
    rw [answer_of_error decodes] at answered
    cases answered
  | ok values =>
    rw [answer_eq decodes] at answered
    obtain ⟨-, rfl⟩ := Prod.mk.inj (Except.ok.inj answered)
    refine Store.Spares.trans ?_ (Store.spares_dequeue different)
    unfold takenIn
    split
    · exact Store.Spares.refl _ _
    · exact Store.spares_receive different _ _

/-- An envelope of a session touches what is kept of the session's client only. -/
theorem spares_handleIn (different : other ≠ s.clientId) (e : Envelope) (g : Gateway) :
    g.store.Spares other (handleIn e s g).gateway.store := by
  unfold handleIn
  split
  · cases step : s.negotiate e g with
    | ok outcome => exact Session.spares_negotiate different step
    | error error after left =>
      obtain ⟨rfl, rfl⟩ := Session.unchanged_of_error step
      exact Store.Spares.refl _ _
  · obtain ⟨client, spared⟩ := Session.authenticate_spec e s g
    have spared := spared other different
    rw [← client] at different
    generalize s.authenticate e g = outcome at different spared
    obtain ⟨verdict, after, left⟩ := outcome
    rcases verdict with error | payload | response | ⟨response, closes⟩
    · exact spared
    · dsimp only
      cases answered : answer after.clientId payload left with
      | ok response =>
        exact spared.trans ((spares_answer different answered).trans
          (spares_respond different _ _))
      | error error => exact spared
    · exact spared.trans (spares_respond different _ _)
    · exact spared

end Connection

/-! ## Envelopes that name no client -/

/-- The envelope with the name of a client in its header. -/
def Bysant.Envelope.naming (e : Envelope) (client : String) : Envelope :=
  { e with header := e.header.insert .id (.text client) }

/-- Two envelopes differ in the client they name at most. -/
structure Bysant.Envelope.Alike (e e' : Envelope) : Prop where
  payload : e'.payload = e.payload
  header : ∀ key, key ≠ .id → e'.header.get? key = e.header.get? key

namespace Bysant.Envelope

theorem alike_naming (e : Envelope) (client : String) : e.Alike (e.naming client) :=
  ⟨rfl, fun _ different => Header.get?_insert_of_ne different.symm⟩

theorem senderId?_naming (e : Envelope) (client : String) :
    (e.naming client).senderId? = some client := by
  rw [senderId?, Header.text?, naming, Header.get?_insert_self]
  rfl

variable {key : HeaderKey}

theorem Alike.bytes? (h : e.Alike e') (different : key ≠ .id) :
    e'.header.bytes? key = e.header.bytes? key := by
  rw [Header.bytes?, Header.bytes?, h.header key different]

theorem Alike.contains (h : e.Alike e') (different : key ≠ .id) :
    e'.header.contains key = e.header.contains key := by
  rw [Header.contains, Header.contains, h.header key different]

end Bysant.Envelope

namespace Session

/-- The name of the client has no part in judging a request. -/
theorem authenticate_congr (h : e.Alike e') (s : Session) (g : Gateway) :
    s.authenticate e' g = s.authenticate e g := by
  have challenge : e'.header.contains .challenge = e.header.contains .challenge :=
    h.contains (by decide)
  have nonce : e'.header.bytes? .nonce = e.header.bytes? .nonce := h.bytes? (by decide)
  have mac : e'.header.bytes? .mac = e.header.bytes? .mac := h.bytes? (by decide)
  unfold authenticate judge
  simp only [challenge, nonce, mac, h.payload]

/-- The name of the client has no part in negotiating a password. -/
theorem negotiate_congr (h : e.Alike e') (s : Session) (g : Gateway) :
    s.negotiate e' g = s.negotiate e g := by
  have required (stage : Stage) {key : HeaderKey} (different : key ≠ .id) :
      Negotiation.require stage e'.header key = Negotiation.require stage e.header key := by
    rw [Negotiation.require, Negotiation.require, h.bytes? different]
  have others : Negotiation.headerKeys.any e'.header.contains =
      Negotiation.headerKeys.any e.header.contains := by
    simp only [Negotiation.headerKeys, List.any_cons, List.any_nil]
    rw [h.contains (by decide), h.contains (by decide), h.contains (by decide),
      h.contains (by decide)]
  have accepted : s.acceptKey e' = s.acceptKey e := by
    unfold acceptKey checkPublicKey
    rw [required _ (by decide), required _ (by decide), required _ (by decide)]
  have acknowledged : s.acknowledged e' = s.acknowledged e := by
    unfold acknowledged
    rw [required _ (by decide)]
  unfold negotiate offerKey offerPassword commitPassword
  simp only [others, accepted, acknowledged]

end Session

/-- The turn was taken when no session was open, and its envelope opened none. -/
def Turn.Ignored (t : Turn) : Prop := t.session = none ∧ t.opened = none

namespace Connection

theorem handleIn_congr (h : e.Alike e') (s : Session) (g : Gateway) :
    handleIn e' s g = handleIn e s g := by
  unfold handleIn
  rw [Session.authenticate_congr h, Session.negotiate_congr h]

/-- In an open session, an envelope that names no client is as good as one that names the
session's. -/
theorem handle_of_unnamed (unnamed : e.senderId? = none) (s : Session) (g : Gateway) :
    handle e (some s) g = handle (e.naming s.clientId) (some s) g := by
  have own : sessionFor e (some s) g = some s := by
    unfold sessionFor
    rw [unnamed]
  have named : sessionFor (e.naming s.clientId) (some s) g = some s :=
    opened_of_names (e.senderId?_naming s.clientId) g
  rw [handle, own, handle, named]
  exact (handleIn_congr (e.alike_naming s.clientId) s g).symm

/-- An envelope that names another client closes the connection, and nothing else happens. -/
theorem handle_of_other {client : String} (names : e.senderId? = some client)
    (different : client ≠ s.clientId) (g : Gateway) :
    handle e (some s) g = ⟨⟨[], true⟩, some s, g⟩ := by
  have none : sessionFor e (some s) g = none := by
    unfold sessionFor
    rw [names]
    exact if_neg different
  rw [handle, none]

/-! ## All turns -/

variable {turns : List Turn} {c : Connection} {session : Option Session} {stays : Bool}

/-- An envelope that opens a session names its client. -/
theorem names_of_sessionFor (found : sessionFor e none g = some s) :
    e.senderId? = some s.clientId := by
  unfold sessionFor at found
  cases names : e.senderId? with
  | none =>
    rw [names] at found
    cases found
  | some client =>
    rw [names] at found
    obtain rfl := Option.some.inj found
    rfl

/-- Who belongs to a session that an envelope is handled in, keeps it. -/
theorem client_of_sessionFor (found : sessionFor e session g = some s) :
    ∃ after, (handle e session g).session = some after ∧ after.clientId = s.clientId := by
  obtain ⟨after, same, continues⟩ := (leads_of_sessionFor found).continues s rfl
  exact ⟨after, same, continues.client⟩

/-- The first envelope that was accepted names this client, and all later turns were taken in a
session of this client. -/
def NamedBy (turns : List Turn) (client : String) : Prop :=
  ∃ front first rest, turns = front ++ first :: rest ∧ (∀ t ∈ front, t.Ignored) ∧
    first.session = none ∧ first.envelope.senderId? = some client ∧
    ∀ t ∈ rest, ∃ s, t.session = some s ∧ s.clientId = client

theorem NamedBy.concat {t : Turn} (named : NamedBy turns s.clientId) (inside : t.session = some s) :
    NamedBy (turns ++ [t]) s.clientId := by
  obtain ⟨front, first, rest, rfl, ignored, opens, names, others⟩ := named
  refine ⟨front, first, rest ++ [t], by simp, ignored, opens, names, fun u member => ?_⟩
  rcases List.mem_append.mp member with before | last
  · exact others u before
  · obtain rfl := List.mem_singleton.mp last
    exact ⟨s, inside, rfl⟩

/-- As long as there is no session nothing was accepted, and a session is that of the client that
was named first. -/
def BoundBy (turns : List Turn) : Option Session → Prop
  | none => ∀ t ∈ turns, t.Ignored
  | some s => NamedBy turns s.clientId

theorem BoundBy.concat (bound : BoundBy turns session) (e : Envelope) (g : Gateway) :
    BoundBy (turns ++ [⟨e, session, g⟩]) (handle e session g).session := by
  cases found : sessionFor e session g with
  | none =>
    -- the envelope is turned away, and the session stays what it was
    rw [handle, found]
    cases session with
    | none =>
      intro t member
      rcases List.mem_append.mp member with before | last
      · exact bound t before
      · obtain rfl := List.mem_singleton.mp last
        exact ⟨rfl, found⟩
    | some current => exact NamedBy.concat bound rfl
  | some s =>
    obtain ⟨after, same, client⟩ := client_of_sessionFor found
    rw [same]
    show NamedBy _ after.clientId
    rw [client]
    cases session with
    | none =>
      refine ⟨turns, ⟨e, none, g⟩, [], rfl, bound, rfl, names_of_sessionFor found, ?_⟩
      intro t member
      cases member
    | some current =>
      obtain rfl := eq_of_sessionFor found
      exact NamedBy.concat bound rfl

theorem Course.bound (course : Course turns session g) : BoundBy turns session := by
  induction course with
  | created g =>
    intro t member
    cases member
  | handled course e ih => exact ih.concat e _
  | meanwhile course later ih => exact ih

/-! ## Chunks -/

/-- An envelope spares the clients that no session belongs to. -/
theorem spares_handle
    (apart : ∀ s, (handle e session g).session = some s → other ≠ s.clientId) :
    g.store.Spares other (handle e session g).gateway.store := by
  cases found : sessionFor e session g with
  | none =>
    rw [handle, found]
    exact Store.Spares.refl _ _
  | some s =>
    obtain ⟨after, same, client⟩ := client_of_sessionFor found
    have different := apart after same
    rw [client] at different
    rw [handle, found]
    exact spares_handleIn different e g

theorem spares_handleAll {envelopes : List Envelope}
    (apart : ∀ s, (handleAll envelopes session g).session = some s → other ≠ s.clientId) :
    g.store.Spares other (handleAll envelopes session g).gateway.store := by
  induction envelopes generalizing session g with
  | nil => exact Store.Spares.refl _ _
  | cons e rest ih =>
    unfold handleAll at apart ⊢
    by_cases closes : (handle e session g).reaction.close = true
    · simp only [closes, if_true] at apart ⊢
      exact spares_handle apart
    · simp only [closes, Bool.false_eq_true, if_false] at apart ⊢
      -- the session that the first envelope leaves behind keeps its client
      refine (spares_handle fun s same => ?_).trans (ih apart)
      obtain ⟨after, same', continues⟩ := (leads_handleAll rest _ _).continues s same
      have different := apart after same'
      rwa [continues.client] at different

/-! ## One client -/

/-- How a connection that has taken these turns is bound to one client. -/
structure Binds (turns : List Turn) (c : Connection) (g : Gateway) : Prop where
  /-- The session is that of the client which the first accepted envelope names. -/
  named : ∀ s, c.session = some s → NamedBy turns s.clientId
  /-- Whoever names another client is turned away, and everything stays as it is. -/
  refuses : ∀ t ∈ turns, ∀ s, t.session = some s →
    ∀ client, t.envelope.senderId? = some client → client ≠ s.clientId →
      t.handled = ⟨⟨[], true⟩, some s, t.gateway⟩
  /-- Whoever names no client is taken for the session's. -/
  unnamed : ∀ t ∈ turns, ∀ s, t.session = some s → t.envelope.senderId? = none →
    t.handled = handle (t.envelope.naming s.clientId) (some s) t.gateway
  /-- Whatever bytes come next, nothing that is kept of any other client changes; nothing at all
  does if there is no session behind them either. -/
  spares : ∀ chunk other, (∀ s, (c.onBytes chunk g).2.1.session = some s → other ≠ s.clientId) →
    g.store.Spares other (c.onBytes chunk g).2.2.store

/-- A connection serves one client, whatever bytes it is fed. -/
theorem History.binds (history : History turns c g stays) : Binds turns c g where
  named s inside := by
    have bound := history.course.bound
    rw [inside] at bound
    exact bound
  refuses t _ s inside client names different := by
    rw [Turn.handled, inside]
    exact handle_of_other names different t.gateway
  unnamed t _ s inside names := by
    rw [Turn.handled, inside]
    exact handle_of_unnamed names s t.gateway
  spares chunk other apart := spares_handleAll apart

/-- A client that says who it is, a report without a name, and an envelope of somebody else. -/
def visitors : List Envelope := [hello, report, ⟨⟨[(.id, .text "other")]⟩, [], []⟩]

theorem sound_visitors : ∀ e ∈ visitors, (Bysant.Value.envelope e).Sound Bysant.maxDepth := by
  have representable : ∀ e ∈ visitors, (Bysant.Value.envelope e).Representable := by decide +kernel
  have wellFormed : ∀ e ∈ visitors, (Bysant.Value.envelope e).WellFormed := by decide +kernel
  exact fun e member => Bysant.sound_iff.mpr ⟨representable e member, wellFormed e member⟩

theorem binds_visitors : ∃ c left,
    (History (turnsOf visitors none securedGateway) c left false ∧
      (turnsOf visitors none securedGateway).length = 3 ∧
      c.session.map Session.clientId = some "dev") ∧
    Binds (turnsOf visitors none securedGateway) c left := by
  obtain ⟨c, session, history⟩ := exists_history sound_visitors securedGateway
  have closes : (handleAll visitors none securedGateway).reaction.close = true := by decide +kernel
  have named : (handleAll visitors none securedGateway).session.map Session.clientId =
      some "dev" := by decide +kernel
  rw [closes] at history
  exact ⟨c, _, ⟨history, by decide +kernel, by rw [session, named]⟩, history.binds⟩

end Connection

end Telemetry
