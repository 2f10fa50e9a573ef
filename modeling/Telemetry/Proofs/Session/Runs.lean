import Telemetry.Proofs.Session.Negotiation
/-!
# Negotiating over a whole run

A session may be asked for the steps of negotiations, to judge requests, to sign responses and to
forget a negotiation, in any order and with any envelopes. Whatever it is asked, its negotiation
holds exactly the things that its stage needs, and these were issued since the negotiation was last
idle. So a step never misses them, a step that fails changes nothing, and there is one way for a
new password to be taken into use.
-/

namespace Telemetry

open Bysant (Envelope)

open Security (ChecksumKind KeyPair Profile checksumOfDigest)

/-- The stage behind a successful step. -/
def Stage.next? : Stage → Option Stage
  | idle => some awaitingKey
  | awaitingKey => some awaitingAck
  | awaitingAck => some done
  | done => none

namespace Session

/-- What a session can be asked for. -/
inductive Call where
  | negotiate (e : Envelope)
  | authenticate (e : Envelope)
  | signResponse (e : Envelope)
  | resetNegotiation

/-- The session and the gateway behind a call. -/
def Call.perform (s : Session) (g : Gateway) : Call → Session × Gateway
  | negotiate e =>
    match s.negotiate e g with
    | .ok outcome => (outcome.session, outcome.gateway)
    | .error _ s g => (s, g)
  | authenticate e => ((s.authenticate e g).session, (s.authenticate e g).gateway)
  | signResponse e => ((s.signResponse e g).session, (s.signResponse e g).gateway)
  | resetNegotiation => (s.resetNegotiation, g)

/-- A call, and the state in which it is made. -/
structure Step where
  call : Call
  session : Session
  gateway : Gateway

/-- The session behind a step. -/
def Step.after (t : Step) : Session := (t.call.perform t.session t.gateway).1

/-- The gateway behind a step. -/
def Step.left (t : Step) : Gateway := (t.call.perform t.session t.gateway).2

/-- The steps of a session since it was created with any profile, and its state. In between, others
may change the gateway at will. -/
inductive Run : List Step → Session → Gateway → Prop where
  | created (clientId : String) (profile : Profile) (g : Gateway) : Run [] { clientId, profile } g
  | called {steps : List Step} {s : Session} {g : Gateway} (run : Run steps s g) (call : Call) :
      Run (steps ++ [⟨call, s, g⟩]) (call.perform s g).1 (call.perform s g).2
  | meanwhile {steps : List Step} {s : Session} {g : Gateway} (run : Run steps s g)
      (g' : Gateway) : Run steps s g'

variable {steps front back : List Step} {t : Step} {s : Session} {g : Gateway} {n : Negotiation}
  {pair : KeyPair} {salt secret ackSalt : Bytes} {password : String}

/-! ## What was issued -/

/-- The negotiation is under way in all these steps. -/
def UnderWay (steps : List Step) : Prop := ∀ t ∈ steps, t.session.negotiation.stage ≠ .idle

/-- A step has drawn this key pair and this salt when the negotiation was last idle. -/
def KeyIssued (steps : List Step) (pair : KeyPair) (salt : Bytes) : Prop :=
  ∃ early t late e, steps = early ++ t :: late ∧ UnderWay late ∧ t.call = .negotiate e ∧
    t.session.negotiation = .idle ∧ t.after.negotiation = .awaitingKey pair salt ∧
    pair = t.gateway.drawKeyPair.1 ∧ salt = Bytes.ofString t.gateway.drawKeyPair.2.drawNonce.1

/-- A step has drawn this password and the salt for its acknowledgement, and shared the secret with
the holder of a public key by the key pair that was issued before. The negotiation has not been idle
since. -/
def PasswordIssued (steps : List Step) (salt secret : Bytes) (password : String)
    (ackSalt : Bytes) : Prop :=
  ∃ early t late e pair publicKey, steps = early ++ t :: late ∧ UnderWay late ∧
    t.call = .negotiate e ∧ t.session.negotiation = .awaitingKey pair salt ∧
    t.after.negotiation = .awaitingAck salt secret password ackSalt ∧
    KeyIssued early pair salt ∧ e.header.bytes? .autoregPubkey = some publicKey ∧
    t.session.Signed e salt publicKey ∧ pair.sharedSecret publicKey = .ok secret ∧
    password = t.gateway.drawPassword.1 ∧
    ackSalt = Bytes.ofString t.gateway.drawPassword.2.drawNonce.1

/-- The negotiation of a session behind some steps holds what its stage needs, and nothing else. -/
inductive Held (steps : List Step) : Negotiation → Prop where
  | idle : Held steps .idle
  | awaitingKey {pair : KeyPair} {salt : Bytes} (issued : KeyIssued steps pair salt) :
      Held steps (.awaitingKey pair salt)
  | awaitingAck {salt secret : Bytes} {password : String} {ackSalt : Bytes}
      (issued : PasswordIssued steps salt secret password ackSalt) :
      Held steps (.awaitingAck salt secret password ackSalt)
  | done : Held steps .done

theorem Held.complete (held : Held steps n) : n.Complete := by
  cases held with
  | idle => trivial
  | awaitingKey issued => exact ⟨rfl, rfl⟩
  | awaitingAck issued => exact ⟨rfl, rfl, rfl⟩
  | done => trivial

theorem underWay_nil : UnderWay [] := List.forall_mem_nil _

theorem UnderWay.concat (underWay : UnderWay steps) (stage : t.session.negotiation.stage ≠ .idle) :
    UnderWay (steps ++ [t]) := by
  intro u member
  rcases List.mem_append.mp member with before | new
  · exact underWay u before
  · obtain rfl := List.mem_singleton.mp new
    exact stage

/-- A further step that finds a negotiation and does not touch it. -/
theorem Held.concat (held : Held steps n) (found : t.session.negotiation = n) :
    Held (steps ++ [t]) n := by
  cases held with
  | idle => exact .idle
  | awaitingKey issued =>
    obtain ⟨early, u, late, e, rfl, underWay, given⟩ := issued
    have still : UnderWay (late ++ [t]) := underWay.concat (by rw [found]; exact nofun)
    exact .awaitingKey ⟨early, u, late ++ [t], e, by simp, still, given⟩
  | awaitingAck issued =>
    obtain ⟨early, u, late, e, pair, publicKey, rfl, underWay, given⟩ := issued
    have still : UnderWay (late ++ [t]) := underWay.concat (by rw [found]; exact nofun)
    exact .awaitingAck ⟨early, u, late ++ [t], e, pair, publicKey, by simp, still, given⟩
  | done => exact .done

theorem Held.eq_idle (held : Held steps n) (stage : n.stage = .idle) : n = .idle := by
  cases held with
  | idle => rfl
  | _ => cases stage

theorem Held.eq_awaitingKey (held : Held steps n) (stage : n.stage = .awaitingKey) :
    ∃ pair salt, n = .awaitingKey pair salt ∧ KeyIssued steps pair salt := by
  cases held with
  | awaitingKey issued => exact ⟨_, _, rfl, issued⟩
  | _ => cases stage

theorem Held.eq_awaitingAck (held : Held steps n) (stage : n.stage = .awaitingAck) :
    ∃ salt secret password ackSalt, n = .awaitingAck salt secret password ackSalt ∧
      PasswordIssued steps salt secret password ackSalt := by
  cases held with
  | awaitingAck issued => exact ⟨_, _, _, _, rfl, issued⟩
  | _ => cases stage

/-! ## One step -/

/-- A session and a gateway become others in which nothing but nonces of profiles has changed. -/
structure KeepsPasswords (s : Session) (g : Gateway) (s' : Session) (g' : Gateway) : Prop where
  session : ∃ nonce, s'.profile = { s.profile with nonce }
  stored : ∀ client, ∃ nonce,
    g'.store.profile? client = (g.store.profile? client).map fun p => { p with nonce }

variable {s' : Session} {g' : Gateway}

theorem KeepsPasswords.same (kept : KeepsPasswords s g s' g') :
    s'.profile.password = s.profile.password := by
  obtain ⟨nonce, same⟩ := kept.session
  rw [same]

theorem keepsPasswords_of_store (profile : s'.profile = s.profile) (store : g'.store = g.store) :
    KeepsPasswords s g s' g' where
  session := ⟨s.profile.nonce, profile⟩
  stored client := by
    rw [store]
    cases g.store.profile? client with
    | none => exact ⟨"", rfl⟩
    | some p => exact ⟨p.nonce, rfl⟩

theorem keepsPasswords_renewNonce (profile : s'.profile = s.profile) (g : Gateway) :
    KeepsPasswords s g (s'.renewNonce g).session (s'.renewNonce g).gateway where
  session := by
    rw [← profile]
    exact ⟨_, rfl⟩
  stored client := by
    have stored : (s'.renewNonce g).gateway.store =
      g.store.updateProfile s'.clientId fun p => { p with nonce := g.drawNonce.1 } := rfl
    rw [stored, Store.profile?_updateProfile]
    cases g.store.profile? client with
    | none => exact ⟨"", rfl⟩
    | some p =>
      by_cases same : client = s'.clientId
      · exact ⟨g.drawNonce.1, by simp only [same, if_true]⟩
      · exact ⟨p.nonce, by simp only [same, if_false, Option.map_some]⟩

/-- Judging a request has nothing to do with the negotiation, and changes nonces at most. -/
theorem authenticate_keeps (e : Envelope) (s : Session) (g : Gateway) :
    (s.authenticate e g).session.negotiation = s.negotiation ∧
      KeepsPasswords s g (s.authenticate e g).session (s.authenticate e g).gateway := by
  cases authentication : s.profile.authentication with
  | none =>
    have free : s.authenticate e g =
        ⟨.ok (.accepted e.payload), { s with peerNonce := none }, g⟩ := by
      simp only [authenticate, authentication]
    rw [free]
    exact ⟨rfl, keepsPasswords_of_store rfl rfl⟩
  | some kind =>
    cases credential : s.profile.credential with
    | none =>
      have unkeyed : s.authenticate e g =
          ⟨.error (.negotiationRequired s.clientId), { s with peerNonce := none }, g⟩ := by
        simp only [authenticate, authentication, credential]
      rw [unkeyed]
      exact ⟨rfl, keepsPasswords_of_store rfl rfl⟩
    | some password =>
      rw [Secured.authenticate_eq ⟨authentication, credential⟩]
      have judged := judged_judge kind password e { s with peerNonce := none } g
      generalize judge kind password e { s with peerNonce := none } g = outcome at judged
      cases judged with
      | challenged mac few drawn =>
        subst drawn
        exact ⟨rfl, keepsPasswords_renewNonce (by rfl) g⟩
      | _ => exact ⟨rfl, keepsPasswords_of_store rfl rfl⟩

/-- Signing a response has nothing to do with the negotiation, and changes nonces at most. -/
theorem signResponse_keeps (e : Envelope) (s : Session) (g : Gateway) :
    (s.signResponse e g).session.negotiation = s.negotiation ∧
      KeepsPasswords s g (s.signResponse e g).session (s.signResponse e g).gateway := by
  unfold signResponse
  split
  · dsimp only
    split
    · exact ⟨rfl, keepsPasswords_of_store rfl rfl⟩
    · exact ⟨rfl, keepsPasswords_renewNonce (by rfl) g⟩
  · exact ⟨rfl, keepsPasswords_of_store rfl rfl⟩

/-- A step takes a new password into use. The client has acknowledged it by the checksum of what was
issued to it. -/
structure Commits (front : List Step) (t : Step) (password : String) : Prop where
  acknowledged : ∃ e kind salt secret ackSalt, t.call = .negotiate e ∧
    t.session.negotiation = .awaitingAck salt secret password ackSalt ∧
    PasswordIssued front salt secret password ackSalt ∧
    t.session.profile.authentication = some kind ∧
    e.header.bytes? .autoregMac = some (checksumOfDigest kind (Bytes.ofString t.session.clientId)
      (Crypto.md5 (Bytes.ofString password)) ackSalt secret)
  done : t.after.negotiation = .done
  session : t.after.profile = { t.session.profile with password := some password }
  store : t.left.store = t.gateway.store.setPassword t.session.clientId password

/-- How a step behind the steps `front` treats the negotiation. -/
structure Regular (front : List Step) (t : Step) : Prop where
  held : Held front t.session.negotiation
  /-- A step of the negotiation that fails changes nothing, and it never misses anything. -/
  failed : ∀ e error after left, t.call = .negotiate e →
    t.session.negotiate e t.gateway = .error error after left →
      after = t.session ∧ left = t.gateway ∧ ∀ stage, error ≠ .inconsistent stage
  advances : ∀ e outcome, t.call = .negotiate e →
    t.session.negotiate e t.gateway = .ok outcome →
      t.session.negotiation.stage.next? = some outcome.session.negotiation.stage
  resets : t.call = .resetNegotiation → t.after.negotiation = .idle
  rests : (∀ e, t.call ≠ .negotiate e) → t.call ≠ .resetNegotiation →
    t.after.negotiation = t.session.negotiation
  passwords : KeepsPasswords t.session t.gateway t.after t.left ∨
    ∃ password, Commits front t password

variable {e : Envelope} {error : NegotiationError} {outcome : Outcome (Option Envelope)} {call : Call}

theorem Call.perform_of_error (step : s.negotiate e g = .error error s' g') :
    (negotiate e).perform s g = (s', g') := by
  rw [perform, step]

theorem Call.perform_of_ok (step : s.negotiate e g = .ok outcome) :
    (negotiate e).perform s g = (outcome.session, outcome.gateway) := by
  rw [perform, step]

theorem regular_of_error (held : Held front s.negotiation)
    (step : s.negotiate e g = .error error s g) (kept : ∀ stage, error ≠ .inconsistent stage) :
    Regular front ⟨.negotiate e, s, g⟩ where
  held
  failed e' error' after left same failed := by
    obtain rfl := Call.negotiate.inj same
    obtain ⟨rfl, rfl, rfl⟩ := NegotiationStep.error.inj (step.symm.trans failed)
    exact ⟨rfl, rfl, kept⟩
  advances e' outcome same succeeded := by
    obtain rfl := Call.negotiate.inj same
    cases step.symm.trans succeeded
  resets := nofun
  rests other := absurd rfl (other e)
  passwords := by
    refine .inl (keepsPasswords_of_store ?_ ?_)
    · rw [Step.after, Call.perform_of_error step]
    · rw [Step.left, Call.perform_of_error step]

theorem regular_of_ok (held : Held front s.negotiation) (step : s.negotiate e g = .ok outcome)
    (advances : s.negotiation.stage.next? = some outcome.session.negotiation.stage)
    (passwords : KeepsPasswords s g outcome.session outcome.gateway ∨
      ∃ password, Commits front ⟨.negotiate e, s, g⟩ password) :
    Regular front ⟨.negotiate e, s, g⟩ where
  held
  failed e' error' after left same failed := by
    obtain rfl := Call.negotiate.inj same
    cases step.symm.trans failed
  advances e' outcome' same succeeded := by
    obtain rfl := Call.negotiate.inj same
    obtain rfl := NegotiationStep.ok.inj (step.symm.trans succeeded)
    exact advances
  resets := nofun
  rests other := absurd rfl (other e)
  passwords := by
    rwa [Step.after, Step.left, Call.perform_of_ok step]

/-- Drawing a salt behind something else that was drawn touches no store. -/
theorem store_of_drawNonce {drawn left : Gateway} {salt : String} (kept : drawn.store = g.store)
    (saltDrawn : drawn.drawNonce = (salt, left)) : left.store = g.store := by
  have same := drawn.store_drawNonce
  rw [saltDrawn] at same
  exact same.trans kept

/-- A step of a negotiation that holds what it should is regular, and so is what it leaves behind. -/
theorem regular_negotiate (held : Held front s.negotiation) (e : Envelope) (g : Gateway) :
    Regular front ⟨.negotiate e, s, g⟩ ∧ Held (front ++ [⟨.negotiate e, s, g⟩])
      ((Call.negotiate e).perform s g).1.negotiation := by
  have negotiated := negotiated_negotiate e s g
  generalize step : s.negotiate e g = result at negotiated
  cases negotiated with
  | failed kept =>
    rw [Call.perform_of_error step]
    exact ⟨regular_of_error held step kept, held.concat rfl⟩
  | lost missing => exact absurd held.complete missing
  | @keyOffered reply pair salt drawn left idle needs plain keyDrawn saltDrawn status =>
    have found := held.eq_idle idle
    have performed := Call.perform_of_ok step
    have first := g.store_drawKeyPair
    rw [keyDrawn] at first
    have store := store_of_drawNonce first saltDrawn
    refine ⟨regular_of_ok held step ?_ (.inl (keepsPasswords_of_store rfl store)), ?_⟩
    · rw [idle]
      rfl
    · rw [performed, found]
      refine .awaitingKey ⟨front, _, [], e, rfl, underWay_nil, rfl, found, ?_, ?_, ?_⟩
      · rw [Step.after, performed, found]
        rfl
      · rw [keyDrawn]
      · rw [keyDrawn, saltDrawn]
  | @passwordOffered reply pair salt publicKey secret password ackSalt drawn left waits ours salted
      theirs signed shared passwordDrawn saltDrawn status =>
    obtain ⟨pair', salt', found, issued⟩ := held.eq_awaitingKey waits
    have performed := Call.perform_of_ok step
    have first := g.store_drawPassword
    rw [passwordDrawn] at first
    have store := store_of_drawNonce first saltDrawn
    rw [found] at ours salted
    obtain rfl := Option.some.inj ours
    obtain rfl := Option.some.inj salted
    refine ⟨regular_of_ok held step ?_ (.inl (keepsPasswords_of_store rfl store)), ?_⟩
    · rw [waits]
      rfl
    · rw [performed, found]
      refine .awaitingAck ⟨front, _, [], e, pair', publicKey, rfl, underWay_nil, rfl, found, ?_,
        issued, theirs, signed, shared, ?_, ?_⟩
      · rw [Step.after, performed, found]
        rfl
      · rw [passwordDrawn]
      · rw [passwordDrawn, saltDrawn]
  | @committed kind secret ackSalt password waits shared offered salted authentication mac =>
    obtain ⟨salt, secret', password', ackSalt', found, issued⟩ := held.eq_awaitingAck waits
    have performed := Call.perform_of_ok step
    rw [found] at shared offered salted
    obtain rfl := Option.some.inj shared
    obtain rfl := Option.some.inj offered
    obtain rfl := Option.some.inj salted
    refine ⟨regular_of_ok held step ?_ (.inr ⟨password', ?_, ?_, ?_, ?_⟩), ?_⟩
    · rw [waits]
      rfl
    · exact ⟨e, kind, salt, secret', ackSalt', rfl, found, issued, authentication, mac⟩
    · rw [Step.after, performed]
    · rw [Step.after, performed]
    · rw [Step.left, performed]
    · rw [performed]
      exact .done

/-- A step that has nothing to do with the negotiation is regular. -/
theorem regular_of_rests (held : Held front s.negotiation) (other : ∀ e, call ≠ .negotiate e)
    (resumes : call ≠ .resetNegotiation)
    (rests : (call.perform s g).1.negotiation = s.negotiation ∧
      KeepsPasswords s g (call.perform s g).1 (call.perform s g).2) :
    Regular front ⟨call, s, g⟩ ∧
      Held (front ++ [⟨call, s, g⟩]) (call.perform s g).1.negotiation := by
  refine ⟨?_, ?_⟩
  · exact {
      held
      failed := fun e _ _ _ same => absurd same (other e)
      advances := fun e _ same => absurd same (other e)
      resets := fun same => absurd same resumes
      rests := fun _ _ => rests.1
      passwords := .inl rests.2 }
  · rw [rests.1]
    exact held.concat rfl

/-- Every step is regular behind steps that were, and so is what it leaves behind. -/
theorem regular_call (held : Held front s.negotiation) (call : Call) (g : Gateway) :
    Regular front ⟨call, s, g⟩ ∧
      Held (front ++ [⟨call, s, g⟩]) (call.perform s g).1.negotiation := by
  cases call with
  | negotiate e => exact regular_negotiate held e g
  | authenticate e => exact regular_of_rests held nofun nofun (authenticate_keeps e s g)
  | signResponse e => exact regular_of_rests held nofun nofun (signResponse_keeps e s g)
  | resetNegotiation =>
    refine ⟨?_, .idle⟩
    exact {
      held
      failed := fun _ _ _ _ same => nomatch same
      advances := fun _ _ same => nomatch same
      resets := fun _ => rfl
      rests := fun _ resumes => absurd rfl resumes
      passwords := .inl (keepsPasswords_of_store rfl rfl) }

/-! ## All steps -/

theorem Run.held (run : Run steps s g) : Held steps s.negotiation := by
  induction run with
  | created clientId profile g => exact .idle
  | @called steps s g run call ih => exact (regular_call ih call g).2
  | meanwhile run g' ih => exact ih

/-- Where a list with one more element is split, the element is at the split or behind it. -/
theorem eq_or_of_concat_eq {α : Type} {list front back : List α} {last x : α}
    (same : list ++ [last] = front ++ x :: back) :
    (list = front ∧ last = x ∧ back = []) ∨
      ∃ rest, back = rest ++ [last] ∧ list = front ++ x :: rest := by
  rcases List.eq_nil_or_concat back with rfl | ⟨rest, final, rfl⟩
  · obtain ⟨rfl, tail⟩ := List.append_inj' same rfl
    exact .inl ⟨rfl, (List.cons.inj tail).1, rfl⟩
  · have assoc : list ++ [last] = (front ++ x :: rest) ++ [final] := by simpa using same
    obtain ⟨rfl, tail⟩ := List.append_inj' assoc rfl
    obtain rfl := (List.cons.inj tail).1
    exact .inr ⟨rest, by simp, rfl⟩

/-- Every step of a run is made in the state that the steps in front of it have led to. -/
theorem Run.before (run : Run steps s g) (split : steps = front ++ t :: back) :
    Run front t.session t.gateway := by
  induction run generalizing back with
  | created clientId profile g => simp at split
  | @called steps s g run call ih =>
    obtain ⟨rfl, rfl, -⟩ | ⟨rest, -, earlier⟩ := eq_or_of_concat_eq split
    · exact run
    · exact ih earlier
  | meanwhile run g' ih => exact ih split

/-- A negotiation that is done stays so until it is reset. -/
theorem Run.done (run : Run steps s g) (split : steps = front ++ t :: back)
    (done : t.after.negotiation = .done) (kept : ∀ u ∈ back, u.call ≠ .resetNegotiation) :
    s.negotiation = .done := by
  induction run generalizing back with
  | created clientId profile g => simp at split
  | @called steps s g run call ih =>
    obtain ⟨rfl, rfl, -⟩ | ⟨rest, rfl, earlier⟩ := eq_or_of_concat_eq split
    · exact done
    · have before : s.negotiation = .done := ih earlier fun u member =>
        kept u (List.mem_append_left _ member)
      cases call with
      | negotiate e =>
        have refused : s.negotiate e g = .error (.unexpectedMessage .done) s g := by
          simp only [negotiate, before, Negotiation.done]
        rw [Call.perform_of_error refused, before]
      | authenticate e => exact (authenticate_keeps e s g).1.trans before
      | signResponse e => exact (signResponse_keeps e s g).1.trans before
      | resetNegotiation =>
        exact absurd rfl (kept ⟨.resetNegotiation, s, g⟩ (List.mem_append_right _ List.mem_cons_self))
  | meanwhile run g' ih => exact ih split kept

/-- Whatever a session is asked, a step of a negotiation that fails changes nothing and never misses
anything, one that succeeds goes on to the next stage, and only a reset goes back. A new password is
taken into use only when the client has acknowledged it by a checksum of what was issued since the
negotiation was last idle, and once between two resets. -/
theorem regular_of_run (run : Run steps s g) : Held steps s.negotiation ∧
    (∀ front t back, steps = front ++ t :: back → Regular front t) ∧
    ∀ front t middle u back password password', steps = front ++ t :: middle ++ u :: back →
      Commits front t password → Commits (front ++ t :: middle) u password' →
        ∃ r ∈ middle, r.call = .resetNegotiation := by
  refine ⟨run.held, ?_, ?_⟩
  · intro front t back split
    exact (regular_call (run.before split).held t.call t.gateway).1
  · intro front t middle u back password password' split first second
    by_contra none
    push Not at none
    have done : u.session.negotiation = .done := (run.before split).done rfl first.done none
    obtain ⟨_, _, _, _, _, _, waits, -⟩ := second.acknowledged
    rw [done] at waits
    cases waits

/-! ## A run through all rounds -/

variable {clientId : String} {profile : Profile} {kind : ChecksumKind} {publicKey : Bytes}

/-- A client that has to negotiate a password can do so: it sends a public key, signed by its
registration password, and then the checksum of the new password. -/
theorem exists_run (unkeyed : Session.Unkeyed { clientId, profile } kind) (g : Gateway)
    (shared : g.drawKeyPair.1.sharedSecret publicKey = .ok secret) :
    ∃ hello key ack : Step, Run [hello, key, ack] ack.after ack.left ∧
      ack.session.profile = profile ∧
      ack.after.profile =
        { profile with password := some g.drawKeyPair.2.drawNonce.2.drawPassword.1 } := by
  let s : Session := { clientId, profile }
  let hello : Envelope := ⟨⟨[]⟩, [], []⟩
  have plain : ∀ key ∈ Negotiation.headerKeys, hello.header.contains key = false := by decide
  obtain ⟨offer, offers, -, -⟩ := unkeyed.offersKey plain g
  have first := (Run.created clientId profile g).called (.negotiate hello)
  rw [Call.perform_of_ok offers] at first
  let salt := Bytes.ofString g.drawKeyPair.2.drawNonce.1
  let signed := Security.checksum .md5 (Bytes.ofString clientId) s.registrationKey salt publicKey
  let answer : Envelope := ⟨.ofList [(.autoregPubkey, .bytes publicKey), (.autoregSalt, .bytes []),
    (.autoregMac, .bytes signed)], [], []⟩
  obtain ⟨hidden, reply, replies, -⟩ := offersPassword (e := answer)
    (s := { s with negotiation := .awaitingKey g.drawKeyPair.1 salt }) rfl rfl rfl rfl shared
    g.drawKeyPair.2.drawNonce.2
  have second := first.called (.negotiate answer)
  rw [Call.perform_of_ok replies] at second
  let drawn := g.drawKeyPair.2.drawNonce.2.drawPassword
  let acknowledged := checksumOfDigest kind (Bytes.ofString clientId)
    (Crypto.md5 (Bytes.ofString drawn.1)) (Bytes.ofString drawn.2.drawNonce.1) secret
  let ack : Envelope := ⟨.ofList [(.autoregMac, .bytes acknowledged)], [], []⟩
  let waiting := Negotiation.awaitingAck salt secret drawn.1 (Bytes.ofString drawn.2.drawNonce.1)
  have commits := commitsPassword (e := ack) (s := { s with negotiation := waiting }) rfl
    unkeyed.authentication rfl drawn.2.drawNonce.2
  refine ⟨_, _, _, second.called (.negotiate ack), rfl, ?_⟩
  rw [Step.after, Call.perform_of_ok commits]

theorem regular_of_run_registered : ∃ hello key ack : Step,
    Run [hello, key, ack] ack.after ack.left ∧ Commits [hello, key] ack "fresh" := by
  have unkeyed : Session.Unkeyed { clientId := "dev", profile := registeredProfile } .sha1 :=
    ⟨rfl, rfl, rfl⟩
  have agree : registeringGateway.drawKeyPair.1.Agree (KeyPair.ofSecret 2) := by decide +kernel
  obtain ⟨secret, shared, -⟩ := agree
  obtain ⟨hello, key, ack, run, before, after⟩ := exists_run unkeyed registeringGateway shared
  have drawn : registeringGateway.drawKeyPair.2.drawNonce.2.drawPassword.1 = "fresh" := by
    decide +kernel
  have regular := (regular_of_run run).2.1 [hello, key] ack [] rfl
  refine ⟨hello, key, ack, run, ?_⟩
  rw [drawn] at after
  rcases regular.passwords with kept | ⟨password, commits⟩
  · have kept := kept.same
    rw [before, after] at kept
    cases kept
  · have taken := commits.session
    rw [before, after] at taken
    obtain rfl : "fresh" = password := Option.some.inj (congrArg Profile.password taken)
    exact commits

end Session

end Telemetry
