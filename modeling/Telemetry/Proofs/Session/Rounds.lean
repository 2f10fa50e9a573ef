import Telemetry.Proofs.Bytes
import Telemetry.Proofs.Crypto.Aes
import Telemetry.Session.Negotiation
/-!
# What comes of a step of a negotiation

A step either fails, and then nothing has changed, or it is one of three rounds. What each round
finds in the session and in the envelope, and what it leaves behind, is said once here. The second
and the third round need what an earlier one should have left, and fail of their own accord only if
it is not there.
-/

namespace Telemetry

open Bysant (Envelope Header)

open Security (ChecksumKind KeyPair checksum checksumOfDigest maskWithSecret)

/-- A secret masks a digest, and unmasks it. -/
theorem Security.maskWithSecret_md5 (secret data : Bytes) : ∃ hidden,
    maskWithSecret secret (Crypto.md5 data) = .ok hidden ∧
      maskWithSecret secret hidden = .ok (Crypto.md5 data) := by
  have mask : (Crypto.md5 secret).length = maskSize := Crypto.length_md5 secret
  have plain : (Crypto.md5 data).length = maskSize := Crypto.length_md5 data
  refine ⟨Bytes.xor (Crypto.md5 data) (Crypto.md5 secret), if_pos plain, ?_⟩
  unfold maskWithSecret
  rw [if_pos (Bytes.length_xor_of_eq plain mask), Bytes.xor_xor (Nat.le_of_eq (plain.trans mask.symm))]

namespace Negotiation

/-- What a session holds while it waits for the client's public key. -/
def awaitingKey (pair : KeyPair) (salt : Bytes) : Negotiation :=
  { stage := .awaitingKey, pair := some pair, salt := some salt }

/-- What a session holds while it waits for the acknowledgement of a password. -/
def awaitingAck (salt secret : Bytes) (password : String) (ackSalt : Bytes) : Negotiation :=
  { stage := .awaitingAck
    salt := some salt
    ackSalt := some ackSalt
    secret := some secret
    password := some password }

/-- Nothing is missing that the stage needs. -/
def Complete (n : Negotiation) : Prop :=
  match n.stage with
  | .awaitingKey => n.pair.isSome ∧ n.salt.isSome
  | .awaitingAck => n.secret.isSome ∧ n.password.isSome ∧ n.ackSalt.isSome
  | _ => True

/-- A header entry is there, or its absence is the failure. -/
theorem require_cases (stage : Stage) (h : Header) (key : Bysant.HeaderKey) :
    (∃ bytes, h.bytes? key = some bytes ∧ require stage h key = .ok bytes) ∨
      require stage h key = .error (.missingHeader stage key) := by
  unfold require
  cases h.bytes? key with
  | some bytes => exact .inl ⟨bytes, rfl, rfl⟩
  | none => exact .inr rfl

end Negotiation

namespace Session

open Negotiation (require require_cases)

variable {e : Envelope} {s : Session} {g : Gateway} {error : NegotiationError}

/-- The client has proved that it knows its registration password, if it has one. -/
def Signed (e : Envelope) (salt publicKey : Bytes) (s : Session) : Prop :=
  s.registrationKey ≠ [] → e.header.bytes? .autoregMac =
    some (checksum .md5 (Bytes.ofString s.clientId) s.registrationKey salt publicKey)

/-- What comes of a step of a negotiation. -/
inductive Negotiated (e : Envelope) (s : Session) (g : Gateway) : NegotiationStep → Prop where
  | failed {error : NegotiationError} (kept : ∀ stage, error ≠ .inconsistent stage) :
      Negotiated e s g (.error error s g)
  /-- Something is not there that an earlier round should have left. -/
  | lost (missing : ¬ s.negotiation.Complete) :
      Negotiated e s g (.error (.inconsistent s.negotiation.stage) s g)
  | keyOffered {reply : Envelope} {pair : KeyPair} {salt : String} {drawn left : Gateway}
      (idle : s.negotiation.stage = .idle)
      (needs : s.profile.needsNegotiation = true)
      (plain : ∀ key ∈ Negotiation.headerKeys, e.header.contains key = false)
      (keyDrawn : g.drawKeyPair = (pair, drawn))
      (saltDrawn : drawn.drawNonce = (salt, left))
      (status : reply.status? = some .authenticationRequired) :
      Negotiated e s g (.ok ⟨some reply,
        { s with negotiation :=
          { s.negotiation with
            stage := .awaitingKey
            pair := some pair
            salt := some (Bytes.ofString salt) } }, left⟩)
  | passwordOffered {reply : Envelope} {pair : KeyPair} {salt publicKey secret : Bytes}
      {password ackSalt : String} {drawn left : Gateway}
      (waits : s.negotiation.stage = .awaitingKey)
      (ours : s.negotiation.pair = some pair)
      (salted : s.negotiation.salt = some salt)
      (theirs : e.header.bytes? .autoregPubkey = some publicKey)
      (signed : s.Signed e salt publicKey)
      (shared : pair.sharedSecret publicKey = .ok secret)
      (passwordDrawn : g.drawPassword = (password, drawn))
      (saltDrawn : drawn.drawNonce = (ackSalt, left))
      (status : reply.status? = some .authenticationRequired) :
      Negotiated e s g (.ok ⟨some reply,
        { s with negotiation :=
          { s.negotiation with
            stage := .awaitingAck
            pair := none
            secret := some secret
            password := some password
            ackSalt := some (Bytes.ofString ackSalt) } }, left⟩)
  | committed {kind : ChecksumKind} {secret ackSalt : Bytes} {password : String}
      (waits : s.negotiation.stage = .awaitingAck)
      (shared : s.negotiation.secret = some secret)
      (offered : s.negotiation.password = some password)
      (salted : s.negotiation.ackSalt = some ackSalt)
      (authentication : s.profile.authentication = some kind)
      (mac : e.header.bytes? .autoregMac = some (checksumOfDigest kind (Bytes.ofString s.clientId)
        (Crypto.md5 (Bytes.ofString password)) ackSalt secret)) :
      Negotiated e s g (.ok ⟨none,
        { s with
          profile := { s.profile with password := some password }
          negotiation := .done
          attempts := 0 },
        { g with store := g.store.setPassword s.clientId password }⟩)

/-! ## The three rounds -/

theorem negotiated_offerKey (idle : s.negotiation.stage = .idle) :
    Negotiated e s g (s.offerKey e g) := by
  unfold offerKey
  split
  · exact .failed nofun
  · rename_i needs
    split
    · exact .failed nofun
    · rename_i plain
      refine .keyOffered idle (by simpa using needs) ?_ rfl rfl rfl
      simpa [Negotiation.headerKeys] using plain

theorem checkPublicKey_cases (e : Envelope) (salt publicKey : Bytes) (s : Session) :
    (s.checkPublicKey e salt publicKey = .ok () ∧ s.Signed e salt publicKey) ∨
      ∃ error, s.checkPublicKey e salt publicKey = .error error ∧
        ∀ stage, error ≠ .inconsistent stage := by
  unfold checkPublicKey Signed
  by_cases registered : s.registrationKey = []
  · simp only [registered, ne_eq, not_true_eq_false, if_false, false_implies, and_true]
    exact .inl rfl
  · simp only [ne_eq, registered, not_false_eq_true, if_true, true_implies]
    obtain ⟨mac, given, required⟩ | missing := require_cases .awaitingKey e.header .autoregMac
    · rw [required, given]
      simp only [bind, Except.bind]
      by_cases same : checksum .md5 (Bytes.ofString s.clientId) s.registrationKey salt publicKey = mac
      · rw [same, Security.verifyChecksum_self]
        exact .inl ⟨rfl, rfl⟩
      · rw [Security.verifyChecksum_of_ne same]
        exact .inr ⟨_, rfl, nofun⟩
    · rw [missing]
      exact .inr ⟨_, rfl, nofun⟩

/-- A client's public key is accepted, or refused for a reason of the client's, or there is nothing
to accept it with. -/
theorem acceptKey_cases (waits : s.negotiation.stage = .awaitingKey) (e : Envelope) :
    (∃ pair salt publicKey secret peerSalt, s.negotiation.pair = some pair ∧
      s.negotiation.salt = some salt ∧ e.header.bytes? .autoregPubkey = some publicKey ∧
      s.Signed e salt publicKey ∧ pair.sharedSecret publicKey = .ok secret ∧
      s.acceptKey e = .ok (secret, peerSalt)) ∨
    (∃ error, s.acceptKey e = .error error ∧ ∀ stage, error ≠ .inconsistent stage) ∨
    (s.acceptKey e = .error (.inconsistent .awaitingKey) ∧ ¬ s.negotiation.Complete) := by
  unfold acceptKey
  obtain ⟨publicKey, theirs, required⟩ | missing := require_cases .awaitingKey e.header .autoregPubkey
  swap
  · rw [missing]
    exact .inr (.inl ⟨_, rfl, nofun⟩)
  rw [required]
  obtain ⟨peerSalt, -, required⟩ | missing := require_cases .awaitingKey e.header .autoregSalt
  swap
  · rw [missing]
    exact .inr (.inl ⟨_, rfl, nofun⟩)
  rw [required]
  simp only [bind, Except.bind]
  split
  · rename_i pair salt ours salted
    obtain ⟨checked, signed⟩ | ⟨error, checked, kept⟩ := checkPublicKey_cases e salt publicKey s
    · rw [checked]
      dsimp only
      cases shared : pair.sharedSecret publicKey with
      | ok secret =>
        exact .inl ⟨pair, salt, publicKey, secret, peerSalt, ours, salted, theirs, signed, shared,
          rfl⟩
      | error _ => exact .inr (.inl ⟨_, rfl, nofun⟩)
    · rw [checked]
      exact .inr (.inl ⟨error, rfl, kept⟩)
  · rename_i absent
    refine .inr (.inr ⟨rfl, fun complete => ?_⟩)
    rw [Negotiation.Complete, waits] at complete
    obtain ⟨ours, salted⟩ := complete
    exact absent _ _ (Option.some_get ours).symm (Option.some_get salted).symm

theorem negotiated_offerPassword (waits : s.negotiation.stage = .awaitingKey) :
    Negotiated e s g (s.offerPassword e g) := by
  unfold offerPassword
  obtain ⟨pair, salt, publicKey, secret, peerSalt, ours, salted, theirs, signed, shared, accepted⟩ |
    ⟨error, refused, kept⟩ | ⟨refused, missing⟩ := acceptKey_cases waits e
  · rw [accepted]
    -- a digest has the length that the mask needs
    obtain ⟨hidden, masked, -⟩ :=
      Security.maskWithSecret_md5 secret (Bytes.ofString g.drawPassword.1)
    dsimp only
    rw [masked]
    exact .passwordOffered waits ours salted theirs signed shared rfl rfl rfl
  · rw [refused]
    exact .failed kept
  · rw [refused, ← waits]
    exact .lost missing

/-- A checksum acknowledges the new password, or is refused for a reason of the client's, or there
is nothing that it could acknowledge. -/
theorem acknowledged_cases (waits : s.negotiation.stage = .awaitingAck) (e : Envelope) :
    (∃ kind secret password ackSalt, s.negotiation.secret = some secret ∧
      s.negotiation.password = some password ∧ s.negotiation.ackSalt = some ackSalt ∧
      s.profile.authentication = some kind ∧
      e.header.bytes? .autoregMac = some (checksumOfDigest kind (Bytes.ofString s.clientId)
        (Crypto.md5 (Bytes.ofString password)) ackSalt secret) ∧
      s.acknowledged e = .ok password) ∨
    (∃ error, s.acknowledged e = .error error ∧ ∀ stage, error ≠ .inconsistent stage) ∨
    (s.acknowledged e = .error (.inconsistent .awaitingAck) ∧ ¬ s.negotiation.Complete) := by
  unfold acknowledged
  obtain ⟨mac, given, required⟩ | missing := require_cases .awaitingAck e.header .autoregMac
  swap
  · rw [missing]
    exact .inr (.inl ⟨_, rfl, nofun⟩)
  rw [required, given]
  simp only [bind, Except.bind]
  split
  · rename_i secret password ackSalt shared offered salted
    cases authentication : s.profile.authentication with
    | none => exact .inr (.inl ⟨_, rfl, nofun⟩)
    | some kind =>
      dsimp only
      by_cases same : checksumOfDigest kind (Bytes.ofString s.clientId)
        (Crypto.md5 (Bytes.ofString password)) ackSalt secret = mac
      · subst same
        rw [Security.verifyChecksum_self]
        exact .inl ⟨kind, secret, password, ackSalt, shared, offered, salted, rfl, rfl, rfl⟩
      · rw [Security.verifyChecksum_of_ne same]
        exact .inr (.inl ⟨_, rfl, nofun⟩)
  · rename_i absent
    refine .inr (.inr ⟨rfl, fun complete => ?_⟩)
    rw [Negotiation.Complete, waits] at complete
    obtain ⟨shared, offered, salted⟩ := complete
    exact absent _ _ _ (Option.some_get shared).symm (Option.some_get offered).symm
      (Option.some_get salted).symm

theorem negotiated_commitPassword (waits : s.negotiation.stage = .awaitingAck) :
    Negotiated e s g (s.commitPassword e g) := by
  unfold commitPassword
  obtain ⟨kind, secret, password, ackSalt, shared, offered, salted, authentication, mac, accepted⟩ |
    ⟨error, refused, kept⟩ | ⟨refused, missing⟩ := acknowledged_cases waits e
  · rw [accepted]
    exact .committed waits shared offered salted authentication mac
  · rw [refused]
    exact .failed kept
  · rw [refused, ← waits]
    exact .lost missing

/-- A step of a negotiation fails without effect or is one of the three rounds. -/
theorem negotiated_negotiate (e : Envelope) (s : Session) (g : Gateway) :
    Negotiated e s g (s.negotiate e g) := by
  unfold negotiate
  cases stage : s.negotiation.stage with
  | idle => exact negotiated_offerKey stage
  | awaitingKey => exact negotiated_offerPassword stage
  | awaitingAck => exact negotiated_commitPassword stage
  | done => exact .failed nofun

/-- A step that fails leaves the session and the gateway as they were. -/
theorem unchanged_of_error {after : Session} {left : Gateway}
    (step : s.negotiate e g = .error error after left) : after = s ∧ left = g := by
  have negotiated := negotiated_negotiate e s g
  rw [step] at negotiated
  cases negotiated <;> exact ⟨rfl, rfl⟩

end Session

end Telemetry
