import Telemetry.Device.Negotiation
import Telemetry.Proofs.Gateway.Later
import Telemetry.Proofs.Session.Judgement
import Telemetry.Proofs.Session.Rounds
/-!
# A negotiation agrees on a password

A client without a working password and its session go through three rounds. What the one sends is
what the other expects: each salt comes back in a checksum of the other side, and the mask of the
shared secret comes off again. In the end both have the password that the server has drawn, the
device by its digest, and the device's next request is accepted.
-/

namespace Telemetry

open Bysant (Envelope Header)

open Security (ChecksumKind Entropy KeyPair Profile checksum checksumOfDigest maskWithSecret)

namespace Security

/-- The holders of two key pairs compute the same secret, each from the other's certificate. -/
def KeyPair.Agree (a b : KeyPair) : Prop :=
  ∃ secret, a.sharedSecret b.certificate = .ok secret ∧ b.sharedSecret a.certificate = .ok secret

instance (a b : KeyPair) : Decidable (a.Agree b) :=
  match first : a.sharedSecret b.certificate with
  | .ok secret =>
    decidable_of_iff (b.sharedSecret a.certificate = .ok secret)
      ⟨fun second => ⟨secret, first, second⟩, fun ⟨_, same, second⟩ =>
        Except.ok.inj (first.symm.trans same) ▸ second⟩
  | .error _ => isFalse fun ⟨_, same, _⟩ => nomatch first.symm.trans same

end Security

/-! ## The steps of the server -/

section Server

variable {s : Session} {kind : ChecksumKind} {e : Envelope} {password : String}
  {secret salt peerSalt ackSalt publicKey : Bytes} {pair : KeyPair} {g : Gateway}

namespace Session

/-- A session whose client has to authenticate, has no working password, and has not begun to
negotiate one. -/
structure Unkeyed (s : Session) (kind : ChecksumKind) : Prop where
  authentication : s.profile.authentication = some kind
  credential : s.profile.credential = none
  negotiation : s.negotiation = .idle

theorem Unkeyed.needsNegotiation (h : s.Unkeyed kind) : s.profile.needsNegotiation = true := by
  rw [Profile.needsNegotiation, h.authentication, h.credential]
  rfl

/-- Any envelope that is not part of a negotiation makes the server offer its key. -/
theorem Unkeyed.offersKey (h : s.Unkeyed kind)
    (plain : ∀ key ∈ Negotiation.headerKeys, e.header.contains key = false) (g : Gateway) :
    let pair := g.drawKeyPair.1
    let salt := Bytes.ofString g.drawKeyPair.2.drawNonce.1
    ∃ offer, s.negotiate e g = .ok ⟨some offer, { s with negotiation := .awaitingKey pair salt },
        g.drawKeyPair.2.drawNonce.2⟩ ∧
      offer.header.bytes? .autoregSalt = some salt ∧
      offer.header.bytes? .autoregPubkey = some pair.certificate := by
  have none : Negotiation.headerKeys.any e.header.contains = false := by
    rw [List.any_eq_false]
    intro key member
    simp [plain key member]
  intro pair salt
  refine ⟨.ofPayload (.ofList [(.status, Bysant.StatusCode.authenticationRequired.toValue),
    (.autoregSalt, .bytes salt), (.autoregPubkey, .bytes pair.certificate)]) [], ?_, rfl, rfl⟩
  simp only [negotiate, h.negotiation, Negotiation.idle, offerKey, h.needsNegotiation, none]
  rfl

/-- A public key that is signed by the registration password makes the server offer a password,
hidden by the shared secret. -/
theorem offersPassword (waits : s.negotiation = .awaitingKey pair salt)
    (key : e.header.bytes? .autoregPubkey = some publicKey)
    (given : e.header.bytes? .autoregSalt = some peerSalt)
    (mac : e.header.bytes? .autoregMac =
      some (checksum .md5 (Bytes.ofString s.clientId) s.registrationKey salt publicKey))
    (shared : pair.sharedSecret publicKey = .ok secret) (g : Gateway) :
    let drawn := g.drawPassword
    let ackSalt := Bytes.ofString drawn.2.drawNonce.1
    ∃ hidden reply,
      s.negotiate e g = .ok ⟨some reply,
        { s with negotiation := .awaitingAck salt secret drawn.1 ackSalt }, drawn.2.drawNonce.2⟩ ∧
      reply.header.bytes? .autoregCtext = some hidden ∧
      reply.header.bytes? .autoregSalt = some ackSalt ∧
      reply.header.bytes? .autoregMac = some
        (checksum .md5 (Bytes.ofString Gateway.serverName) s.registrationKey peerSalt hidden) ∧
      maskWithSecret secret hidden = .ok (Crypto.md5 (Bytes.ofString drawn.1)) := by
  intro drawn ackSalt
  obtain ⟨hidden, masked, unmasked⟩ :=
    Security.maskWithSecret_md5 secret (Bytes.ofString drawn.1)
  have signed : s.checkPublicKey e salt publicKey = .ok () := by
    unfold checkPublicKey Negotiation.require
    by_cases registered : s.registrationKey = []
    · simp only [registered, ne_eq, not_true_eq_false, if_false]
      rfl
    · simp only [registered, mac, Security.verifyChecksum_self, ne_eq, not_false_eq_true, if_true,
        bind, Except.bind]
      rfl
  refine ⟨hidden, .ofPayload (.ofList [(.status,
    Bysant.StatusCode.authenticationRequired.toValue), (.autoregCtext, .bytes hidden),
    (.autoregSalt, .bytes ackSalt), (.autoregMac, .bytes (checksum .md5
      (Bytes.ofString Gateway.serverName) s.registrationKey peerSalt hidden))]) [],
    ?_, rfl, rfl, rfl, unmasked⟩
  have masked : maskWithSecret secret (Crypto.md5 (Bytes.ofString g.drawPassword.1)) =
    .ok hidden := masked
  have accepted : acceptKey e s = .ok (secret, peerSalt) := by
    simp only [acceptKey, waits, Negotiation.awaitingKey, Negotiation.require, key, given, signed,
      shared, bind, Except.bind, Except.mapError]
    rfl
  simp only [negotiate, waits, Negotiation.awaitingKey, offerPassword, accepted, masked]
  rfl

/-- The checksum of the new password's digest makes the server take the password into use. -/
theorem commitsPassword (waits : s.negotiation = .awaitingAck salt secret password ackSalt)
    (authentication : s.profile.authentication = some kind)
    (mac : e.header.bytes? .autoregMac = some (checksumOfDigest kind (Bytes.ofString s.clientId)
      (Crypto.md5 (Bytes.ofString password)) ackSalt secret)) (g : Gateway) :
    s.negotiate e g = .ok ⟨none,
      { s with
        profile := { s.profile with password := some password }
        negotiation := .done
        attempts := 0 },
      { g with store := g.store.setPassword s.clientId password }⟩ := by
  have accepted : acknowledged e s = .ok password := by
    simp only [acknowledged, waits, Negotiation.awaitingAck, Negotiation.require, mac,
      authentication, Security.verifyChecksum_self, bind, Except.bind]
    rfl
  simp only [negotiate, waits, Negotiation.awaitingAck, commitPassword, accepted]

end Session

end Server

/-! ## The steps of the device -/

namespace Negotiator

variable {n : Negotiator} {e : Envelope} {entropy : Entropy} {serverSalt serverKey : Bytes}
  {secret salt hidden digest ackSalt : Bytes}

/-- The device answers the server's key by its own, which it signs by its registration password. -/
theorem answersKey (given : e.header.bytes? .autoregSalt = some serverSalt)
    (key : e.header.bytes? .autoregPubkey = some serverKey)
    (shared : entropy.drawKeyPair.1.sharedSecret serverKey = .ok secret) :
    let pair := entropy.drawKeyPair.1
    let salt := Bytes.ofString entropy.drawKeyPair.2.drawNonce.1
    ∃ answer,
      n.onChallenge e entropy = (.ok (answer, { n with waiting := some (secret, salt) }),
        entropy.drawKeyPair.2.drawNonce.2) ∧
      answer.header.bytes? .autoregPubkey = some pair.certificate ∧
      answer.header.bytes? .autoregSalt = some salt ∧
      answer.header.bytes? .autoregMac = some (checksum .md5 (Bytes.ofString n.clientId)
        n.registrationKey serverSalt pair.certificate) := by
  intro pair salt
  refine ⟨.ofPayload (.ofList [(.id, .text n.clientId), (.autoregPubkey, .bytes pair.certificate),
    (.autoregSalt, .bytes salt), (.autoregMac, .bytes (checksum .md5 (Bytes.ofString n.clientId)
      n.registrationKey serverSalt pair.certificate))]) [], ?_, rfl, rfl, rfl⟩
  simp only [onChallenge, require, given, key, answerKey, shared]
  rfl

/-- The device takes the digest of its password out of a reply that is signed by the registration
password, and acknowledges it by a checksum. -/
theorem takesDigest (waits : n.waiting = some (secret, salt))
    (ctext : e.header.bytes? .autoregCtext = some hidden)
    (given : e.header.bytes? .autoregSalt = some ackSalt)
    (mac : e.header.bytes? .autoregMac = some (checksum .md5 (Bytes.ofString Gateway.serverName)
      n.registrationKey salt hidden))
    (unmasked : maskWithSecret secret hidden = .ok digest) : ∃ ack,
      n.onHiddenPassword e = .ok (ack, digest, { n with waiting := none }) ∧
      ack.header.bytes? .autoregMac = some (checksumOfDigest (n.authentication.getD .md5)
        (Bytes.ofString n.clientId) digest ackSalt secret) := by
  refine ⟨.ofPayload (.ofList [(.id, .text n.clientId), (.autoregMac, .bytes (checksumOfDigest
    (n.authentication.getD .md5) (Bytes.ofString n.clientId) digest ackSalt secret))]) [],
    ?_, rfl⟩
  simp only [onHiddenPassword, waits, require, ctext, given, mac, unmasked,
    Security.verifyChecksum_self, bind, Except.bind, Except.mapError]
  rfl

end Negotiator

/-! ## The exchange -/

namespace Session

variable {s : Session} {kind : ChecksumKind} {hello : Envelope} {p : Profile}

/-- The device of a session, before it negotiates: it knows the registration password. -/
def negotiator (s : Session) (kind : ChecksumKind) : Negotiator :=
  { clientId := s.clientId
    authentication := some kind
    registrationPassword := s.profile.sharedKey.getD "" }

/-- What an exchange of the session `s` has come to, in which the gateway `g` was about to take the
password into use for a client with the stored profile `p`. -/
structure Agreed (s : Session) (kind : ChecksumKind) (password : String) (p : Profile) (g : Gateway)
    (agreed : Session) (left : Gateway) : Prop where
  done : agreed.negotiation = .done
  profile : agreed.profile = { s.profile with password := some password }
  settled : agreed.profile.needsNegotiation = false
  /-- The password is stored for the client, and nothing else in the store is changed. -/
  stored : left.store.profile? s.clientId = some { p with password := some password }
  others : ∀ client ≠ s.clientId, left.store.profile? client = g.store.profile? client
  received : left.store.received = g.store.received
  outgoing : left.store.outgoing = g.store.outgoing
  /-- Whatever is signed by the digest of the password under the session's nonce is accepted. -/
  accepts : ∀ (request : Envelope) (entropy : Entropy) (g : Gateway),
    request.header.contains .challenge = false ∨ agreed.lastResponse = none →
    ∃ signed nonce rest after,
      (Credentials.mk s.clientId (some kind) s.profile.encryption
        (Crypto.md5 (Bytes.ofString password))).signRequest request
          (Bytes.ofString agreed.profile.nonce) entropy = (.ok (signed, nonce), rest) ∧
      agreed.authenticate signed g = ⟨.ok (.accepted request.payload), after, g⟩

/-- Once the server has taken a proper password into use, both sides agree. -/
theorem agreed_commit (authentication : s.profile.authentication = some kind) {password : String}
    (proper : Text.isBlank password = false) {g : Gateway}
    (known : g.store.profile? s.clientId = some p) : s.Agreed kind password p g
      { s with
        profile := { s.profile with password := some password }
        negotiation := .done
        attempts := 0 }
      { g with store := g.store.setPassword s.clientId password } := by
  have secured : Session.Secured
      { s with
        profile := { s.profile with password := some password }
        negotiation := .done
        attempts := 0 } kind password := by
    refine ⟨authentication, ?_⟩
    simp only [Profile.credential, Option.filter_some, proper, Bool.not_false, if_true]
  exact {
    done := rfl
    profile := rfl
    settled := secured.needsNegotiation
    stored := by simp only [Store.setPassword, Store.profile?_updateProfile, known, Option.map_some,
      if_true]
    others := by
      intro client different
      simp only [Store.setPassword, Store.profile?_updateProfile, different, if_false,
        Option.map_id']
    received := Store.received_updateProfile
    outgoing := Store.outgoing_updateProfile
    accepts := fun _ entropy g unchallenged => accepts_signRequest secured unchallenged entropy g }

/-- A session whose client has no working password and a device that knows the same registration
password, which may be empty, negotiate a password without an error, as long as the two sides of the
key exchange compute the same secret and the password drawn is not blank. In between, other clients
may change the gateway. -/
theorem negotiate_agrees (unkeyed : s.Unkeyed kind)
    (plain : ∀ key ∈ Negotiation.headerKeys, hello.header.contains key = false)
    (first second third : Gateway) (entropy : Entropy)
    (agree : first.drawKeyPair.1.Agree entropy.drawKeyPair.1)
    (proper : Text.isBlank second.drawPassword.1 = false)
    (known : third.store.profile? s.clientId = some p) :
    ∃ offer offering left,
      s.negotiate hello first = .ok ⟨some offer, offering, left⟩ ∧ left.store = first.store ∧
    ∃ answer waiting rest,
      (s.negotiator kind).onChallenge offer entropy = (.ok (answer, waiting), rest) ∧
    ∃ reply giving left,
      offering.negotiate answer second = .ok ⟨some reply, giving, left⟩ ∧
      left.store = second.store ∧
    ∃ ack finished,
      waiting.onHiddenPassword reply =
        .ok (ack, Crypto.md5 (Bytes.ofString second.drawPassword.1), finished) ∧
    ∃ agreed left,
      giving.negotiate ack third = .ok ⟨none, agreed, left⟩ ∧
      s.Agreed kind second.drawPassword.1 p third agreed left := by
  obtain ⟨secret, ours, theirs⟩ := agree
  obtain ⟨offer, offers, salt, key⟩ := unkeyed.offersKey plain first
  refine ⟨offer, _, _, offers,
    (Gateway.store_drawNonce _).trans first.store_drawKeyPair, ?_⟩
  obtain ⟨answer, answers, key, salt, mac⟩ :=
    Negotiator.answersKey (n := s.negotiator kind) salt key theirs
  refine ⟨answer, _, _, answers, ?_⟩
  -- the device has signed under the same name, registration password and salt
  have signed : answer.header.bytes? .autoregMac = some (checksum .md5 (Bytes.ofString s.clientId)
    s.registrationKey (Bytes.ofString first.drawKeyPair.2.drawNonce.1)
    entropy.drawKeyPair.1.certificate) := mac
  obtain ⟨hidden, reply, replies, ctext, ackSalt, mac, unmasked⟩ := offersPassword
    (s := { s with negotiation := .awaitingKey _ _ }) rfl key salt signed ours second
  refine ⟨reply, _, _, replies, (Gateway.store_drawNonce _).trans second.store_drawPassword, ?_⟩
  -- and so has the server
  have signed : reply.header.bytes? .autoregMac = some (checksum .md5
    (Bytes.ofString Gateway.serverName) (s.negotiator kind).registrationKey
    (Bytes.ofString entropy.drawKeyPair.2.drawNonce.1) hidden) := mac
  obtain ⟨ack, takes, mac⟩ := Negotiator.takesDigest
    (n := { s.negotiator kind with waiting := some _ }) rfl ctext ackSalt signed unmasked
  refine ⟨ack, _, takes, ?_⟩
  have acknowledged : ack.header.bytes? .autoregMac = some (checksumOfDigest kind
    (Bytes.ofString s.clientId) (Crypto.md5 (Bytes.ofString second.drawPassword.1))
    (Bytes.ofString second.drawPassword.2.drawNonce.1) secret) := mac
  have commits := commitsPassword
    (s := { s with
      negotiation := .awaitingAck (Bytes.ofString first.drawKeyPair.2.drawNonce.1) _ _ _ }) rfl
    unkeyed.authentication acknowledged third
  exact ⟨_, _, commits, agreed_commit unkeyed.authentication proper known⟩

def registeredProfile : Profile := .registered "dev" (some .sha1) (some .ctr128) "reg"

/-- A gateway that knows a client by its registration password only. -/
def registeringGateway : Gateway :=
  { store := { capacity := 4, profiles := [("dev", registeredProfile)] }
    entropy := { stream := UInt8.ofNat }
    passwords := .listed "fresh" []
    clock := 0 }

def registeredSession : Session := .start registeringGateway.store "dev"

def registeredHello : Envelope := ⟨⟨[(.id, .text "dev")]⟩, [], []⟩

theorem negotiate_agrees_fresh :
    let entropy : Entropy := { stream := fun _ => 7 }
    (registeredSession.Unkeyed .sha1 ∧
      (∀ key ∈ Negotiation.headerKeys, registeredHello.header.contains key = false) ∧
      registeringGateway.drawKeyPair.1.Agree entropy.drawKeyPair.1 ∧
      Text.isBlank registeringGateway.drawPassword.1 = false ∧
      registeringGateway.store.profile? "dev" = some registeredProfile) ∧
    ∃ agreeing ack agreed left,
      Session.negotiate ack agreeing registeringGateway = .ok ⟨none, agreed, left⟩ ∧
      registeredSession.Agreed .sha1 "fresh" registeredProfile registeringGateway agreed left := by
  intro entropy
  have unkeyed : registeredSession.Unkeyed .sha1 := by
    refine ⟨?_, ?_, ?_⟩ <;> rfl
  have plain : ∀ key ∈ Negotiation.headerKeys, registeredHello.header.contains key = false := by
    decide
  have agree : registeringGateway.drawKeyPair.1.Agree entropy.drawKeyPair.1 := by
    decide +kernel
  have proper : Text.isBlank registeringGateway.drawPassword.1 = false := by decide +kernel
  have known : registeringGateway.store.profile? "dev" = some registeredProfile := by rfl
  obtain ⟨_, _, _, _, _, _, _, _, _, _, _, _, _, _, ack, _, _, agreed, left, commits, both⟩ :=
    negotiate_agrees unkeyed plain registeringGateway registeringGateway registeringGateway entropy
      agree proper known
  exact ⟨⟨unkeyed, plain, agree, proper, known⟩, _, ack, agreed, left, commits, both⟩

end Session

end Telemetry
