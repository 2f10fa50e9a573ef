import Telemetry.Proofs.Session.Authentication
/-!
# What comes of judging a request

A request of a client with a working password is judged in one of five ways, and of these only one
accepts it. What each of them needs, and what it leaves behind, is said once here.
-/

namespace Telemetry

open Bysant (Envelope StatusCode)

open Security (ChecksumKind)

namespace Session

variable {kind : ChecksumKind} {password : String} {e : Envelope} {s : Session} {g : Gateway}
  {clear : Bytes}

/-- What comes of judging a request under a working password. -/
inductive Judged (kind : ChecksumKind) (password : String) (e : Envelope) (s : Session)
    (g : Gateway) : Outcome Verdict → Prop where
  /-- The client challenges the server, which has signed a response before. -/
  | replayed {response : Envelope} {nonce : Bytes}
      (challenges : e.header.contains .challenge = true)
      (last : s.lastResponse = some response)
      (given : e.header.bytes? .nonce = some nonce) :
      Judged kind password e s g ⟨.replay response, { s with peerNonce := some nonce }, g⟩
  | accepted {clear : Bytes}
      (mac : e.header.bytes? .mac = some (s.requestChecksum kind password e.payload))
      (opened : s.openPayload password e.payload = .ok clear) :
      Judged kind password e s g
        ⟨.accepted clear, { s with attempts := 0, peerNonce := e.header.bytes? .nonce }, g⟩
  /-- The checksum is right, but the payload cannot be deciphered. -/
  | unreadable
      (mac : e.header.bytes? .mac = some (s.requestChecksum kind password e.payload)) :
      Judged kind password e s g ⟨.refused (.ofStatus .badRequest) true, s, g⟩
  | challenged
      (mac : e.header.bytes? .mac ≠ some (s.requestChecksum kind password e.payload))
      (few : s.attempts + 1 < max 1 g.attemptLimit) {renewed : Outcome String}
      (drawn : { s with attempts := s.attempts + 1 }.renewNonce g = renewed) :
      Judged kind password e s g
        ⟨.refused (challengeEnvelope kind renewed.result) false, renewed.session, renewed.gateway⟩
  /-- There were too many failures in a row. -/
  | lockedOut
      (mac : e.header.bytes? .mac ≠ some (s.requestChecksum kind password e.payload))
      (many : max 1 g.attemptLimit ≤ s.attempts + 1) :
      Judged kind password e s g
        ⟨.refused (.ofStatus .forbidden) true, { s with attempts := s.attempts + 1 }, g⟩

theorem judged_challenge
    (mac : e.header.bytes? .mac ≠ some (s.requestChecksum kind password e.payload)) :
    Judged kind password e s g (s.challenge kind g) := by
  unfold challenge
  by_cases many : max 1 g.attemptLimit ≤ s.attempts + 1
  · rw [if_pos many]
    exact .lockedOut mac many
  · rw [if_neg many]
    generalize drawn : renewNonce _ g = renewed
    exact .challenged mac (Nat.lt_of_not_le many) drawn

/-- The checksum decides, and for an authentic request its payload. -/
theorem judged_byChecksum : Judged kind password e s g
    (match e.header.bytes? .mac with
    | none => s.challenge kind g
    | some mac =>
      match Security.verifyChecksum (s.requestChecksum kind password e.payload) mac with
      | .error _ => s.challenge kind g
      | .ok () =>
        match s.openPayload password e.payload with
        | .ok payload =>
          ⟨.accepted payload, { s with attempts := 0, peerNonce := e.header.bytes? .nonce }, g⟩
        | .error _ => ⟨.refused (.ofStatus .badRequest) true, s, g⟩) := by
  cases given : e.header.bytes? .mac with
  | none => exact judged_challenge (by rw [given]; exact nofun)
  | some mac =>
    dsimp only
    by_cases same : s.requestChecksum kind password e.payload = mac
    · subst same
      rw [Security.verifyChecksum_self]
      cases opened : s.openPayload password e.payload with
      | ok clear => exact .accepted given opened
      | error _ => exact .unreadable given
    · rw [Security.verifyChecksum_of_ne same]
      exact judged_challenge fun own => same (Option.some.inj (given.symm.trans own)).symm

theorem judged_judge (kind : ChecksumKind) (password : String) (e : Envelope) (s : Session)
    (g : Gateway) : Judged kind password e s g (s.judge kind password e g) := by
  unfold judge
  dsimp only
  split
  · rename_i challenges last given
    rw [given]
    exact .replayed challenges last given
  · exact judged_byChecksum

/-- A request with the right checksum is accepted, unless it asks for the last response again. -/
theorem judge_of_mac (mac : e.header.bytes? .mac = some (s.requestChecksum kind password e.payload))
    (opened : s.openPayload password e.payload = .ok clear)
    (unchallenged : e.header.contains .challenge = false ∨ s.lastResponse = none ∨
      e.header.bytes? .nonce = none) :
    s.judge kind password e g =
      ⟨.accepted clear, { s with attempts := 0, peerNonce := e.header.bytes? .nonce }, g⟩ := by
  unfold judge
  dsimp only
  split
  · rename_i challenges last given
    rcases unchallenged with never | nothing | without
    · rw [never] at challenges
      cases challenges
    · rw [nothing] at last
      cases last
    · rw [without] at given
      cases given
  · rw [mac]
    dsimp only
    rw [Security.verifyChecksum_self, opened]

/-- A session that has to authenticate its client judges its requests under the working password. -/
theorem Secured.authenticate_eq (h : s.Secured kind password) (e : Envelope) (g : Gateway) :
    s.authenticate e g =
      let judged := { s with peerNonce := none }.judge kind password e g
      ⟨.ok judged.result, judged.session, judged.gateway⟩ := by
  unfold authenticate
  simp only [h.authentication, h.credential]

/-- Whatever carries the right checksum and can be deciphered is accepted, unless it asks for the
last response again. -/
theorem Secured.authenticate_of_mac (h : s.Secured kind password)
    (mac : e.header.bytes? .mac = some (s.requestChecksum kind password e.payload))
    (opened : s.openPayload password e.payload = .ok clear)
    (unchallenged : e.header.contains .challenge = false ∨ s.lastResponse = none ∨
      e.header.bytes? .nonce = none) (g : Gateway) :
    s.authenticate e g = ⟨.ok (.accepted clear),
      { s with attempts := 0, peerNonce := e.header.bytes? .nonce }, g⟩ := by
  have judged := judge_of_mac (s := { s with peerNonce := none }) (g := g) mac opened unchallenged
  rw [h.authenticate_eq, judged]

/-- Whatever is accepted carries the right checksum, and can be deciphered. -/
theorem Secured.of_accepted (h : s.Secured kind password)
    (accepted : (s.authenticate e g).result = .ok (.accepted clear)) :
    e.header.bytes? .mac = some (s.requestChecksum kind password e.payload) ∧
      s.openPayload password e.payload = .ok clear := by
  rw [h.authenticate_eq] at accepted
  have verdict := Except.ok.inj accepted
  have judged := judged_judge kind password e { s with peerNonce := none } g
  generalize judge kind password e { s with peerNonce := none } g = outcome at judged verdict
  cases judged with
  | accepted mac opened =>
    obtain rfl := Verdict.accepted.inj verdict
    exact ⟨mac, opened⟩
  | _ => cases verdict

/-! ## Requests of the session's own device -/

variable {request : Envelope} {nonce ciphered : Bytes}

/-- The session accepts a request that its device has signed, and remembers the device's nonce. -/
theorem authenticate_signedRequest (h : s.Secured kind password)
    (unchallenged : request.header.contains .challenge = false ∨ s.lastResponse = none)
    (opened : s.openPayload password ciphered = .ok request.payload) (g : Gateway) :
    s.authenticate (s.signedRequest kind password request nonce ciphered) g =
      ⟨.ok (.accepted request.payload), { s with attempts := 0, peerNonce := some nonce }, g⟩ := by
  have unchallenged : (s.signedRequest kind password request nonce ciphered).header.contains
      .challenge = false ∨ s.lastResponse = none ∨
        (s.signedRequest kind password request nonce ciphered).header.bytes? .nonce = none := by
    rw [contains_challenge_signedRequest]
    exact unchallenged.imp_right .inl
  rw [h.authenticate_of_mac bytes?_mac_signedRequest opened unchallenged, bytes?_nonce_signedRequest]

/-- Whatever the device signs under the session's nonce, the session accepts. -/
theorem accepts_signRequest (h : s.Secured kind password)
    (unchallenged : request.header.contains .challenge = false ∨ s.lastResponse = none)
    (entropy : Security.Entropy) (g : Gateway) : ∃ signed nonce rest after,
      (s.device kind password).signRequest request (Bytes.ofString s.profile.nonce) entropy =
        (.ok (signed, nonce), rest) ∧
      s.authenticate signed g = ⟨.ok (.accepted request.payload), after, g⟩ := by
  obtain ⟨ciphered, opened, signs⟩ := signRequest_eq s kind password request entropy
  exact ⟨_, _, _, _, signs, authenticate_signedRequest h unchallenged opened g⟩

end Session

end Telemetry
