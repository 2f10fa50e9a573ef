import Telemetry.Proofs.Gateway.Answers
import Telemetry.Proofs.Gateway.Reachable
import Telemetry.Proofs.Session.Judgement
/-!
# Secured exchanges

A device that signs its requests under the last nonce it was given is always answered, for as many
rounds as it likes and whatever happens to the rest of the gateway meanwhile. The server takes in
the payload that the device was given, and the device opens the payload that the server sends.
-/

namespace Telemetry

open Bysant

open Security (ChecksumKind Entropy)

namespace Bysant

/-! ## Envelopes that keep to the format -/

variable {p : Value → Bool} {entries : List (HeaderKey × Value)} {key : HeaderKey} {value : Value}

theorem everywhereEntries_put (all : everywhereEntries p entries = true)
    (here : value.everywhere p = true) : everywhereEntries p (Header.put key value entries) = true := by
  induction entries with
  | nil => simp [Header.put, everywhereEntries, here]
  | cons entry rest ih =>
    simp only [everywhereEntries, Bool.and_eq_true] at all
    unfold Header.put
    split
    · simp [everywhereEntries, here, all.2]
    · simp [everywhereEntries, all.1, ih all.2]

theorem wellFormed_envelope_iff {payload : Bytes} {footer : List (Value × Value)} :
    (Value.envelope ⟨⟨entries⟩, payload, footer⟩).WellFormed ↔ (entries.map Prod.fst).Nodup ∧
      everywhereEntries Value.isTabular entries = true ∧
        everywherePairs Value.isTabular footer = true := by
  unfold Value.WellFormed
  simp only [Value.everywhere, Value.isTabular, Bool.and_eq_true, decide_eq_true_eq, and_assoc]
  rfl

/-- Keys that a header may have: each once, and each the key that its name stands for. -/
def KeysFit (keys : List HeaderKey) : Prop :=
  keys.Nodup ∧ keys.length ≤ maxLength ∧
    ∀ key ∈ keys, fitsText key.name = true ∧ HeaderKey.ofName key.name = key

instance (keys : List HeaderKey) : Decidable (KeysFit keys) :=
  inferInstanceAs (Decidable (_ ∧ _ ∧ _))

theorem flat_of_leaves
    (leaves : ∀ entry ∈ entries, entry.2.container? = none ∧ entry.2.isSound = true) :
    depthEntries entries = 0 ∧ everywhereEntries Value.isSound entries = true := by
  induction entries with
  | nil => exact ⟨rfl, rfl⟩
  | cons entry rest ih =>
    obtain ⟨⟨leaf, sound⟩, others⟩ := List.forall_mem_cons.mp leaves
    obtain ⟨shallow, parts⟩ : entry.2.Sound 0 := .of_leaf leaf sound
    obtain ⟨flat, more⟩ := ih others
    rw [depthEntries, everywhereEntries, flat, more, parts]
    exact ⟨Nat.max_eq_zero_iff.mpr ⟨Nat.le_zero.mp shallow, rfl⟩, rfl⟩

/-- An envelope without containers in its header keeps to the limits if its payload and the values
of its header do. -/
theorem sound_of_leaves {header : Header} {payload : Bytes} (keys : KeysFit header.keys)
    (leaves : ∀ entry ∈ header.entries, entry.2.container? = none ∧ entry.2.isSound = true)
    (fits : payload.length ≤ maxLength) :
    (Value.envelope ⟨header, payload, []⟩).Sound maxDepth := by
  obtain ⟨distinct, few, named⟩ := keys
  obtain ⟨entries⟩ := header
  obtain ⟨flat, parts⟩ := flat_of_leaves leaves
  have few : entries.length ≤ maxLength := by simpa [Header.keys] using few
  have fitting (entry : HeaderKey × Value) (member : entry ∈ entries) :
      fitsText entry.1.name = true := (named entry.1 (List.mem_map_of_mem member)).1
  refine ⟨?_, ?_⟩
  · simp only [Value.depth, flat, depthPairs]
    decide
  · have self : (Value.envelope ⟨⟨entries⟩, payload, []⟩).isSound = true := by
      simp only [Value.isSound, Value.isShort, Value.isCanonical, Value.isTabular, Bool.and_eq_true,
        decide_eq_true_eq]
      exact ⟨⟨few, fitting, fits, Nat.zero_le _⟩, fun key member => (named key member).2, distinct⟩
    simp only [Value.everywhere, self, parts, everywherePairs, Bool.and_self]

/-- Setting a key of its header and changing its payload keeps an envelope well-formed. -/
theorem wellFormed_insert {header : Header} {payload : Bytes} {footer : List (Value × Value)}
    (h : (Value.envelope ⟨header, payload, footer⟩).WellFormed) (key : HeaderKey) (value : Value)
    (leaf : value.WellFormed) (other : Bytes) :
    (Value.envelope ⟨header.insert key value, other, footer⟩).WellFormed := by
  obtain ⟨entries⟩ := header
  obtain ⟨distinct, inside, rest⟩ := wellFormed_envelope_iff.mp h
  exact wellFormed_envelope_iff.mpr
    ⟨Header.nodup_put distinct, everywhereEntries_put inside leaf, rest⟩

end Bysant

namespace Session

variable {s : Session} {kind : ChecksumKind} {password : String}
  {request : Envelope} {nonce ciphered : Bytes}

theorem wellFormed_signedRequest (h : (Value.envelope request).WellFormed) :
    (Value.envelope (s.signedRequest kind password request nonce ciphered)).WellFormed := by
  obtain ⟨header, payload, footer⟩ := request
  exact wellFormed_insert (wellFormed_insert (wellFormed_insert h .id
    (.text s.clientId) rfl ciphered) .nonce (.bytes nonce) rfl ciphered) .mac (.bytes _) rfl ciphered

/-- A signed reply keeps to the limits of the format, unless its payload is too long. -/
theorem sound_signedResponse (kind : ChecksumKind) (password : String) (nonce clear : Bytes)
    {fresh : Bytes} (freshFits : fresh.length ≤ maxLength) (fits : ciphered.length ≤ maxLength) :
    (Value.envelope (signedResponse kind password
      (.ofPayload (.ofList [(.status, StatusCode.ok.toValue)]) clear) fresh nonce ciphered)).Sound
        maxDepth := by
  obtain ⟨mac, macFits, is⟩ : ∃ mac : Bytes, mac.length ≤ maxLength ∧ signedResponse kind password
      (.ofPayload (.ofList [(.status, StatusCode.ok.toValue)]) clear) fresh nonce ciphered =
        ⟨⟨[(.status, .int 200), (.nonce, .bytes fresh), (.mac, .bytes mac)]⟩, ciphered, []⟩ := by
    refine ⟨_, ?_, rfl⟩
    rw [Security.length_checksum]
    cases kind <;> decide
  rw [is]
  refine sound_of_leaves (by decide : KeysFit [.status, .nonce, .mac]) ?_ fits
  simp [Value.container?, Value.isSound, Value.isShort, Value.isCanonical, Value.isTabular,
    freshFits, macFits]

/-- Such a reply is read from its encoding. -/
theorem decode_signedResponse (kind : ChecksumKind) (password : String) (nonce clear : Bytes)
    {fresh : Bytes} (freshFits : fresh.length ≤ maxLength) (fits : ciphered.length ≤ maxLength) :
    let reply := signedResponse kind password
      (.ofPayload (.ofList [(.status, StatusCode.ok.toValue)]) clear) fresh nonce ciphered
    decode reply.encode = .ok [.envelope reply] := by
  intro reply
  have sound : (Value.envelope reply).Sound maxDepth :=
    sound_signedResponse kind password nonce clear freshFits fits
  have read : decode (encodeAll [.envelope reply]) = .ok [.envelope reply] :=
    decode_encodeAll_of_sound (by simpa using sound)
  simpa [encodeAll, Envelope.encode] using read

end Session

namespace Connection

variable {c : Connection} {s : Session} {kind : ChecksumKind} {password : String}
  {request : Envelope} {nonce ciphered payload : Bytes} {values : List Value}

/-! ## Signed answers -/

/-- What comes of a request whose payload in clear is `payload` and decodes to `values`, and which
was signed along with `nonce`. -/
structure Answered (s : Session) (kind : ChecksumKind) (password : String) (payload : Bytes)
    (values : List Value) (nonce : Bytes) (g : Gateway) (reply : Envelope) (after : Session)
    (gateway : Gateway) : Prop where
  status : reply.status? = some .ok
  /-- The device opens the reply. -/
  opened : (s.device kind password).openResponse reply nonce =
    .ok (encodeAll (answerValues s.clientId values g))
  /-- The device can read the reply, if it is not too long. -/
  read : reply.payload.length ≤ maxLength → Bysant.decode reply.encode = .ok [.envelope reply]
  /-- The server has taken in the payload, emptied the queue and drawn the next nonce. -/
  handled : ∃ received,
    takeIn s.clientId payload g = .ok (values.filterMap Value.acknowledgement?, received) ∧
      gateway = (s.renewNonce
        { received with store := (received.store.dequeue s.clientId).2 }).gateway
  /-- One record of the payload is kept, and nothing waits for the client any more. -/
  takesIn : g.TakesIn s.clientId payload values gateway
  /-- The reply brings the nonce for the next request. -/
  next : reply.header.bytes? .nonce = some (Bytes.ofString after.profile.nonce)
  secured : after.Secured kind password
  device : after.device kind password = s.device kind password

/-- A session answers the requests that its device has signed. -/
theorem handle_signedRequest (secured : s.Secured kind password)
    (unchallenged : request.header.contains .challenge = false)
    (opened : s.openPayload password ciphered = .ok request.payload)
    (decodes : Bysant.decode request.payload = .ok values) (nonce : Bytes) (g : Gateway) :
    ∃ reply after gateway, handle (s.signedRequest kind password request nonce ciphered) (some s) g =
        ⟨⟨[reply], false⟩, some after, gateway⟩ ∧
      Answered s kind password request.payload values nonce g reply after gateway := by
  -- the session that has accepted the request, and from which the reply is signed
  have accepted : { s with attempts := 0, peerNonce := some nonce }.Secured kind password :=
    ⟨secured.authentication, secured.credential⟩
  obtain ⟨reciphered, reopened, signed⟩ := Session.signResponse_eq accepted rfl
    (answerEnvelope s.clientId values g) (answeredGateway s.clientId request.payload values g)
  have own : sessionFor (s.signedRequest kind password request nonce ciphered) (some s) g = some s := by
    unfold sessionFor
    simp only [Session.senderId?_signedRequest, if_true]
  have responds : handle (s.signedRequest kind password request nonce ciphered) (some s) g =
      respond (answerEnvelope s.clientId values g) { s with attempts := 0, peerNonce := some nonce }
        (answeredGateway s.clientId request.payload values g) := by
    rw [handle, own]
    dsimp only
    rw [handleIn, secured.needsNegotiation, if_neg (by decide),
      Session.authenticate_signedRequest secured (.inl unchallenged) opened]
    dsimp only
    rw [answer_eq decodes]
  rw [responds, respond, signed]
  refine ⟨_, _, _, rfl, ?_⟩
  exact {
    status := Session.status?_signedResponse.trans rfl
    opened := Session.openResponse_signedResponse reopened
    read := fun fits => Session.decode_signedResponse kind password nonce _
      ((Nat.le_of_eq (length_drawNonce _)).trans (by decide)) fits
    handled := ⟨_, takeIn_eq s.clientId decodes g, rfl⟩
    takesIn := (takesIn_answeredGateway s.clientId request.payload values g).congr
      Store.received_updateProfile Store.outgoing_updateProfile
    next := Session.bytes?_nonce_signedResponse
    secured := ⟨secured.authentication, secured.credential⟩
    device := rfl }

/-! ## Rounds -/

/-- An open connection waits between two envelopes, and its session authenticates its client. -/
structure Awaits (c : Connection) (s : Session) (kind : ChecksumKind) (password : String) : Prop where
  reachable : c.Reachable
  whole : c.decoder.hasPending = false
  session : c.session = some s
  secured : s.Secured kind password

/-- Between two envelopes, an open connection handles the envelope whose encoding it is fed, and
nothing else. -/
theorem Reachable.onBytes_encode (h : c.Reachable) (whole : c.decoder.hasPending = false)
    {e : Envelope} (sound : (Value.envelope e).Sound maxDepth) {g : Gateway} {handled : Handled}
    (handles : handle e c.session g = handled) (stays : handled.reaction.close = false) :
    ∃ after : Connection, c.onBytes e.encode g = (handled.reaction, after, handled.gateway) ∧
      after.Reachable ∧ after.decoder.hasPending = false ∧ after.session = handled.session := by
  obtain ⟨decoder, decoded, whole⟩ := decode_encodeAll h.follows whole
    (by simpa using sound : ∀ v ∈ [Value.envelope e], v.Sound maxDepth)
    (by simp [Value.unit?] : ∀ v ∈ [Value.envelope e], v.unit?.isSome)
  have encoded : encodeAll [.envelope e] = e.encode := List.append_nil _
  have alone : handleAll [e] c.session g = handled :=
    (handleAll_singleton e c.session g).trans handles
  have fed : c.onBytes e.encode g =
      (handled.reaction, ⟨decoder, handled.session⟩, handled.gateway) := by
    rw [onBytes, ← encoded, decoded]
    simp only [List.filterMap_cons, Value.unit?, List.filterMap_nil, alone]
  refine ⟨_, fed, ?_, whole, rfl⟩
  have reached := h.fed e.encode g (by rw [fed]; exact stays)
  rwa [fed] at reached

/-- A device that knows the working password is answered. Signing a request never fails; if the
signed request keeps to the limits of the format, the connection stays open and sends one reply,
which says that all went well. The server has taken in the payload that the device was given, and
the device opens the payload that the server sent: the messages queued for the client and the
acknowledgements. The connection then waits for the next request of the same device, whose nonce
came with the reply. The gateway may be in any state, whatever has happened to it before. -/
theorem onBytes_signRequest (awaits : c.Awaits s kind password)
    (wellFormed : (Value.envelope request).WellFormed)
    (unchallenged : request.header.contains .challenge = false)
    (decodes : Bysant.decode request.payload = .ok values) (g : Gateway) (entropy : Entropy) :
    let device := Credentials.ofPassword s.clientId (some kind) s.profile.encryption password
    ∃ signed nonce rest,
      device.signRequest request (Bytes.ofString s.profile.nonce) entropy =
        (.ok (signed, nonce), rest) ∧
      ((Value.envelope signed).Representable → ∃ reply after session gateway,
        c.onBytes signed.encode g = (⟨[reply], false⟩, after, gateway) ∧
        Answered s kind password request.payload values nonce g reply session gateway ∧
        after.Awaits session kind password) := by
  intro device
  obtain ⟨ciphered, opened, signs⟩ := Session.signRequest_eq s kind password request entropy
  refine ⟨_, _, _, signs, fun representable => ?_⟩
  obtain ⟨reply, session, gateway, handles, answered⟩ := handle_signedRequest awaits.secured
    unchallenged opened decodes (Bytes.ofString entropy.drawNonce.1) g
  have sound := sound_iff.mpr ⟨representable, Session.wellFormed_signedRequest wellFormed⟩
  rw [← awaits.session] at handles
  obtain ⟨after, fed, reachable, whole, same⟩ :=
    awaits.reachable.onBytes_encode awaits.whole sound handles rfl
  exact ⟨reply, after, session, gateway, fed, answered, reachable, whole, same, answered.secured⟩

/-- A gateway that knows a client with a working password, whose payloads are ciphered. -/
def securedGateway : Gateway :=
  { emptyGateway with
    store :=
      { capacity := 4
        profiles := [("dev", ⟨"dev", some .md5, some .cbc128, "000000", none, some "pw"⟩)] } }

def hello : Envelope := ⟨⟨[(.id, .text "dev")]⟩, [], []⟩

/-- The session in which it is challenged. -/
def challengedSession : Session :=
  (handle hello none securedGateway).session.getD (.unsecured "")

theorem session_hello : (handle hello none securedGateway).session = some challengedSession := by
  unfold challengedSession
  obtain ⟨s, opened⟩ := Option.isSome_iff_exists.mp
    (by decide +kernel : (handle hello none securedGateway).session.isSome)
  rw [opened, Option.getD_some]

theorem stays_hello : (handle hello none securedGateway).reaction.close = false := by decide +kernel

theorem sound_hello : (Value.envelope hello).Sound maxDepth :=
  sound_iff.mpr ⟨by decide +kernel, by decide +kernel⟩

def reported : List Value := [.message ⟨"@sys", some 7, [("temp", .int 3)]⟩]

def report : Envelope := ⟨⟨[]⟩, encodeAll reported, []⟩

/-- Whether signing has given an envelope that keeps to the limits. -/
def isSigned : Except DeviceError (Envelope × Bytes) → Bool
  | .ok (signed, _) => (Value.envelope signed).Representable
  | .error _ => false

/-- The challenged client is waited for. -/
theorem exists_awaits_challengedSession : ∃ c : Connection, c.Awaits challengedSession .md5 "pw" := by
  obtain ⟨c, -, reachable, whole, session⟩ :=
    Reachable.created.onBytes_encode rfl sound_hello rfl stays_hello
  exact ⟨c, reachable, whole, session.trans session_hello, by decide +kernel, by decide +kernel⟩

theorem decode_report : Bysant.decode report.payload = .ok reported := by
  have representable : ∀ v ∈ reported, v.Representable := by decide +kernel
  have wellFormed : ∀ v ∈ reported, v.WellFormed := by decide +kernel
  exact decode_encodeAll_of_sound fun v member =>
    sound_iff.mpr ⟨representable v member, wellFormed v member⟩

theorem isSigned_report : isSigned ((challengedSession.device .md5 "pw").signRequest report
    (Bytes.ofString challengedSession.profile.nonce) emptyGateway.entropy).1 = true := by
  decide +kernel

theorem onBytes_signRequest_report : ∃ c : Connection,
    (c.Awaits challengedSession .md5 "pw" ∧ (Value.envelope report).WellFormed ∧
      report.header.contains .challenge = false ∧ Bysant.decode report.payload = .ok reported) ∧
    ∃ signed nonce reply after session gateway, (Value.envelope signed).Representable ∧
      c.onBytes signed.encode emptyGateway = (⟨[reply], false⟩, after, gateway) ∧
      Answered challengedSession .md5 "pw" report.payload reported nonce emptyGateway reply session
        gateway := by
  obtain ⟨c, awaits⟩ := exists_awaits_challengedSession
  have wellFormed : (Value.envelope report).WellFormed := by decide +kernel
  have unchallenged : report.header.contains .challenge = false := by decide +kernel
  obtain ⟨signed, nonce, rest, signs, exchange⟩ := onBytes_signRequest awaits wellFormed
    unchallenged decode_report emptyGateway emptyGateway.entropy
  have signs : ((challengedSession.device .md5 "pw").signRequest report
      (Bytes.ofString challengedSession.profile.nonce) emptyGateway.entropy).1 =
        .ok (signed, nonce) := congrArg Prod.fst signs
  have fits := isSigned_report
  rw [signs] at fits
  have representable : (Value.envelope signed).Representable := by simpa [isSigned] using fits
  obtain ⟨reply, after, session, gateway, fed, answered, -⟩ := exchange representable
  exact ⟨c, ⟨awaits, wellFormed, unchallenged, decode_report⟩, signed, nonce, reply, after, session,
    gateway, representable, fed, answered⟩

end Connection

end Telemetry
