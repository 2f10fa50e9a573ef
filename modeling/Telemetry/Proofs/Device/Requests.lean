import Telemetry.Proofs.Gateway.Sending
import Telemetry.Proofs.Gateway.Serving
/-!
# Signed requests and what comes of them

A device that signs its request under the nonce that the server has stored is answered, and one that
signs under another nonce is challenged. Either reply brings the nonce for the next request, which
the client keeps.
-/

namespace Telemetry

open Bysant

open Security (ChecksumKind Encryption Entropy KeyIv Profile checksum)

open Store (ReceivedEnvelope ReceivedMessage lastEntries)

/-! ## The length of a sealed payload -/

/-- How long a payload is when it is sent. -/
def Security.Encryption.sealedLength (encryption : Encryption) (length : Nat) : Nat :=
  match encryption with
  | none => length
  | some cipher => cipher.cipheredLength length

theorem Credentials.exists_sealPayload (d : Credentials) (nonce payload : Bytes) :
    ∃ ciphered, d.sealPayload nonce payload = .ok ciphered ∧
      ciphered.length = d.encryption.sealedLength payload.length := by
  unfold sealPayload Encryption.sealedLength
  cases d.encryption with
  | none => exact ⟨payload, rfl, rfl⟩
  | some cipher =>
    obtain ⟨ciphered, encrypted, -⟩ :=
      KeyIv.decrypt_encrypt (KeyIv.fits_ofDigest cipher d.passwordDigest nonce) payload
    refine ⟨ciphered, ?_, KeyIv.length_of_encrypt encrypted⟩
    dsimp only
    rw [encrypted]
    rfl

theorem Session.length_of_sealPayload {s : Session} {password : String}
    {nonce payload ciphered : Bytes} (sent : s.sealPayload password nonce payload = .ok ciphered) :
    ciphered.length = s.profile.encryption.sealedLength payload.length := by
  unfold sealPayload at sent
  unfold Encryption.sealedLength
  cases cipher : s.profile.encryption with
  | none =>
    rw [cipher] at sent
    obtain rfl := Except.ok.inj sent
    rfl
  | some cipher =>
    simp only [cipher] at sent
    exact KeyIv.length_of_encrypt sent

variable {c : Client} {p : Profile} {kind : ChecksumKind} {password client fresh : String}
  {messages : List Message} {nonce mac ciphered : Bytes} {g : Gateway} {entropy rest : Entropy}

/-! ## Signed requests -/

/-- A request that names a client, brings a nonce and is signed. -/
def Bysant.Envelope.signed (client : String) (nonce mac payload : Bytes) : Envelope :=
  ⟨⟨[(.id, .text client), (.nonce, .bytes nonce), (.mac, .bytes mac)]⟩, payload, []⟩

theorem Bysant.sound_signed (named : (Bytes.ofString client).length ≤ maxLength)
    (nonceFits : nonce.length ≤ maxLength) (macFits : mac.length ≤ maxLength)
    (fits : ciphered.length ≤ maxLength) :
    (Value.envelope (.signed client nonce mac ciphered)).Sound maxDepth := by
  have named : fitsText client = true := decide_eq_true named
  refine sound_of_leaves (by decide : KeysFit [.id, .nonce, .mac]) ?_ fits
  simp [Value.container?, Value.isSound, Value.isShort, Value.isCanonical, Value.isTabular, named,
    nonceFits, macFits]

/-- The session that a client's first envelope opens. -/
def Connection.opening (client : String) (p : Profile) : Session :=
  { clientId := client, profile := p }

/-- A profile asks for a checksum, and a device knows the working password. -/
structure Client.Shares (c : Client) (client : String) (kind : ChecksumKind) (password : String)
    (p : Profile) : Prop where
  authentication : p.authentication = some kind
  credential : p.credential = some password
  credentials : c.credentials = some (.ofPassword client (some kind) p.encryption password)

theorem Client.Shares.secured (shares : c.Shares client kind password p) :
    (Connection.opening client p).Secured kind password :=
  ⟨shares.authentication, shares.credential⟩

/-- A device seals the payload of a request with messages, under the nonce that it holds. -/
def Client.Seals (c : Client) (messages : List Message) (ciphered : Bytes) : Prop :=
  ∃ d, c.credentials = some d ∧
    d.sealPayload c.serverNonce (encodeAll (messages.map .message)) = .ok ciphered

theorem Client.Shares.request_eq (shares : c.Shares client kind password p)
    (messages : List Message) (entropy : Entropy) : ∃ ciphered, c.Seals messages ciphered ∧
      ciphered.length = p.encryption.sealedLength (encodeAll (messages.map .message)).length ∧
      c.request messages entropy =
        (.ok (.signed client (Bytes.ofString entropy.drawNonce.1)
          (checksum kind (Bytes.ofString client) (Bytes.ofString password) c.serverNonce ciphered)
          ciphered, Bytes.ofString entropy.drawNonce.1), entropy.drawNonce.2) := by
  obtain ⟨ciphered, sent, long⟩ := Credentials.exists_sealPayload
    (.ofPassword client (some kind) p.encryption password) c.serverNonce
    (encodeAll (messages.map .message))
  refine ⟨ciphered, ⟨_, shares.credentials, sent⟩, long, ?_⟩
  have payload : (Envelope.ofMessages .empty messages).payload =
    encodeAll (messages.map .message) := rfl
  unfold request
  simp only [shares.credentials, Credentials.signRequest, payload]
  simp only [sent]
  rfl

/-! ## What the gateway makes of it -/

namespace Connection

theorem handle_signed (stored : g.store.profile? client = some p) :
    handle (.signed client nonce mac ciphered) none g =
      handleIn (.signed client nonce mac ciphered) (opening client p) g := by
  have names : (Envelope.signed client nonce mac ciphered).senderId? = some client := rfl
  have opens : sessionFor (.signed client nonce mac ciphered) none g = some (opening client p) := by
    unfold sessionFor
    rw [names]
    dsimp only
    rw [Session.start, stored]
    rfl
  rw [handle, opens]

/-- A new connection challenges a client that signs under another nonce. -/
theorem handle_signed_of_ne (secured : (opening client p).Secured kind password)
    (stored : g.store.profile? client = some p) (attempts : 2 ≤ g.attemptLimit)
    (different : mac ≠ (opening client p).requestChecksum kind password ciphered) (nonce : Bytes) :
    let handled := handle (.signed client nonce mac ciphered) none g
    ∃ fresh, (Bytes.ofString fresh).length = 16 ∧
      handled.reaction = ⟨[Session.challengeEnvelope kind fresh], false⟩ ∧
      g.Quiet handled.gateway ∧
      handled.gateway.store.profile? client = some { p with nonce := fresh } := by
  intro handled
  have other : (Envelope.signed client nonce mac ciphered).header.bytes? .mac ≠
      some ((opening client p).requestChecksum kind password ciphered) := by
    intro same
    exact different (Option.some.inj same)
  have authenticates := secured.authenticate_eq (.signed client nonce mac ciphered) g
  have judged := Session.judged_judge kind password (.signed client nonce mac ciphered)
    { opening client p with peerNonce := none } g
  have judges : handled = handleIn (.signed client nonce mac ciphered) (opening client p) g :=
    handle_signed stored
  rw [judges, handleIn, secured.needsNegotiation, if_neg (by decide), authenticates]
  generalize Session.judge kind password (.signed client nonce mac ciphered)
    { opening client p with peerNonce := none } g = outcome at judged
  cases judged with
  | replayed challenges last given => cases challenges
  | accepted same opened => exact absurd same other
  | unreadable same => exact absurd same other
  | lockedOut _ many =>
    have first : (opening client p).attempts + 1 = 1 := rfl
    have many : max 1 g.attemptLimit ≤ (opening client p).attempts + 1 := many
    omega
  | challenged _ few drawn =>
    subst drawn
    refine ⟨_, length_drawNonce g.entropy, rfl, ?_, ?_⟩
    · exact Session.quiet_renewNonce _ g
    · exact Store.profile?_setNonce stored _

/-- The messages of a client were taken in, once, and what waited for it was taken out. -/
structure Receives (client : String) (messages : List Message) (g left : Gateway) : Prop where
  /-- The time of the reception lies behind all earlier ones. -/
  later : g.lastReception < g.nextReception.1
  /-- One record is kept with the others of the client, with all messages in their order. -/
  recorded : left.store.receivedFrom client = lastEntries g.store.capacity
    (Table.put g.nextReception.1 ⟨g.clock, messages.map (ReceivedMessage.ofMessage g.clock)⟩
      (g.store.receivedFrom client))
  others : ∀ other, other ≠ client →
    left.store.receivedFrom other = g.store.receivedFrom other
  waiting : ∀ other, left.store.waiting other =
    if other = client then [] else g.store.waiting other

theorem ofValues_map_message (clock : Int64) (messages : List Message) :
    ReceivedEnvelope.ofValues clock (messages.map .message) =
      ⟨clock, messages.map (ReceivedMessage.ofMessage clock)⟩ := by
  rw [ReceivedEnvelope.ofValues, List.filterMap_map, ← List.filterMap_eq_map]
  rfl

theorem filterMap_map_message (messages : List Message) :
    (messages.map .message).filterMap Value.acknowledgement? =
      messages.filterMap Message.acknowledgement? := by
  rw [List.filterMap_map]
  rfl

theorem receives_answeredGateway (reports : messages ≠ []) (s : Session) (g : Gateway) :
    let answered := answeredGateway s.clientId (encodeAll (messages.map .message))
      (messages.map .message) g
    Receives s.clientId messages g (s.renewNonce answered).gateway := by
  intro answered
  have full : encodeAll (messages.map .message) ≠ [] := by
    obtain ⟨first, others, rfl⟩ := List.exists_cons_of_ne_nil reports
    have written := length_encode_pos (.message first)
    rw [List.map_cons, encodeAll]
    exact List.append_ne_nil_of_left_ne_nil (List.length_pos_iff.mp written) _
  -- the next nonce is drawn behind the answer
  have quiet := Session.quiet_renewNonce s answered
  have takesIn := (takesIn_answeredGateway s.clientId (encodeAll (messages.map .message))
    (messages.map .message) g).congr quiet.received quiet.outgoing
  obtain ⟨later, recorded⟩ := takesIn.recorded full
  rw [ofValues_map_message] at recorded
  exact ⟨later, recorded, takesIn.others, takesIn.waiting⟩

/-- A new connection answers a client that signs under the nonce that is stored. -/
theorem handle_signed_of_eq (secured : (opening client p).Secured kind password)
    (stored : g.store.profile? client = some p)
    (reports : messages ≠ [])
    (opened : (opening client p).openPayload password ciphered =
      .ok (encodeAll (messages.map .message)))
    (decodes : Bysant.decode (encodeAll (messages.map .message)) = .ok (messages.map .message))
    (same : mac = (opening client p).requestChecksum kind password ciphered) (nonce : Bytes) :
    let handled := handle (.signed client nonce mac ciphered) none g
    let values := outgoingValues (g.store.waiting client)
      (messages.filterMap Message.acknowledgement?)
    ∃ fresh sent, (Bytes.ofString fresh).length = 16 ∧
      (opening client p).sealPayload password nonce (encodeAll values) = .ok sent ∧
      handled.reaction = ⟨[Session.signedResponse kind password (.ofValues values)
        (Bytes.ofString fresh) nonce sent], false⟩ ∧
      Receives client messages g handled.gateway ∧
      handled.gateway.store.profile? client = some { p with nonce := fresh } := by
  subst same
  intro handled values
  have accepted := secured.authenticate_of_mac (e := .signed client nonce
    ((opening client p).requestChecksum kind password ciphered) ciphered) rfl opened (.inl rfl) g
  have answering : Session.Secured { opening client p with
      attempts := 0, peerNonce := some nonce } kind password :=
    ⟨secured.authentication, secured.credential⟩
  have answers : answerEnvelope client (messages.map .message) g = .ofValues values := by
    rw [answerEnvelope, answerValues, filterMap_map_message]
    rfl
  obtain ⟨sent, sealed, responds⟩ := respond_of_some answering rfl (.ofValues values)
    (answeredGateway client (encodeAll (messages.map .message)) (messages.map .message) g)
  have answered : handled = respond (.ofValues values)
      { opening client p with attempts := 0, peerNonce := some nonce }
      (answeredGateway client (encodeAll (messages.map .message)) (messages.map .message) g) := by
    refine (handle_signed stored).trans ?_
    rw [handleIn, secured.needsNegotiation, if_neg (by decide), accepted]
    dsimp only
    rw [answer_eq decodes]
    dsimp only
    rw [← answers]
    rfl
  rw [answered, responds]
  refine ⟨_, sent, length_drawNonce _, sealed, rfl, ?_, ?_⟩
  · exact receives_answeredGateway reports
      { opening client p with attempts := 0, lastResponse := some (.ofValues values) } g
  · refine Store.profile?_setNonce ?_ _
    show Store.profile? (answeredGateway client _ _ g).store client = some p
    rw [Store.profile?, profiles_answeredGateway]
    exact stored

end Connection

/-! ## What the client makes of the reply -/

theorem Bysant.sound_challengeEnvelope (kind : ChecksumKind)
    (short : (Bytes.ofString fresh).length ≤ maxLength) :
    (Value.envelope (Session.challengeEnvelope kind fresh)).Sound maxDepth := by
  have is : Session.challengeEnvelope kind fresh = ⟨⟨[(.status, .int 401),
    (.challenge, .text kind.name), (.nonce, .bytes (Bytes.ofString fresh))]⟩, [], []⟩ := rfl
  have named : fitsText kind.name = true := by cases kind <;> decide
  rw [is]
  refine sound_of_leaves (by decide : KeysFit [.status, .challenge, .nonce]) ?_ (Nat.zero_le _)
  simp [Value.container?, Value.isSound, Value.isShort, Value.isCanonical, Value.isTabular, named,
    short]

namespace Client

variable {pieces : List Bytes} {closed : Bool} {acknowledged : List Response}

/-- A challenge brings a nonce. -/
theorem conclude_challenge (long : (Bytes.ofString fresh).length = 16)
    (whole : pieces.flatten = (Session.challengeEnvelope kind fresh).encode) :
    c.conclude nonce (.reply pieces closed) =
      (.error (.status .unauthorized), { c with serverNonce := Bytes.ofString fresh }) := by
  have short : (Bytes.ofString fresh).length ≤ maxLength :=
    (Nat.le_of_eq long).trans (by decide)
  have finds := Decoder.finds_encode (sound_challengeEnvelope kind short)
  rw [← whole] at finds
  have read : firstEnvelope c.patience closed .new pieces = .ok _ :=
    firstEnvelope_of_finds finds c.patience closed
  have brings : (Session.challengeEnvelope kind fresh).header.bytes? .nonce =
    some (Bytes.ofString fresh) := rfl
  have failed : StatusCode.unauthorized ≠ .ok := by decide
  unfold conclude
  simp only [read, brings, Connection.status?_challengeEnvelope, Option.getD_some, failed, ne_eq,
    not_false_eq_true, if_true]

/-- A successful reply that the client can open brings a nonce and what was sent. -/
theorem conclude_of_opened {d : Credentials} {reply : Envelope} {next : Bytes}
    (credentials : c.credentials = some d) (sound : (Value.envelope reply).Sound maxDepth)
    (whole : pieces.flatten = reply.encode) (succeeds : reply.status? = some .ok)
    (brings : reply.header.bytes? .nonce = some next)
    (opened : d.openResponse reply nonce = .ok (encodeAll (outgoingValues messages acknowledged)))
    (decoded : decode (encodeAll (outgoingValues messages acknowledged)) =
      .ok (outgoingValues messages acknowledged)) :
    c.conclude nonce (.reply pieces closed) =
      (.ok (outgoingValues messages acknowledged), { c with serverNonce := next }) := by
  have finds := Decoder.finds_encode sound
  rw [← whole] at finds
  have read : firstEnvelope c.patience closed .new pieces = .ok _ :=
    firstEnvelope_of_finds finds c.patience closed
  have taken : interpret (.ofPayload reply.header
      (encodeAll (outgoingValues messages acknowledged))) =
        .ok (outgoingValues messages acknowledged) := interpret_outgoingValues succeeds decoded
  unfold conclude
  simp only [read, brings, succeeds, Option.getD_some, ne_eq, not_true_eq_false, if_false,
    credentials, opened, taken]

/-- The client of a profile opens the answer that is signed for it. -/
theorem Shares.conclude_answer (shares : c.Shares client kind password p) {sent : Bytes}
    (long : (Bytes.ofString fresh).length = 16)
    (sealed : (Connection.opening client p).sealPayload password nonce
      (encodeAll (outgoingValues messages acknowledged)) = .ok sent)
    (fits : sent.length ≤ maxLength)
    (decoded : decode (encodeAll (outgoingValues messages acknowledged)) =
      .ok (outgoingValues messages acknowledged))
    (whole : pieces.flatten = (Session.signedResponse kind password
      (.ofValues (outgoingValues messages acknowledged)) (Bytes.ofString fresh) nonce sent).encode) :
    c.conclude nonce (.reply pieces closed) = (.ok (outgoingValues messages acknowledged),
      { c with serverNonce := Bytes.ofString fresh }) := by
  have short : (Bytes.ofString fresh).length ≤ maxLength := (Nat.le_of_eq long).trans (by decide)
  obtain ⟨sent', sealed', opened⟩ := Session.device_openPayload_sealPayload
    (Connection.opening client p) kind password nonce
    (encodeAll (outgoingValues messages acknowledged))
  obtain rfl : sent = sent' := Except.ok.inj (sealed.symm.trans sealed')
  refine conclude_of_opened (d := (Connection.opening client p).device kind password)
    shares.credentials ?_ whole ?_ ?_ ?_ decoded
  · exact Session.sound_signedResponse kind password nonce _ short fits
  · exact Session.status?_signedResponse.trans (status?_ofValues _)
  · exact Session.bytes?_nonce_signedResponse
  · exact Session.openResponse_signedResponse opened

theorem exchange_of_hears {σ : Type} {line : Line σ} {before after : σ} {e : Envelope}
    {heard : Heard} (requests : c.request messages entropy = (.ok (e, nonce), rest))
    (hears : line e.encode before = (heard, after)) : c.exchange messages line entropy before =
      ((c.conclude nonce heard).1, (c.conclude nonce heard).2, rest, after) := by
  unfold exchange
  simp only [requests, hears]

end Client

end Telemetry
