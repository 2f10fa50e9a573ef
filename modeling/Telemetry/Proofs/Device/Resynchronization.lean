import Telemetry.Proofs.Device.Requests
/-!
# A device finds back to the nonce of the server

A device that holds a nonce the server has given up is challenged, and the challenge brings the
nonce that the server holds now. The second attempt is signed under this nonce and is answered, so
that the messages of the device are taken in once, and the two agree on the nonce again.
-/

namespace Telemetry

open Bysant

open Relation (ReflTransGen)

open Security (ChecksumKind Encryption Entropy Profile checksum)

variable {c : Client} {p : Profile} {kind : ChecksumKind} {password client : String}
  {messages : List Message} {ciphered : Bytes} {g : Gateway} {entropy rest : Entropy}

/-! ## One exchange -/

/-- A line that counts the requests, too. -/
def Line.counted {σ : Type} (line : Line σ) : Line (σ × Nat) := fun request s =>
  let (heard, after) := line request s.1
  (heard, after, s.2 + 1)

theorem Line.counted_of_hears {σ : Type} {line : Line σ} {request : Bytes} {before after : σ}
    {heard : Heard} (hears : line request before = (heard, after)) (n : Nat) :
    line.counted request (before, n) = (heard, after, n + 1) := by
  simp only [counted, hears]

/-- A request with messages keeps to the limits of the format. -/
structure RequestFits (client : String) (encryption : Encryption) (messages : List Message) : Prop where
  named : (Bytes.ofString client).length ≤ maxLength
  sound : ∀ m ∈ messages, (Value.message m).Sound maxDepth
  short : encryption.sealedLength (encodeAll (messages.map .message)).length ≤ maxLength

/-- The answer to messages keeps to the limits of the format if these messages wait. -/
structure AnswerFits (encryption : Encryption) (messages waiting : List Message) : Prop where
  sound : ∀ m ∈ waiting, (Value.message m).Sound maxDepth
  short : encryption.sealedLength
    (encodeAll (outgoingValues waiting
      (messages.filterMap Message.acknowledgement?))).length ≤ maxLength

/-- Others that use a gateway do not touch the profile of a client or the limit of attempts, and
what waits for the client stays within some limits. -/
structure Undisturbing (client : String) (within : List Message → Prop)
    (others : Gateway → Gateway → Prop) : Prop where
  profile : ∀ g g', others g g' → g'.store.profile? client = g.store.profile? client
  attemptLimit : ∀ g g', others g g' → g'.attemptLimit = g.attemptLimit
  waiting : ∀ g g', others g g' → within (g.store.waiting client) → within (g'.store.waiting client)

/-- What others do one after the other disturbs no more than each of them does. -/
theorem Undisturbing.reflTransGen {within : List Message → Prop} {others : Gateway → Gateway → Prop}
    (h : Undisturbing client within others) : Undisturbing client within (ReflTransGen others) where
  profile g g' used := by
    induction used with
    | refl => rfl
    | tail _ last ih => exact (h.profile _ _ last).trans ih
  attemptLimit g g' used := by
    induction used with
    | refl => rfl
    | tail _ last ih => exact (h.attemptLimit _ _ last).trans ih
  waiting g g' used fits := by
    induction used with
    | refl => exact fits
    | tail _ last ih => exact h.waiting _ _ last ih

theorem RequestFits.decodes {encryption : Encryption} (h : RequestFits client encryption messages) :
    decode (encodeAll (messages.map .message)) = .ok (messages.map .message) := by
  refine decode_encodeAll_of_sound fun v member => ?_
  obtain ⟨m, inside, rfl⟩ := List.mem_map.mp member
  exact h.sound m inside

theorem AnswerFits.decodes {encryption : Encryption} {waiting : List Message}
    (h : AnswerFits encryption messages waiting) :
    decode (encodeAll (outgoingValues waiting (messages.filterMap Message.acknowledgement?))) =
      .ok (outgoingValues waiting (messages.filterMap Message.acknowledgement?)) :=
  decode_outgoingValues h.sound messages

section Exchange

variable {line : Line Gateway} {others : Gateway → Gateway → Prop} {within : List Message → Prop}
  {n : Nat}

/-- What others do to a gateway, and what takes in no data and sends no message. -/
def Aside (others : Gateway → Gateway → Prop) (g g' : Gateway) : Prop := others g g' ∨ g.Quiet g'

theorem aside_of_others {g' : Gateway} (used : ReflTransGen others g g') :
    ReflTransGen (Aside others) g g' := by
  have some : others ≤ Aside others := fun _ _ step => .inl step
  exact ReflTransGen.mono some _ _ used

/-- What neither others nor quiet steps touch stays the same aside. -/
theorem eq_of_aside {α : Type} {g' : Gateway} (part : Gateway → α)
    (path : ReflTransGen (Aside others) g g')
    (alone : ∀ g g', others g g' → part g' = part g)
    (silent : ∀ g g', g.Quiet g' → part g' = part g) : part g' = part g := by
  induction path with
  | refl => rfl
  | tail _ last ih =>
    refine Eq.trans ?_ ih
    rcases last with used | quiet
    · exact alone _ _ used
    · exact silent _ _ quiet

namespace Client

/-- What a device does in one exchange: its request is handled at one moment, and it concludes from
the reply. -/
theorem Shares.exchange_eq (shares : c.Shares client kind password p)
    (carries : line.Carries others) (fits : RequestFits client p.encryption messages)
    (entropy : Entropy) (g : Gateway) (n : Nat) :
    ∃ ciphered nonce rest before pieces final, c.Seals messages ciphered ∧
      ReflTransGen others g before ∧
      let mac := checksum kind (Bytes.ofString client) (Bytes.ofString password) c.serverNonce ciphered
      let handled := Connection.handle (.signed client nonce mac ciphered) none before
      pieces.flatten = (handled.reaction.writes.map Envelope.encode).flatten ∧
      c.exchange messages line.counted entropy (g, n) =
        ((c.conclude nonce (.reply pieces handled.reaction.close)).1,
          (c.conclude nonce (.reply pieces handled.reaction.close)).2, rest, final, n + 1) ∧
      ReflTransGen others handled.gateway final := by
  obtain ⟨ciphered, seals, long, requests⟩ := shares.request_eq messages entropy
  have sound : (Value.envelope (.signed client (Bytes.ofString entropy.drawNonce.1)
      (checksum kind (Bytes.ofString client) (Bytes.ofString password) c.serverNonce ciphered)
      ciphered)).Sound maxDepth := by
    refine sound_signed fits.named ?_ ?_ ?_
    · rw [length_drawNonce]
      decide
    · rw [Security.length_checksum]
      cases kind <;> decide
    · rw [long]
      exact fits.short
  obtain ⟨before, pieces, final, used, whole, hears, later⟩ := carries.request sound g
  exact ⟨ciphered, _, _, before, pieces, final, seals, used, whole,
    exchange_of_hears requests (Line.counted_of_hears hears n), later⟩

/-- A device whose checksum is another one than that under the stored nonce is challenged, and comes
by the new nonce. -/
theorem Shares.exchange_challenged (shares : c.Shares client kind password p)
    (carries : line.Carries others) (undisturbing : Undisturbing client within others)
    (fits : RequestFits client p.encryption messages) (stored : g.store.profile? client = some p)
    (attempts : 2 ≤ g.attemptLimit)
    (different : ∀ ciphered, c.Seals messages ciphered →
      checksum kind (Bytes.ofString client) (Bytes.ofString password) c.serverNonce ciphered ≠
        checksum kind (Bytes.ofString client) (Bytes.ofString password) (Bytes.ofString p.nonce)
          ciphered) :
    ∃ fresh rest final, c.exchange messages line.counted entropy (g, n) =
        (.error (.status .unauthorized), { c with serverNonce := Bytes.ofString fresh }, rest, final,
          n + 1) ∧
      ReflTransGen (Aside others) g final ∧
      final.store.profile? client = some { p with nonce := fresh } ∧
      (within (g.store.waiting client) → within (final.store.waiting client)) := by
  have undisturbed := undisturbing.reflTransGen
  obtain ⟨ciphered, nonce, rest, before, pieces, final, seals, used, whole, exchanges, later⟩ :=
    shares.exchange_eq carries fits entropy g n
  have attempts : 2 ≤ before.attemptLimit := by rwa [undisturbed.attemptLimit _ _ used]
  obtain ⟨fresh, long, reaction, quiet, renewed⟩ := Connection.handle_signed_of_ne shares.secured
    ((undisturbed.profile _ _ used).trans stored) attempts (different ciphered seals) nonce
  rw [reaction] at whole exchanges
  rw [conclude_challenge long (whole.trans (List.append_nil _))] at exchanges
  refine ⟨fresh, rest, final, exchanges, ?_, ?_, ?_⟩
  · exact ((aside_of_others used).tail (.inr quiet)).trans (aside_of_others later)
  · exact (undisturbed.profile _ _ later).trans renewed
  · intro begins
    refine undisturbed.waiting _ _ later ?_
    rw [Store.waiting_congr quiet.outgoing]
    exact undisturbed.waiting _ _ used begins

/-- What a device seals under the stored nonce, its session opens. -/
theorem Shares.openPayload_of_seals (shares : c.Shares client kind password p)
    (own : c.serverNonce = Bytes.ofString p.nonce) (seals : c.Seals messages ciphered) :
    (Connection.opening client p).openPayload password ciphered =
      .ok (encodeAll (messages.map .message)) := by
  obtain ⟨d, known, sent⟩ := seals
  obtain ⟨ciphered', sent', opened⟩ := Session.openPayload_sealPayload
    (Connection.opening client p) kind password (encodeAll (messages.map .message))
  obtain rfl := Option.some.inj (shares.credentials.symm.trans known)
  rw [own] at sent
  obtain rfl : ciphered = ciphered' := Except.ok.inj (sent.symm.trans sent')
  exact opened

/-- A device that holds the stored nonce is answered: its messages are taken in, what waits for it
is sent, and it comes by the next nonce. -/
theorem Shares.exchange_answered (shares : c.Shares client kind password p)
    (carries : line.Carries others)
    (undisturbing : Undisturbing client (AnswerFits p.encryption messages) others)
    (fits : RequestFits client p.encryption messages) (reports : messages ≠ [])
    (stored : g.store.profile? client = some p) (own : c.serverNonce = Bytes.ofString p.nonce)
    (answerFits : AnswerFits p.encryption messages (g.store.waiting client)) :
    ∃ before after fresh rest final, c.exchange messages line.counted entropy (g, n) =
        (.ok (outgoingValues (before.store.waiting client)
            (messages.filterMap Message.acknowledgement?)),
          { c with serverNonce := Bytes.ofString fresh }, rest, final, n + 1) ∧
      ReflTransGen others g before ∧ Connection.Receives client messages before after ∧
      ReflTransGen others after final ∧
      final.store.profile? client = some { p with nonce := fresh } := by
  have undisturbed := undisturbing.reflTransGen
  obtain ⟨ciphered, nonce, rest, before, pieces, final, seals, used, whole, exchanges, later⟩ :=
    shares.exchange_eq carries fits entropy g n
  have opened := shares.openPayload_of_seals own seals
  have waits := undisturbed.waiting _ _ used answerFits
  have same : checksum kind (Bytes.ofString client) (Bytes.ofString password) c.serverNonce ciphered =
      (Connection.opening client p).requestChecksum kind password ciphered := by
    rw [own]
    rfl
  obtain ⟨fresh, sent, long, sealed, reaction, took, renewed⟩ := Connection.handle_signed_of_eq
    shares.secured ((undisturbed.profile _ _ used).trans stored) reports opened fits.decodes same nonce
  have short : sent.length ≤ maxLength := by
    rw [Session.length_of_sealPayload sealed]
    exact waits.short
  rw [reaction] at whole exchanges
  rw [shares.conclude_answer long sealed short waits.decodes (whole.trans (List.append_nil _))]
    at exchanges
  exact ⟨before, _, fresh, rest, final, exchanges, used, took, later,
    (undisturbed.profile _ _ later).trans renewed⟩

/-! ## Two exchanges -/

variable {σ : Type} {way : Line σ} {s s' : σ}

theorem send_of_ok {values : List Value} {c' : Client}
    (first : c.exchange messages way entropy s = (.ok values, c', rest, s')) :
    c.send messages way entropy s = (.ok values, c', rest, s') := by
  have settled : c'.isChallenged (.ok values) = false := rfl
  unfold send
  simp only [first, settled, Bool.false_eq_true, if_false]

theorem send_of_unauthorized {c' : Client} {d : Credentials}
    (first : c.exchange messages way entropy s = (.error (.status .unauthorized), c', rest, s'))
    (credentials : c'.credentials = some d) :
    c.send messages way entropy s = c'.exchange messages way rest s' := by
  have challenged : c'.isChallenged (.error (.status .unauthorized)) = true := by
    unfold isChallenged
    rw [credentials]
    rfl
  unfold send
  simp only [first, challenged, if_true]

/-- A device that knows the working password gets its messages through in two exchanges at most,
whatever nonce it holds, as long as its checksum does not collide with that under the stored nonce.
It takes what waits for it and the acknowledgements from the answer. Of all that happens to the
gateway meanwhile, its messages are taken in once, and the rest is done by others or takes in no
data and sends no message. In the end the device holds the nonce that is stored. -/
theorem send_resynchronizes (carries : line.Carries others)
    (undisturbing : Undisturbing client (AnswerFits p.encryption messages) others)
    (shares : c.Shares client kind password p) (stored : g.store.profile? client = some p)
    (attempts : 2 ≤ g.attemptLimit)
    (collisionFree : ∀ ciphered, c.Seals messages ciphered →
      checksum kind (Bytes.ofString client) (Bytes.ofString password) c.serverNonce ciphered =
        checksum kind (Bytes.ofString client) (Bytes.ofString password) (Bytes.ofString p.nonce)
          ciphered → c.serverNonce = Bytes.ofString p.nonce)
    (reports : messages ≠ []) (requestFits : RequestFits client p.encryption messages)
    (answerFits : AnswerFits p.encryption messages (g.store.waiting client)) (entropy : Entropy) :
    ∃ before after fresh rest final exchanges, c.send messages line.counted entropy (g, 0) =
        (.ok (outgoingValues (before.store.waiting client)
            (messages.filterMap Message.acknowledgement?)),
          { c with serverNonce := Bytes.ofString fresh }, rest, final, exchanges) ∧
      exchanges ≤ 2 ∧
      ReflTransGen (Aside others) g before ∧
      Connection.Receives client messages before after ∧
      ReflTransGen others after final ∧
      final.store.profile? client = some { p with nonce := fresh } := by
  by_cases own : c.serverNonce = Bytes.ofString p.nonce
  · obtain ⟨before, after, fresh, rest, final, exchange, used, took, later, renewed⟩ :=
      shares.exchange_answered carries undisturbing requestFits reports stored own answerFits
    exact ⟨before, after, fresh, rest, final, 1, send_of_ok exchange, by decide,
      aside_of_others used, took, later, renewed⟩
  · obtain ⟨challenge, middle, g', first, aside, stored', waits⟩ :=
      shares.exchange_challenged carries undisturbing requestFits stored attempts
        fun ciphered seals same => own (collisionFree ciphered seals same)
    have shares' : Shares { c with serverNonce := Bytes.ofString challenge } client kind password
        { p with nonce := challenge } :=
      ⟨shares.authentication, shares.credential, shares.credentials⟩
    obtain ⟨before, after, fresh, rest, final, second, used, took, later, renewed⟩ :=
      shares'.exchange_answered carries undisturbing requestFits reports stored' rfl
        (waits answerFits)
    exact ⟨before, after, fresh, rest, final, 2,
      (send_of_unauthorized first shares.credentials).trans second, Nat.le_refl _,
      aside.trans (aside_of_others used), took, later, renewed⟩

open Connection (queueingGateway queuedMessage)

/-- A device that holds a nonce that the server never gave it. -/
def stale : Client :=
  { ofCredentials (.ofPassword "dev" (some .md5) (some .ctr128) "pw") with serverNonce := [1, 2, 3] }

def temperature : Message := ⟨"@sys", some 7, [("temp", .int 3)]⟩

/-- An administrator sends settings to another client. -/
def SendsElsewhere (g g' : Gateway) : Prop := ∃ settings, g' = (Admin.send g "other" settings).2

/-- Whether a payload that was sealed has different checksums under two nonces. -/
def tellsApart (nonce other : Bytes) : Except DeviceError Bytes → Bool
  | .ok ciphered =>
    checksum .md5 (Bytes.ofString "dev") (Bytes.ofString "pw") nonce ciphered ≠
      checksum .md5 (Bytes.ofString "dev") (Bytes.ofString "pw") other ciphered
  | .error _ => false

theorem waiting_of_sendsElsewhere (g g' : Gateway) (sends : SendsElsewhere g g') :
    g'.store.waiting "dev" = g.store.waiting "dev" := by
  obtain ⟨settings, rfl⟩ := sends
  unfold Admin.send
  dsimp only
  split
  · rfl
  · rw [Store.waiting_enqueue, if_neg (by decide), List.append_nil]

/-- What a gateway has received, and how much of it is kept. -/
def receptions (g : Gateway) : Table String (Table Nat Store.ReceivedEnvelope) × Nat :=
  (g.store.received, g.store.capacity)

theorem receptions_of_sendsElsewhere (g g' : Gateway) (sends : SendsElsewhere g g') :
    receptions g' = receptions g := by
  obtain ⟨settings, rfl⟩ := sends
  unfold Admin.send
  dsimp only
  split <;> rfl

theorem receptions_of_quiet (g g' : Gateway) (quiet : g.Quiet g') :
    receptions g' = receptions g := by
  rw [receptions, quiet.received, quiet.capacity, receptions]

theorem undisturbing_sendsElsewhere (within : List Message → Prop) :
    Undisturbing "dev" within SendsElsewhere where
  profile g g' sends := by
    obtain ⟨settings, rfl⟩ := sends
    unfold Admin.send
    dsimp only
    split <;> rfl
  attemptLimit g g' sends := by
    obtain ⟨settings, rfl⟩ := sends
    unfold Admin.send
    dsimp only
    split <;> rfl
  waiting g g' sends fits := by rwa [waiting_of_sendsElsewhere g g' sends]

theorem tellsApart_stale : tellsApart [1, 2, 3] (Bytes.ofString "000000")
    ((Credentials.ofPassword "dev" (some .md5) (some .ctr128) "pw").sealPayload [1, 2, 3]
      (encodeAll ([temperature].map .message))) = true := by
  decide +kernel

/-- The device reports in spite of its nonce, and takes the message that waits for it. In the end
the gateway has one record, with what was reported. -/
theorem send_resynchronizes_stale : ∃ fresh rest final exchanges time date,
    Gateway.line.Carries SendsElsewhere ∧
    stale.send [temperature] Gateway.line.counted Connection.emptyGateway.entropy (queueingGateway, 0) =
      (.ok [.message queuedMessage, .response ⟨7, 0, ""⟩],
        { stale with serverNonce := Bytes.ofString fresh }, rest, final, exchanges) ∧
    exchanges ≤ 2 ∧
    final.store.receivedFrom "dev" =
      [(time, ⟨date, [⟨"@sys", [("temp", [⟨date, .int 3⟩])]⟩]⟩)] ∧
    ∃ p, final.store.profile? "dev" = some p ∧ p.nonce = fresh := by
  have carries := Gateway.carries_line SendsElsewhere
  have shares : stale.Shares "dev" .md5 "pw"
    ⟨"dev", some .md5, some .ctr128, "000000", none, some "pw"⟩ := ⟨rfl, by decide +kernel, rfl⟩
  have requestFits : RequestFits "dev" (some .ctr128) [temperature] := by
    refine ⟨by decide +kernel, fun m member => ?_, by decide +kernel⟩
    obtain rfl := List.mem_singleton.mp member
    exact sound_iff.mpr ⟨by decide +kernel, by decide +kernel⟩
  have answerFits : AnswerFits (some .ctr128) [temperature] (queueingGateway.store.waiting "dev") := by
    refine ⟨fun m member => ?_, by decide +kernel⟩
    obtain rfl : m = queuedMessage := List.mem_singleton.mp member
    exact sound_iff.mpr ⟨by decide +kernel, by decide +kernel⟩
  have collisionFree : ∀ ciphered, stale.Seals [temperature] ciphered →
      checksum .md5 (Bytes.ofString "dev") (Bytes.ofString "pw") stale.serverNonce ciphered =
        checksum .md5 (Bytes.ofString "dev") (Bytes.ofString "pw") (Bytes.ofString "000000")
          ciphered → stale.serverNonce = Bytes.ofString "000000" := by
    rintro ciphered ⟨d, known, sent⟩ same
    obtain rfl := Option.some.inj known
    have sent : (Credentials.ofPassword "dev" (some .md5) (some .ctr128) "pw").sealPayload [1, 2, 3]
      (encodeAll ([temperature].map .message)) = .ok ciphered := sent
    have different := tellsApart_stale
    rw [sent] at different
    exact absurd same (of_decide_eq_true different)
  obtain ⟨before, after, fresh, rest, final, exchanges, sends, few, aside, took, later, renewed⟩ :=
    send_resynchronizes carries (undisturbing_sendsElsewhere _) shares rfl (by decide) collisionFree
      (by decide) requestFits answerFits Connection.emptyGateway.entropy
  have waits : before.store.waiting "dev" = [queuedMessage] :=
    eq_of_aside (fun g => g.store.waiting "dev") aside waiting_of_sendsElsewhere
      fun _ _ quiet => Store.waiting_congr quiet.outgoing "dev"
  rw [waits] at sends
  -- nothing was received before this report, and nothing behind it
  have first : receptions before = receptions queueingGateway :=
    eq_of_aside receptions aside receptions_of_sendsElsewhere receptions_of_quiet
  have last : receptions final = receptions after :=
    eq_of_aside receptions (aside_of_others later) receptions_of_sendsElsewhere receptions_of_quiet
  have nothing : before.store.receivedFrom "dev" = [] :=
    Store.receivedFrom_congr (Prod.mk.inj first).1 "dev"
  have room : before.store.capacity = 4 := (Prod.mk.inj first).2
  have same : final.store.receivedFrom "dev" = after.store.receivedFrom "dev" :=
    Store.receivedFrom_congr (Prod.mk.inj last).1 "dev"
  have recorded := took.recorded
  rw [nothing, room] at recorded
  exact ⟨fresh, rest, final, exchanges, _, _, carries, sends, few, same.trans recorded, _, renewed,
    rfl⟩

end Client

end Exchange

end Telemetry
