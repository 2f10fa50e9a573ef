import Telemetry.Device.Credentials
import Telemetry.Proofs.Bysant.Header
import Telemetry.Proofs.Security.Cipher
import Telemetry.Session.Authentication
/-!
# An honest device and its session understand each other

A device makes its checksums and keys from the digest of its password, the server from the password
itself. A request that a device signs under the last nonce of the server is accepted with the
payload that was given to the device, and the device opens what the server signs in return.
-/

namespace Telemetry

open Bysant (Envelope)

open Security (ChecksumKind Entropy checksum KeyIv)

/-! ## Lengths -/

theorem length_ofString_hex (b : Bytes) : (Bytes.ofString (Text.hex b)).length = 2 * b.length := by
  have digit : ∀ n < 16, (Nat.digitChar n).utf8Size = 1 := by decide
  have two (byte : UInt8) : ((Text.hexByte byte).flatMap String.utf8EncodeChar).length = 2 := by
    have small := byte.toNat_lt
    simp only [Text.hexByte, List.flatMap_cons, List.flatMap_nil, List.length_append,
      String.length_utf8EncodeChar, digit _ (Nat.mod_lt _ (by decide)), List.length_nil]
    rw [digit _ (by omega)]
  have encoded : Bytes.ofString (Text.hex b) =
      b.flatMap fun byte => (Text.hexByte byte).flatMap String.utf8EncodeChar := by
    simp [Bytes.ofString, Text.hex, List.utf8Encode, List.flatMap_assoc]
  rw [encoded, List.length_flatMap, List.map_congr_left fun byte _ => two byte, List.map_const',
    List.sum_replicate_nat, Nat.mul_comm]

/-- A nonce has sixteen characters, which are as many bytes. -/
theorem length_drawNonce (e : Entropy) : (Bytes.ofString e.drawNonce.1).length = 16 := by
  refine (length_ofString_hex _).trans ?_
  simp only [List.length_map, List.length_range]
  rfl

theorem Security.length_checksum (kind : ChecksumKind) (user password salt body : Bytes) :
    (checksum kind user password salt body).length = kind.size := by
  cases kind with
  | md5 => exact Crypto.length_md5 _
  | sha1 => exact Crypto.length_sha1 _

/-! ## Secured sessions -/

variable {s : Session} {kind : ChecksumKind} {password : String}

/-- The session authenticates its client by this kind of checksum under this working password. -/
structure Session.Secured (s : Session) (kind : ChecksumKind) (password : String) : Prop where
  authentication : s.profile.authentication = some kind
  credential : s.profile.credential = some password

namespace Session

/-- The credentials of the device that belongs to a secured session. -/
def device (s : Session) (kind : ChecksumKind) (password : String) : Credentials :=
  .ofPassword s.clientId (some kind) s.profile.encryption password

theorem Secured.needsNegotiation (h : s.Secured kind password) :
    s.profile.needsNegotiation = false := by
  rw [Security.Profile.needsNegotiation, h.credential]
  exact Bool.and_false _

/-! ## Payloads -/

/-- The session opens what its device sealed under the session's nonce. -/
theorem openPayload_sealPayload (s : Session) (kind : ChecksumKind) (password : String)
    (payload : Bytes) : ∃ ciphered,
      (s.device kind password).sealPayload (Bytes.ofString s.profile.nonce) payload = .ok ciphered ∧
        s.openPayload password ciphered = .ok payload := by
  unfold Credentials.sealPayload openPayload device Credentials.ofPassword
  cases s.profile.encryption with
  | none => exact ⟨payload, rfl, rfl⟩
  | some cipher =>
    have fits := KeyIv.fits_ofDigest cipher (Crypto.md5 (Bytes.ofString password))
      (Bytes.ofString s.profile.nonce)
    obtain ⟨ciphered, encrypted, decrypted⟩ := KeyIv.decrypt_encrypt fits payload
    refine ⟨ciphered, ?_, decrypted⟩
    dsimp only
    rw [encrypted]
    rfl

/-- The device opens what its session sealed under the device's nonce. -/
theorem device_openPayload_sealPayload (s : Session) (kind : ChecksumKind) (password : String)
    (nonce payload : Bytes) : ∃ ciphered, s.sealPayload password nonce payload = .ok ciphered ∧
      (s.device kind password).openPayload nonce ciphered = .ok payload := by
  unfold Credentials.openPayload sealPayload device Credentials.ofPassword
  cases s.profile.encryption with
  | none => exact ⟨payload, rfl, rfl⟩
  | some cipher =>
    have fits := KeyIv.fits_ofDigest cipher (Crypto.md5 (Bytes.ofString password)) nonce
    obtain ⟨ciphered, encrypted, decrypted⟩ := KeyIv.decrypt_encrypt fits payload
    refine ⟨ciphered, encrypted, ?_⟩
    dsimp only
    rw [decrypted]
    rfl

/-! ## Requests -/

variable {request response : Envelope} {nonce ciphered : Bytes}

/-- A request as it is signed: it names its client and carries the nonce for the response and the
checksum of the ciphered payload. -/
def signedRequest (s : Session) (kind : ChecksumKind) (password : String) (request : Envelope)
    (nonce ciphered : Bytes) : Envelope :=
  { request with
    header := ((request.header.insert .id (.text s.clientId)).insert .nonce (.bytes nonce)).insert
      .mac (.bytes (s.requestChecksum kind password ciphered))
    payload := ciphered }

/-- A device never fails to sign a request, and its session opens the payload. -/
theorem signRequest_eq (s : Session) (kind : ChecksumKind) (password : String) (request : Envelope)
    (entropy : Entropy) : ∃ ciphered, s.openPayload password ciphered = .ok request.payload ∧
      (s.device kind password).signRequest request (Bytes.ofString s.profile.nonce) entropy =
        (.ok (s.signedRequest kind password request (Bytes.ofString entropy.drawNonce.1) ciphered,
          Bytes.ofString entropy.drawNonce.1), entropy.drawNonce.2) := by
  obtain ⟨ciphered, sent, opened⟩ := openPayload_sealPayload s kind password request.payload
  refine ⟨ciphered, opened, ?_⟩
  simp only [Credentials.signRequest, sent]
  rfl

theorem senderId?_signedRequest :
    (s.signedRequest kind password request nonce ciphered).senderId? = some s.clientId := by
  rw [Envelope.senderId?, Bysant.Header.text?, signedRequest,
    Bysant.Header.get?_insert_of_ne (by decide), Bysant.Header.get?_insert_of_ne (by decide),
    Bysant.Header.get?_insert_self]
  rfl

theorem contains_challenge_signedRequest :
    (s.signedRequest kind password request nonce ciphered).header.contains .challenge =
      request.header.contains .challenge := by
  rw [signedRequest, Bysant.Header.contains_insert_of_ne (by decide),
    Bysant.Header.contains_insert_of_ne (by decide),
    Bysant.Header.contains_insert_of_ne (by decide)]

theorem bytes?_mac_signedRequest :
    (s.signedRequest kind password request nonce ciphered).header.bytes? .mac =
      some (s.requestChecksum kind password ciphered) := Bysant.Header.bytes?_insert_self

theorem bytes?_nonce_signedRequest :
    (s.signedRequest kind password request nonce ciphered).header.bytes? .nonce = some nonce := by
  rw [signedRequest, Bysant.Header.bytes?_insert_of_ne (by decide),
    Bysant.Header.bytes?_insert_self]
  rfl

/-! ## Responses -/

/-- A response as it is signed under the nonce of a request: it carries the nonce for the next
request and the checksum of the ciphered payload. -/
def signedResponse (kind : ChecksumKind) (password : String) (response : Envelope)
    (fresh nonce ciphered : Bytes) : Envelope :=
  { response with
    header := (response.header.insert .nonce (.bytes fresh)).insert .mac
      (.bytes (checksum kind (Bytes.ofString Gateway.serverName) (Bytes.ofString password) nonce
        ciphered))
    payload := ciphered }

/-- A session that was given a nonce signs the response in the form in which it is sent. -/
theorem signResponse_of_sealed (h : s.Secured kind password) (asked : s.peerNonce = some nonce)
    (sent : s.sealPayload password nonce response.payload = .ok ciphered) (g : Gateway) :
    s.signResponse response g =
      let renewed := { s with peerNonce := none, lastResponse := some response }.renewNonce g
      ⟨.ok (signedResponse kind password response (Bytes.ofString renewed.result) nonce ciphered),
        renewed.session, renewed.gateway⟩ := by
  have sent : sealPayload password nonce
      { s with peerNonce := none, lastResponse := some response } response.payload =
        .ok ciphered := sent
  unfold signResponse
  simp only [h.authentication, h.credential, asked, sent]
  rfl

/-- A session never fails to sign the response to a request that brought a nonce. It draws the nonce
for the next request, and its device opens the payload. -/
theorem signResponse_eq (h : s.Secured kind password) (asked : s.peerNonce = some nonce)
    (response : Envelope) (g : Gateway) : ∃ ciphered,
      (s.device kind password).openPayload nonce ciphered = .ok response.payload ∧
        s.signResponse response g =
          let renewed := { s with peerNonce := none, lastResponse := some response }.renewNonce g
          ⟨.ok (signedResponse kind password response (Bytes.ofString renewed.result) nonce ciphered),
            renewed.session, renewed.gateway⟩ := by
  obtain ⟨ciphered, sent, opened⟩ :=
    device_openPayload_sealPayload s kind password nonce response.payload
  exact ⟨ciphered, opened, signResponse_of_sealed h asked sent g⟩

theorem bytes?_nonce_signedResponse {fresh : Bytes} :
    (signedResponse kind password response fresh nonce ciphered).header.bytes? .nonce =
      some fresh := by
  rw [signedResponse, Bysant.Header.bytes?_insert_of_ne (by decide),
    Bysant.Header.bytes?_insert_self]
  rfl

theorem status?_signedResponse {fresh : Bytes} :
    (signedResponse kind password response fresh nonce ciphered).status? = response.status? := by
  rw [Envelope.status?, signedResponse, Bysant.Header.get?_insert_of_ne (by decide),
    Bysant.Header.get?_insert_of_ne (by decide), Envelope.status?]

/-- The device opens the response that its session has signed. -/
theorem openResponse_signedResponse {fresh clear : Bytes}
    (opened : (s.device kind password).openPayload nonce ciphered = .ok clear) :
    (s.device kind password).openResponse
      (signedResponse kind password response fresh nonce ciphered) nonce = .ok clear := by
  let expected := checksum kind (Bytes.ofString Gateway.serverName) (Bytes.ofString password) nonce
    ciphered
  have mac : (signedResponse kind password response fresh nonce ciphered).header.bytes? .mac =
      some expected := Bysant.Header.bytes?_insert_self
  have verified : Security.verifyChecksum (Security.checksumOfDigest kind
      (Bytes.ofString Gateway.serverName) (s.device kind password).passwordDigest nonce ciphered)
        expected = .ok () := Security.verifyChecksum_self expected
  unfold Credentials.openResponse
  rw [show (s.device kind password).authentication = some kind from rfl, mac]
  dsimp only
  rw [show (signedResponse kind password response fresh nonce ciphered).payload = ciphered from rfl,
    verified]
  exact opened

end Session

end Telemetry
