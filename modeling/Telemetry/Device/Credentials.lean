import Telemetry.Bysant.Header
import Telemetry.Device.Error
import Telemetry.Gateway.Basic
/-!
# The credentials of a device

A device signs its requests and checks the responses of the server. It needs only the MD5 digest of
its password, from which checksums and cipher keys are made.
-/

namespace Telemetry

open Bysant (Envelope HeaderKey)

open Security (Authentication Encryption Entropy checksumOfDigest verifyChecksum KeyIv)

/-- What a device signs its requests with. -/
structure Credentials where
  clientId : String
  authentication : Authentication
  encryption : Encryption
  passwordDigest : Bytes
  deriving Repr, DecidableEq

namespace Credentials

/-- The credentials of a device that knows its password. -/
def ofPassword (clientId : String) (authentication : Authentication) (encryption : Encryption)
    (password : String) : Credentials :=
  ⟨clientId, authentication, encryption, Crypto.md5 (Bytes.ofString password)⟩

/-- A payload as it is sent under a nonce. -/
def sealPayload (c : Credentials) (nonce payload : Bytes) : Except DeviceError Bytes :=
  match c.encryption with
  | none => .ok payload
  | some cipher =>
    ((KeyIv.ofDigest cipher c.passwordDigest nonce).encrypt cipher payload).mapError
      fun error => .crypto (.cipher error)

/-- A payload that was received under a nonce, in clear. -/
def openPayload (c : Credentials) (nonce payload : Bytes) : Except DeviceError Bytes :=
  match c.encryption with
  | none => .ok payload
  | some cipher =>
    ((KeyIv.ofDigest cipher c.passwordDigest nonce).decrypt cipher payload).mapError
      fun error => .crypto (.cipher error)

/-- Names the device in a request, ciphers its payload and signs it under the server's last nonce.
Gives the nonce that the response will be signed under, too. -/
def signRequest (c : Credentials) (e : Envelope) (serverNonce : Bytes) (entropy : Entropy) :
    Except DeviceError (Envelope × Bytes) × Entropy :=
  let header := e.header.insert .id (.text c.clientId)
  match c.authentication with
  | none => (.ok ({ e with header }, []), entropy)
  | some kind =>
    let (nonce, entropy) := entropy.drawNonce
    let nonce := Bytes.ofString nonce
    match c.sealPayload serverNonce e.payload with
    | .error error => (.error error, entropy)
    | .ok payload =>
      let mac :=
        checksumOfDigest kind (Bytes.ofString c.clientId) c.passwordDigest serverNonce payload
      let header := (header.insert .nonce (.bytes nonce)).insert .mac (.bytes mac)
      (.ok ({ e with header, payload }, nonce), entropy)

/-- Checks the response to a request that was signed along with a nonce. Gives its payload in
clear. -/
def openResponse (c : Credentials) (e : Envelope) (nonce : Bytes) : Except DeviceError Bytes :=
  match c.authentication with
  | none => .ok e.payload
  | some kind =>
    match e.header.bytes? .mac with
    | none => .error (.missingHeader .mac)
    | some mac =>
      let expected :=
        checksumOfDigest kind (Bytes.ofString Gateway.serverName) c.passwordDigest nonce e.payload
      match verifyChecksum expected mac with
      | .error _ => .error .verificationFailed
      | .ok () => c.openPayload nonce e.payload

end Credentials

end Telemetry
