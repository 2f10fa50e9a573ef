import Telemetry.Json.Shape
import Telemetry.Security.Cipher
import Telemetry.Text.Blank
/-!
# Security profiles

What the server knows about securing the exchange with one client: which checksum and cipher are in
use, the last nonce, the registration password and the working password. A client whose profile asks
for a checksum but has no working password has to negotiate one first.
-/

namespace Telemetry.Security

inductive ProfileError where
  | unknownAuthentication (name : String)
  | unknownEncryption (name : String)
  deriving Repr, DecidableEq

def ProfileError.message : ProfileError → String
  | unknownAuthentication name => s!"unknown authentication: {name}"
  | unknownEncryption name => s!"unknown encryption: {name}"

/-- How the sender of an envelope proves who it is, if it has to. -/
abbrev Authentication := Option ChecksumKind

namespace Authentication

def name (a : Authentication) : String := (a.map ChecksumKind.name).getD "none"

/-- The authentication of exactly this name. -/
def ofName? (name : String) : Option Authentication :=
  if name = "none" then some none
  else if name = "hmac-md5" then some (some .md5)
  else if name = "hmac-sha1" then some (some .sha1)
  else none

/-- The authentication that a person means: case does not matter, a low line may stand for the
hyphen, and nothing stands for none. -/
def parse (text : String) : Except ProfileError Authentication :=
  let lower := text.toLower
  if lower = "none" ∨ lower = "" then .ok none
  else if lower = "hmac-md5" ∨ lower = "hmac_md5" then .ok (some .md5)
  else if lower = "hmac-sha1" ∨ lower = "hmac_sha1" then .ok (some .sha1)
  else .error (.unknownAuthentication text)

end Authentication

/-- How payloads are ciphered, if they are. -/
abbrev Encryption := Option Cipher

namespace Encryption

def name (e : Encryption) : String := (e.map Cipher.name).getD "none"

/-- The encryption of exactly this name. -/
def ofName? (name : String) : Option Encryption :=
  if name = "none" then some none
  else if name = "aes-ctr-128" then some (some .ctr128)
  else if name = "aes-ctr-256" then some (some .ctr256)
  else if name = "aes-cbc-128" then some (some .cbc128)
  else if name = "aes-cbc-256" then some (some .cbc256)
  else none

/-- The encryption that a person means: case does not matter, low lines may stand for hyphens, and
nothing stands for none. -/
def parse (text : String) : Except ProfileError Encryption :=
  let plain := text.toLower.map fun c => if c = '_' then '-' else c
  if plain = "" then .ok none
  else
    match ofName? plain with
    | some encryption => .ok encryption
    | none => .error (.unknownEncryption text)

end Encryption

/-- The security profile of one client. -/
structure Profile where
  clientId : String
  authentication : Authentication
  encryption : Encryption
  /-- The nonce that the client should use for its next checksum. -/
  nonce : String
  /-- The registration password, which protects the negotiation of the working password. -/
  sharedKey : Option String
  /-- The working password as it was set. -/
  password : Option String
  deriving Repr, DecidableEq, Inhabited

namespace Profile

/-- The nonce of a client that was never given one. -/
def initialNonce : String := "000000"

def unsecured (clientId : String) : Profile := ⟨clientId, none, none, initialNonce, none, none⟩

/-- A profile with a registration password and without a working one. -/
def registered (clientId : String) (authentication : Authentication) (encryption : Encryption)
    (sharedKey : String) : Profile :=
  { unsecured clientId with authentication, encryption, sharedKey := some sharedKey }

/-- The working password, unless it is blank. -/
def credential (p : Profile) : Option String :=
  p.password.filter fun password => !Text.isBlank password

/-- Whether the client has to negotiate a working password before it can report data. -/
def needsNegotiation (p : Profile) : Bool := p.authentication.isSome && p.credential.isNone

/-! ## JSON -/

/-- A profile as JSON; passwords that are not set are left out. -/
def toJson (p : Profile) : Json :=
  let optional (name : String) (value : Option String) : List (String × Json) :=
    match value with
    | some value => [(name, .text value)]
    | none => []
  .object ([("comm_id", .text p.clientId), ("authentication", .text p.authentication.name),
    ("encryption", .text p.encryption.name), ("nonce", .text p.nonce)] ++
    optional "shared_key" p.sharedKey ++ optional "credential" p.password)

open Json.Shape in
/-- The shape of a profile in JSON; only the client has to be named. -/
def shape : Json.Shape Profile :=
  record
    [.of "comm_id" false text fun p clientId => { p with clientId },
     .of "authentication" true (nameOf Authentication.ofName?)
       fun p authentication => { p with authentication },
     .of "encryption" true (nameOf Encryption.ofName?) fun p encryption => { p with encryption },
     .of "nonce" true text fun p nonce => { p with nonce },
     .of "shared_key" true (optional text) fun p sharedKey => { p with sharedKey },
     .of "credential" true (optional text) fun p password => { p with password }]
    ⟨"", none, none, "", none, none⟩

end Profile

end Telemetry.Security
