import Telemetry.Crypto.Md5
import Telemetry.Crypto.Sha1
/-!
# Keyed checksums

A checksum proves that its maker knows the password of a user and has seen a salt:

    key      = MD5 (user ++ MD5 password)
    checksum = D (key ++ body ++ salt)      where D is MD5 or SHA-1

It is not the HMAC construction that its names suggest.
-/

namespace Telemetry.Security

open Crypto (md5 sha1)

/-- Which digest makes the checksum. -/
inductive ChecksumKind where
  | md5
  | sha1
  deriving Repr, DecidableEq, Inhabited

namespace ChecksumKind

def name : ChecksumKind → String
  | md5 => "hmac-md5"
  | sha1 => "hmac-sha1"

def size : ChecksumKind → Nat
  | md5 => 16
  | sha1 => 20

def digest : ChecksumKind → Bytes → Bytes
  | md5 => Crypto.md5
  | sha1 => Crypto.sha1

/-- The kind of a name, in which case does not matter. -/
def ofName? (name : String) : Option ChecksumKind :=
  let lower := name.toLower
  if lower = "hmac-md5" then some md5 else if lower = "hmac-sha1" then some sha1 else none

end ChecksumKind

inductive ChecksumError where
  | verificationFailed
  | unknownKind (name : String)
  deriving Repr, DecidableEq

def ChecksumError.message : ChecksumError → String
  | verificationFailed => "checksum verification failed"
  | unknownKind name => s!"unknown authentication kind: {name}"

/-- The kind of a name, or the complaint about it. -/
def ChecksumKind.parse (name : String) : Except ChecksumError ChecksumKind :=
  match ofName? name with
  | some kind => .ok kind
  | none => .error (.unknownKind name.toLower)

/-- The key of a user whose password has this MD5 digest. -/
def checksumKeyOfDigest (user passwordDigest : Bytes) : Bytes := md5 (user ++ passwordDigest)

/-- The key of a user with this password. -/
def checksumKey (user password : Bytes) : Bytes := checksumKeyOfDigest user (md5 password)

/-- The digest of a body between a key and a salt. -/
def digestWithKey (kind : ChecksumKind) (key body salt : Bytes) : Bytes :=
  kind.digest (key ++ body ++ salt)

/-- The checksum of a body, by the MD5 digest of the password. -/
def checksumOfDigest (kind : ChecksumKind) (user passwordDigest salt body : Bytes) : Bytes :=
  digestWithKey kind (checksumKeyOfDigest user passwordDigest) body salt

def checksum (kind : ChecksumKind) (user password salt body : Bytes) : Bytes :=
  digestWithKey kind (checksumKey user password) body salt

/-- Compares a checksum with the one that it should be. -/
def verifyChecksum (expected given : Bytes) : Except ChecksumError Unit :=
  if expected = given then .ok () else .error .verificationFailed

@[simp] theorem verifyChecksum_self (given : Bytes) : verifyChecksum given given = .ok () :=
  if_pos rfl

theorem verifyChecksum_of_ne {expected given : Bytes} (different : expected ≠ given) :
    verifyChecksum expected given = .error .verificationFailed :=
  if_neg different

end Telemetry.Security
