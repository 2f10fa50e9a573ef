import Telemetry.Bysant.Vector
import Telemetry.Table
/-!
# Values, messages and envelopes

What the codec carries. A value is a scalar, a byte string or text, a list, a map, a compressed
vector, or one of the three protocol units: an envelope with its header and payload, a message that
reports values under a path, and a response to a message.
-/

namespace Telemetry.Bysant

/-- The name of a header entry. Names that the protocol gives a meaning have a case of their own. -/
inductive HeaderKey where
  /-- Who sends the envelope. -/
  | id
  /-- How a request was answered. -/
  | status
  /-- Fresh text of the sender, to be used by the peer's next checksum. -/
  | nonce
  /-- The checksum of the payload. -/
  | mac
  /-- The sender asks for the last response again. -/
  | challenge
  /-- Fresh text of a password negotiation. -/
  | autoregSalt
  /-- A public key of a password negotiation. -/
  | autoregPubkey
  /-- The hidden password of a password negotiation. -/
  | autoregCtext
  /-- The checksum of a password negotiation. -/
  | autoregMac
  /-- A name without a meaning to the protocol. -/
  | other (name : String)
  deriving Repr, DecidableEq, Inhabited

namespace HeaderKey

/-- The name as it is sent. -/
def name : HeaderKey → String
  | id => "id"
  | status => "status"
  | nonce => "nonce"
  | mac => "mac"
  | challenge => "challenge"
  | autoregSalt => "autoreg_salt"
  | autoregPubkey => "autoreg_pubkey"
  | autoregCtext => "autoreg_ctext"
  | autoregMac => "autoreg_mac"
  | other name => name

/-- The key that is sent under a name. -/
def ofName (name : String) : HeaderKey :=
  if name = "id" then id
  else if name = "status" then status
  else if name = "nonce" then nonce
  else if name = "mac" then mac
  else if name = "challenge" then challenge
  else if name = "autoreg_salt" then autoregSalt
  else if name = "autoreg_pubkey" then autoregPubkey
  else if name = "autoreg_ctext" then autoregCtext
  else if name = "autoreg_mac" then autoregMac
  else other name

/-- Every name is sent as it was given. -/
@[simp] theorem name_ofName (s : String) : (ofName s).name = s := by
  unfold ofName
  repeat' split
  all_goals simp_all [name]

end HeaderKey

/-- The acknowledgement of a message that carried a ticket. -/
structure Response where
  ticket : UInt32
  status : Int64
  message : String
  deriving BEq, DecidableEq, Inhabited

mutual

/-- What the codec carries. Two values are equal (`==`) when their floats compare equal. -/
inductive Value where
  | null
  | bool (value : Bool)
  | int (value : Int64)
  | float (value : Float)
  | bytes (value : Bytes)
  | text (value : String)
  | list (items : List Value)
  /-- Pairs in the order in which they are sent. -/
  | map (pairs : List (Value × Value))
  | delta (vector : DeltaVector)
  | quasi (vector : QuasiPeriodicVector)
  | envelope (envelope : Envelope)
  | message (message : Message)
  | response (response : Response)
  deriving BEq, Inhabited

/-- The entries of an envelope's header, in order of their first insertion, keys distinct. -/
structure Header where
  entries : List (HeaderKey × Value)
  deriving BEq, Inhabited

/-- The outermost unit of the protocol: a header about a payload, which is opaque here. -/
structure Envelope where
  header : Header
  payload : Bytes
  footer : List (Value × Value)
  deriving BEq, Inhabited

/-- Values reported under a path. A ticket asks for an acknowledgement. -/
structure Message where
  path : String
  ticket : Option UInt32
  /-- A table: entries in increasing order of their keys. -/
  body : List (String × Value)
  deriving BEq, Inhabited

end

namespace Value

/-- What kind of value this is, in words. -/
def kind : Value → String
  | null => "null"
  | bool _ => "boolean"
  | int _ => "integer"
  | float _ => "float"
  | bytes _ => "bytes"
  | text _ => "string"
  | list _ => "list"
  | map _ => "map"
  | delta _ => "delta vector"
  | quasi _ => "quasi-periodic vector"
  | envelope _ => "envelope"
  | message _ => "message"
  | response _ => "response"

def ofNumber : Number → Value
  | .int value => int value
  | .float value => float value

/-- The number that an integer or a float is. -/
def number? : Value → Option Number
  | int value => some (.int value)
  | float value => some (.float value)
  | _ => none

def int? : Value → Option Int64
  | int value => some value
  | _ => none

/-- The text that this value is; a byte string counts when it is UTF-8. -/
def text? : Value → Option String
  | text value => some value
  | bytes value => Bytes.toString? value
  | _ => none

/-- The bytes of a byte string or of a text. -/
def bytes? : Value → Option Bytes
  | bytes value => some value
  | text value => some (Bytes.ofString value)
  | _ => none

/-- The numbers of a compressed vector or of a list that holds numbers only. -/
def samples? : Value → Option (List Number)
  | delta vector => some vector.samples
  | quasi vector => some vector.samples
  | list items => items.mapM number?
  | _ => none

end Value

end Telemetry.Bysant
