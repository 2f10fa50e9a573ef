import Telemetry.Bysant.Value
/-!
# Headers, bodies and status codes

A header is a map that keeps the order of first insertion; a message body is a map in the order of
its keys. A response envelope says in its header how the request was answered.
-/

namespace Telemetry.Bysant

namespace Header

def empty : Header := ⟨[]⟩

/-- The value under a key in a list of entries. -/
def lookup (key : HeaderKey) : List (HeaderKey × Value) → Option Value
  | [] => none
  | (k, value) :: rest => if k = key then some value else lookup key rest

/-- Entries with a key set: in its old place, or at the end when it is new. -/
def put (key : HeaderKey) (value : Value) : List (HeaderKey × Value) → List (HeaderKey × Value)
  | [] => [(key, value)]
  | (k, old) :: rest => if k = key then (k, value) :: rest else (k, old) :: put key value rest

/-- Entries without those under a key. -/
def drop (key : HeaderKey) : List (HeaderKey × Value) → List (HeaderKey × Value)
  | [] => []
  | (k, value) :: rest => if k = key then rest else (k, value) :: drop key rest

def get? (h : Header) (key : HeaderKey) : Option Value := lookup key h.entries

/-- Sets a key; a key that is there keeps its place. -/
def insert (h : Header) (key : HeaderKey) (value : Value) : Header := ⟨put key value h.entries⟩

def erase (h : Header) (key : HeaderKey) : Header := ⟨drop key h.entries⟩

/-- Takes the entry of a key out: its value, if there is one, and the header without it. -/
def remove (h : Header) (key : HeaderKey) : Option Value × Header :=
  match h.entries.findIdx? fun entry => entry.1 = key with
  | some place => (h.entries[place]?.map Prod.snd, ⟨h.entries.eraseIdx place⟩)
  | none => (none, h)

def contains (h : Header) (key : HeaderKey) : Bool := (h.get? key).isSome

def keys (h : Header) : List HeaderKey := h.entries.map Prod.fst

def size (h : Header) : Nat := h.entries.length

/-- The bytes of a byte string or text under a key. -/
def bytes? (h : Header) (key : HeaderKey) : Option Bytes := (h.get? key).bind Value.bytes?

def text? (h : Header) (key : HeaderKey) : Option String := (h.get? key).bind Value.text?

/-- The header that inserting entries in order gives. -/
def ofList (entries : List (HeaderKey × Value)) : Header :=
  entries.foldl (fun h entry => h.insert entry.1 entry.2) empty

end Header

namespace Message

/-- A message without values and without ticket. -/
def ofPath (path : String) : Message := ⟨path, none, []⟩

def insert (m : Message) (key : String) (value : Value) : Message :=
  { m with body := Table.put key value m.body }

def get? (m : Message) (key : String) : Option Value := Table.get? key m.body

end Message

/-- How a request was answered, by number. -/
structure StatusCode where
  code : UInt16
  deriving Repr, DecidableEq, Inhabited

namespace StatusCode

/-- The request was handled. -/
def ok : StatusCode := ⟨200⟩

/-- The payload does not decode. -/
def badRequest : StatusCode := ⟨400⟩

/-- The checksum is missing or wrong; the peer may try again. -/
def unauthorized : StatusCode := ⟨401⟩

/-- The checksum was wrong too often, or the session cannot go on. -/
def forbidden : StatusCode := ⟨403⟩

/-- A password has to be negotiated first. -/
def authenticationRequired : StatusCode := ⟨407⟩

/-- The payload should have been ciphered. -/
def encryptionNeeded : StatusCode := ⟨450⟩

def unexpectedError : StatusCode := ⟨500⟩

def serviceUnavailable : StatusCode := ⟨503⟩

def name? (s : StatusCode) : Option String :=
  if s = ok then some "OK"
  else if s = badRequest then some "BAD_REQUEST"
  else if s = unauthorized then some "UNAUTHORIZED"
  else if s = forbidden then some "FORBIDDEN"
  else if s = authenticationRequired then some "AUTHENTICATION_REQUIRED"
  else if s = encryptionNeeded then some "ENCRYPTION_NEEDED"
  else if s = unexpectedError then some "UNEXPECTED_ERROR"
  else if s = serviceUnavailable then some "SERVICE_UNAVAILABLE"
  else none

/-- The number and the name of a code. -/
def describe (s : StatusCode) : String :=
  toString s.code.toNat ++ " " ++ s.name?.getD "UNKNOWN"

def toValue (s : StatusCode) : Value := .int (Int64.ofNat s.code.toNat)

/-- The code that a header value holds: an integer of 16 bits. -/
def ofValue? (v : Value) : Option StatusCode :=
  match v with
  | .int i =>
    if 0 ≤ i.toInt ∧ i.toInt < UInt16.size then some ⟨UInt16.ofNat i.toInt.toNat⟩ else none
  | _ => none

end StatusCode

namespace Envelope

def empty : Envelope := ⟨.empty, [], []⟩

/-- An envelope without footer. -/
def ofPayload (header : Header) (payload : Bytes) : Envelope := ⟨header, payload, []⟩

/-- Who sends the envelope, as its header says. -/
def senderId? (e : Envelope) : Option String := e.header.text? .id

/-- How the request was answered, as the header says. -/
def status? (e : Envelope) : Option StatusCode := (e.header.get? .status).bind StatusCode.ofValue?

def ofStatus (s : StatusCode) : Envelope := .ofPayload (.ofList [(.status, s.toValue)]) []

end Envelope

end Telemetry.Bysant
