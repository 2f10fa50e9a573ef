import Telemetry.Bysant.Header
import Telemetry.Bysant.Varint
import Telemetry.Number.Binary
/-!
# The encoder

Every value is written as a tag and what the tag asks for, always in the shortest form: small
integers inside the tag, other integers in the fewest bytes, floats in 32 bits when that loses
nothing, short lengths inside the tag.

    00              null                    67 … 6A  integer in 1, 2, 4 or 8 bytes
    01, 02          true, false             6B, 6C   float in 4 or 8 bytes
    03 … 22, 23     text                    6D       delta vector
    24 … 43, 44     byte string             6E       quasi-periodic vector
    45 … 54, 55     list                    6F … 71  envelope, message, response
    56 … 65, 66     map                     80 … FF  integer from -64 to 63
-/

namespace Telemetry.Bysant

/-- A length: inside the tag up to `most`, else after the tag `long`. -/
def encodeLength (short long : UInt8) (most length : Nat) : Bytes :=
  if length ≤ most then [short + UInt8.ofNat length]
  else long :: Varint.encode (UInt64.ofNat length)

/-- The length of a text in bytes. -/
def encodeTextLength : Nat → Bytes := encodeLength 0x03 0x23 31

def encodeBytesLength : Nat → Bytes := encodeLength 0x24 0x44 31

def encodeListCount : Nat → Bytes := encodeLength 0x45 0x55 15

def encodeMapCount : Nat → Bytes := encodeLength 0x56 0x66 15

def encodeInt (value : Int64) : Bytes :=
  let i := value.toInt
  if -64 ≤ i ∧ i ≤ 63 then [UInt8.ofNat (i + 0xC0).toNat]
  else if -0x80 ≤ i ∧ i ≤ 0x7f then 0x67 :: Bytes.ofInt 1 i
  else if -0x8000 ≤ i ∧ i ≤ 0x7fff then 0x68 :: Bytes.ofInt 2 i
  else if -0x80000000 ≤ i ∧ i ≤ 0x7fffffff then 0x69 :: Bytes.ofInt 4 i
  else 0x6A :: Bytes.ofInt 8 i

def encodeFloat (value : Float) : Bytes :=
  match Binary32.ofFloat? value with
  | some pattern => 0x6B :: Bytes.ofNat 4 pattern.toNat
  | none => 0x6C :: Bytes.ofNat 8 value.toBits.toNat

def encodeNumber : Number → Bytes
  | .int value => encodeInt value
  | .float value => encodeFloat value

def encodeBytes (value : Bytes) : Bytes := encodeBytesLength value.length ++ value

def encodeText (value : String) : Bytes :=
  let body := Bytes.ofString value
  encodeTextLength body.length ++ body

/-- A delta vector: its two numbers, then the differences in as few bytes each as hold them all. -/
def encodeDelta (v : DeltaVector) : Bytes :=
  0x6D :: (encodeNumber v.factor ++ encodeNumber v.start ++ UInt8.ofNat v.width ::
    (Varint.encode (UInt64.ofNat v.deltas.length) ++
      v.deltas.flatMap fun delta => Bytes.ofInt v.width delta.toInt))

/-- A quasi-periodic vector: its two numbers, then the shifts as a list of integers. -/
def encodeQuasi (v : QuasiPeriodicVector) : Bytes :=
  0x6E :: (encodeNumber v.period ++ encodeNumber v.start ++
    (encodeListCount v.shifts.length ++ v.shifts.flatMap encodeInt))

def encodeResponse (r : Response) : Bytes :=
  0x71 :: (encodeInt (Int64.ofNat r.ticket.toNat) ++ encodeInt r.status ++ encodeText r.message)

/-- A ticket, or null in its place. -/
def encodeTicket : Option UInt32 → Bytes
  | some ticket => encodeInt (Int64.ofNat ticket.toNat)
  | none => [0x00]

mutual

def encode : Value → Bytes
  | .null => [0x00]
  | .bool true => [0x01]
  | .bool false => [0x02]
  | .int value => encodeInt value
  | .float value => encodeFloat value
  | .bytes value => encodeBytes value
  | .text value => encodeText value
  | .list items => encodeListCount items.length ++ encodeAll items
  | .map pairs => encodeMapCount pairs.length ++ encodePairs pairs
  | .delta vector => encodeDelta vector
  | .quasi vector => encodeQuasi vector
  | .envelope ⟨⟨entries⟩, payload, footer⟩ =>
    0x6F :: (encodeMapCount entries.length ++ encodeEntries entries ++ encodeBytes payload ++
      (encodeMapCount footer.length ++ encodePairs footer))
  | .message ⟨path, ticket, body⟩ =>
    0x70 :: (encodeText path ++ encodeTicket ticket ++
      (encodeMapCount body.length ++ encodeBody body))
  | .response response => encodeResponse response
termination_by structural value => value

def encodeAll : List Value → Bytes
  | [] => []
  | value :: rest => encode value ++ encodeAll rest
termination_by structural values => values

/-- The pairs of a map, each key before its value. -/
def encodePairs : List (Value × Value) → Bytes
  | [] => []
  | (key, value) :: rest => encode key ++ encode value ++ encodePairs rest
termination_by structural pairs => pairs

/-- The entries of a header under their names. -/
def encodeEntries : List (HeaderKey × Value) → Bytes
  | [] => []
  | (key, value) :: rest => encodeText key.name ++ encode value ++ encodeEntries rest
termination_by structural entries => entries

def encodeBody : List (String × Value) → Bytes
  | [] => []
  | (key, value) :: rest => encodeText key ++ encode value ++ encodeBody rest
termination_by structural body => body

end

def Envelope.encode (e : Envelope) : Bytes := Bysant.encode (.envelope e)

/-- An envelope whose payload encodes messages. -/
def Envelope.ofMessages (header : Header) (messages : List Message) : Envelope :=
  .ofPayload header (encodeAll (messages.map .message))

/-- The envelope that stands for a message sent without one. -/
def Envelope.wrap (m : Message) : Envelope := .ofMessages .empty [m]

end Telemetry.Bysant
