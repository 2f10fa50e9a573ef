import Telemetry.Bysant.Reader
import Telemetry.Number.Binary
/-!
# Tokens

The encoding of a value is cut into tokens: a scalar, a byte string or a text, the head of a
container, or the packed differences of a delta vector.
-/

namespace Telemetry.Bysant

/-- The containers of the format. -/
inductive Container where
  | list
  | map
  | delta
  | quasi
  | envelope
  | message
  | response
  deriving Repr, DecidableEq, Inhabited

/-- The smallest unit of input that is read at once. -/
inductive Token where
  /-- A value that holds no other value. -/
  | leaf (value : Value)
  /-- The head of a container and the number of items that follow; a pair of a map is two items. -/
  | head (container : Container) (items : Nat)

namespace Token

/-- The token that a tag starts. -/
def afterTag (tag : UInt8) (start : Nat) : Reader Token :=
  let n := tag.toNat
  let leaf (value : Value) : Reader Token := Reader.pure (Token.leaf value)
  let head (container : Container) (items : Nat) : Reader Token :=
    Reader.pure (Token.head container items)
  if n = 0x00 then leaf .null
  else if n = 0x01 then leaf (.bool true)
  else if n = 0x02 then leaf (.bool false)
  else if n ≤ 0x22 then do leaf (.text (← Reader.text (n - 0x03)))
  else if n = 0x23 then do leaf (.text (← Reader.text (← Reader.length)))
  else if n ≤ 0x43 then do leaf (.bytes (← Reader.take (n - 0x24)))
  else if n = 0x44 then do leaf (.bytes (← Reader.take (← Reader.length)))
  else if n ≤ 0x54 then head .list (n - 0x45)
  else if n = 0x55 then do head .list (← Reader.length)
  else if n ≤ 0x65 then head .map (2 * (n - 0x56))
  else if n = 0x66 then do head .map (2 * (← Reader.length))
  else if n = 0x67 then do leaf (.int (← Reader.int 1))
  else if n = 0x68 then do leaf (.int (← Reader.int 2))
  else if n = 0x69 then do leaf (.int (← Reader.int 4))
  else if n = 0x6A then do leaf (.int (← Reader.int 8))
  else if n = 0x6B then do
    leaf (.float (Binary32.toFloat (UInt32.ofNat (Bytes.toNat (← Reader.take 4)))))
  else if n = 0x6C then do
    leaf (.float (Float.ofBits (UInt64.ofNat (Bytes.toNat (← Reader.take 8)))))
  else if n = 0x6D then head .delta 2
  else if n = 0x6E then head .quasi 3
  else if n = 0x6F then head .envelope 3
  else if n = 0x70 then head .message 3
  else if n = 0x71 then head .response 3
  else if n ≤ 0x7F then Reader.fail (.invalidTag tag start)
  else leaf (.int (Int64.ofInt ((n : Int) - 0xC0)))

def read : Reader Token := do
  let start ← Reader.offset
  let tag ← Reader.byte
  afterTag tag start

theorem uses_afterTag (tag : UInt8) (start : Nat) : (afterTag tag start).Uses 0 := by
  -- a byte of content, a length, or nothing may follow the tag
  have plain (token : Token) : (Reader.pure token).Uses 0 := Reader.uses_pure token
  have behind {α : Type} {n : Nat} {r : Reader α} (h : r.Uses n) (token : α → Token) :
      (r >>= fun a => Reader.pure (token a)).Uses 0 :=
    (h.bind fun a => plain (token a)).weaken (Nat.zero_le _)
  have sized {α : Type} {r : Nat → Reader α} (h : ∀ n, (r n).Uses n) (token : α → Token) :
      (Reader.length >>= fun n => r n >>= fun a => Reader.pure (token a)).Uses 0 :=
    (Reader.uses_length.bind fun n => behind (h n) token).weaken (Nat.zero_le _)
  unfold afterTag
  repeat' apply Reader.uses_ite
  all_goals first
    | exact plain _
    | exact behind (Reader.uses_text _) _
    | exact behind (Reader.uses_take _) _
    | exact behind (Reader.uses_int _) _
    | exact behind Reader.uses_length _
    | exact sized Reader.uses_text _
    | exact sized Reader.uses_take _
    | exact Reader.uses_fail _

theorem uses_read : read.Uses 1 := by
  refine Reader.uses_offset.bind fun start => (?_ : Reader.Uses (1 + 0) _)
  exact Reader.uses_byte.bind fun tag => uses_afterTag tag start

end Token

/-- Cuts bytes into big-endian numbers of `width` bytes; `count` of them. -/
def unpackInts (width : Nat) : (count : Nat) → Bytes → List Int64
  | 0, _ => []
  | count + 1, b =>
    Int64.ofInt (Bytes.toInt (b.take width)) :: unpackInts width count (b.drop width)

/-- The differences of a delta vector: the bytes of one, their number, then all of them. -/
def readDeltas : Reader (List Int64) := do
  let start ← Reader.offset
  let width ← Reader.byte
  if width.toNat = 1 ∨ width.toNat = 2 ∨ width.toNat = 4 ∨ width.toNat = 8 then
    let countStart ← Reader.offset
    let count ← Reader.length
    if maxVectorSamples ≤ count then
      Reader.fail (.vectorTooLarge maxVectorSamples countStart)
    else if maxLength < count * width.toNat then
      Reader.fail (.lengthOverflow (count * width.toNat) maxLength countStart)
    else
      let body ← Reader.take (count * width.toNat)
      pure (unpackInts width.toNat count body)
  else Reader.fail (.wrongType "delta width 1, 2, 4 or 8" (toString width.toNat) start)

theorem uses_readDeltas : readDeltas.Uses 1 := by
  refine Reader.uses_offset.bind fun start => (Reader.uses_byte.bind fun width => ?_ :
    Reader.Uses (1 + 0) _)
  refine Reader.uses_ite ?_ (Reader.uses_fail _)
  refine (Reader.uses_offset.bind fun countStart => Reader.uses_length.bind fun count => ?_ :
    Reader.Uses (0 + (1 + 0)) _).weaken (by omega)
  refine Reader.uses_ite (Reader.uses_fail _) (Reader.uses_ite (Reader.uses_fail _) ?_)
  exact ((Reader.uses_take _).bind fun body => Reader.uses_pure _).weaken (Nat.zero_le _)

end Telemetry.Bysant
