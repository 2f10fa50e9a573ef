import Telemetry.Bysant.Frame
/-!
# The format as a recursive parser

The format can be read off a table of its tags: a value is a tag and what the tag asks for, and a
container asks for values. The parser that follows the table calls itself for the items of a
container. It reads a length or count first, then looks whether there is room for another container,
and looks at the types of the items only when the last one is in.
-/

namespace Telemetry.Bysant

/-! ## Tags -/

/-- A length or count: part of the tag, or behind it. -/
inductive Size where
  | inTag (n : Nat)
  | ahead

/-- What a tag asks for. -/
inductive Form where
  | constant (value : Value)
  | int (width : Nat)
  /-- A float of 32 bits. -/
  | single
  /-- A float of 64 bits. -/
  | double
  | text (size : Size)
  | bytes (size : Size)
  | list (size : Size)
  | map (size : Size)
  | delta
  | quasi
  | envelope
  | message
  | response

/-- Some tags in a row: the first and the last one, and what each asks for, by its distance from the
first. -/
structure TagRow where
  first : Nat
  last : Nat
  form : Nat → Form

def TagRow.covers (row : TagRow) (tag : UInt8) : Bool :=
  row.first ≤ tag.toNat && tag.toNat ≤ row.last

/-- The tags of the format. -/
def tagTable : List TagRow :=
  [⟨0x00, 0x00, fun _ => .constant .null⟩,
   ⟨0x01, 0x01, fun _ => .constant (.bool true)⟩,
   ⟨0x02, 0x02, fun _ => .constant (.bool false)⟩,
   ⟨0x03, 0x22, fun n => .text (.inTag n)⟩,
   ⟨0x23, 0x23, fun _ => .text .ahead⟩,
   ⟨0x24, 0x43, fun n => .bytes (.inTag n)⟩,
   ⟨0x44, 0x44, fun _ => .bytes .ahead⟩,
   ⟨0x45, 0x54, fun n => .list (.inTag n)⟩,
   ⟨0x55, 0x55, fun _ => .list .ahead⟩,
   ⟨0x56, 0x65, fun n => .map (.inTag n)⟩,
   ⟨0x66, 0x66, fun _ => .map .ahead⟩,
   ⟨0x67, 0x6A, fun n => .int (Nat.pow 2 n)⟩,
   ⟨0x6B, 0x6B, fun _ => .single⟩,
   ⟨0x6C, 0x6C, fun _ => .double⟩,
   ⟨0x6D, 0x6D, fun _ => .delta⟩,
   ⟨0x6E, 0x6E, fun _ => .quasi⟩,
   ⟨0x6F, 0x6F, fun _ => .envelope⟩,
   ⟨0x70, 0x70, fun _ => .message⟩,
   ⟨0x71, 0x71, fun _ => .response⟩,
   ⟨0x80, 0xFF, fun n => .constant (.int (Int64.ofInt (n - 64)))⟩]

/-- What a tag asks for, if the format has it. -/
def Form.ofTag? (tag : UInt8) : Option Form :=
  (tagTable.find? (·.covers tag)).map fun row => row.form (tag.toNat - row.first)

/-! ## Values -/

namespace Reader

/-- Something so many times, one behind the other. -/
def times {α : Type} (r : Reader α) : Nat → Reader (List α)
  | 0 => return []
  | n + 1 => do
    let first ← r
    let others ← times r n
    return first :: others

/-- What was computed, if it did not fail. -/
def check {α : Type} : Except DecodeError α → Reader α
  | .ok a => Pure.pure a
  | .error e => fail e

end Reader

def Size.read : Size → Reader Nat
  | inTag n => pure n
  | ahead => Reader.length

/-- The reader of the items of a container with its tag at `start`, unless there is no room for
one. -/
def enter (inside : Option (Reader Item)) (start : Nat) : Reader (Reader Item) :=
  match inside with
  | some item => pure item
  | none => Reader.fail (.tooDeep maxDepth start)

/-- The value that a tag at `start` begins; `inside` reads the items of a container. -/
def Form.value (inside : Option (Reader Item)) (start : Nat) : Form → Reader Value
  | constant value => pure value
  | int width => do
    return .int (← Reader.int width)
  | single => do
    return .float (Binary32.toFloat (UInt32.ofNat (Bytes.toNat (← Reader.take 4))))
  | double => do
    return .float (Float.ofBits (UInt64.ofNat (Bytes.toNat (← Reader.take 8))))
  | text size => do
    return .text (← Reader.text (← size.read))
  | bytes size => do
    return .bytes (← Reader.take (← size.read))
  | list size => do
    let count ← size.read
    let item ← enter inside start
    let items ← item.times count
    return .list (items.map Item.value)
  | map size => do
    let count ← size.read
    let item ← enter inside start
    let pair : Reader (Value × Value) := do
      let key ← item
      let value ← item
      return (key.value, value.value)
    return .map (← pair.times count)
  | delta => do
    let item ← enter inside start
    let factor ← item
    let first ← item
    let deltas ← readDeltas
    Reader.check (deltaOf factor first deltas)
  | quasi => do
    let item ← enter inside start
    let period ← item
    let first ← item
    let shifts ← item
    Reader.check (quasiOf start period first shifts)
  | envelope => do
    let item ← enter inside start
    let header ← item
    let payload ← item
    let footer ← item
    Reader.check (envelopeOf header payload footer)
  | message => do
    let item ← enter inside start
    let path ← item
    let ticket ← item
    let body ← item
    Reader.check (messageOf path ticket body)
  | response => do
    let item ← enter inside start
    let ticket ← item
    let status ← item
    let message ← item
    Reader.check (responseOf ticket status message)

/-- A value with the offset of its tag; `inside` reads the items of a container. -/
def taggedItem (inside : Option (Reader Item)) : Reader Item := do
  let start ← Reader.offset
  let tag ← Reader.byte
  match Form.ofTag? tag with
  | some form => do
    let value ← form.value inside start
    return ⟨start, value⟩
  | none => Reader.fail (.invalidTag tag start)

/-- A value in which containers are nested no deeper than `room`. -/
def item : (room : Nat) → Reader Item
  | 0 => taggedItem none
  | room + 1 => taggedItem (some (item room))

/-! ## What the parser uses up -/

namespace Reader

variable {α : Type} {r : Reader α}

theorem Uses.times (h : r.Uses 0) : (n : Nat) → (r.times n).Uses 0
  | 0 => uses_pure _
  | n + 1 => (h.bind fun _ => (Uses.times h n).bind fun _ => uses_pure _).weaken (Nat.le_refl 0)

theorem uses_check (result : Except DecodeError α) : (check result).Uses 0 := by
  cases result with
  | ok a => exact uses_pure a
  | error e => exact uses_fail e

end Reader

theorem Size.uses_read (size : Size) : size.read.Uses 0 := by
  cases size with
  | inTag n => exact Reader.uses_pure n
  | ahead => exact Reader.uses_length.weaken (Nat.zero_le 1)

section Uses

variable {inside : Option (Reader Item)} (frugal : ∀ item, inside = some item → item.Uses 0)

include frugal

theorem uses_enter {α : Type} {f : Reader Item → Reader α}
    (second : ∀ item : Reader Item, item.Uses 0 → (f item).Uses 0) (start : Nat) :
    (enter inside start >>= f).Uses 0 := by
  cases inside with
  | some item => exact second item (frugal item rfl)
  | none =>
    intro place a rest read
    cases read

/-- Three items and what is made of them. -/
theorem uses_three {finish : Item → Item → Item → Except DecodeError Value} (start : Nat) :
    (enter inside start >>= fun item => item >>= fun first => item >>= fun second =>
      item >>= fun third => Reader.check (finish first second third)).Uses 0 :=
  uses_enter frugal (fun _ uses => uses.bind fun _ => uses.bind fun _ => uses.bind fun _ =>
    Reader.uses_check _) start

theorem Form.uses_value (form : Form) (start : Nat) : (form.value inside start).Uses 0 := by
  have behind {α : Type} {n : Nat} {r : Reader α} (h : r.Uses n) (f : α → Value) :
      (r >>= fun a => (pure (f a) : Reader Value)).Uses 0 :=
    (h.bind fun a => Reader.uses_pure (f a)).weaken (Nat.zero_le _)
  have sized {α : Type} {r : Nat → Reader α} (h : ∀ n, (r n).Uses n) (f : α → Value) (size : Size) :
      (size.read >>= fun n => r n >>= fun a => (pure (f a) : Reader Value)).Uses 0 :=
    size.uses_read.bind fun n => behind (h n) f
  cases form with
  | constant value => exact Reader.uses_pure value
  | int width => exact behind (Reader.uses_int width) _
  | single => exact behind (Reader.uses_take 4) _
  | double => exact behind (Reader.uses_take 8) _
  | text size => exact sized Reader.uses_text _ size
  | bytes size => exact sized Reader.uses_take _ size
  | list size =>
    exact size.uses_read.bind fun count => uses_enter frugal
      (fun item uses => behind (uses.times count) _) start
  | map size =>
    refine size.uses_read.bind fun count => uses_enter frugal (fun item uses => ?_) start
    exact behind (Reader.Uses.times (uses.bind fun _ => uses.bind fun _ => Reader.uses_pure _) count) _
  | delta =>
    exact uses_enter frugal (fun item uses => uses.bind fun _ => uses.bind fun _ =>
      (uses_readDeltas.weaken (Nat.zero_le 1)).bind fun _ => Reader.uses_check _) start
  | quasi => exact uses_three frugal start
  | envelope => exact uses_three frugal start
  | message => exact uses_three frugal start
  | response => exact uses_three frugal start

theorem uses_taggedItem : (taggedItem inside).Uses 1 := by
  refine Reader.uses_offset.bind fun start => (?_ : Reader.Uses (1 + 0) _)
  refine Reader.uses_byte.bind fun tag => ?_
  cases Form.ofTag? tag with
  | some form => exact (form.uses_value frugal start).bind fun _ => Reader.uses_pure _
  | none => exact Reader.uses_fail _

end Uses

/-- A value uses up its tag at least. -/
theorem uses_item : (room : Nat) → (item room).Uses 1
  | 0 => uses_taggedItem nofun
  | room + 1 => uses_taggedItem fun _ same =>
    Option.some.inj same ▸ (uses_item room).weaken (Nat.zero_le 1)

/-! ## Values one after the other -/

/-- What parsing some bytes comes to. -/
inductive Parse where
  /-- All bytes are used up by these values. -/
  | consumed (values : List Value)
  /-- The first error. -/
  | malformed (error : DecodeError)
  /-- The bytes end inside a value, so many of them behind its start. -/
  | cutShort (unfinished : Nat)

def Parse.cons (value : Value) : Parse → Parse
  | consumed values => consumed (value :: values)
  | malformed error => malformed error
  | cutShort unfinished => cutShort unfinished

/-- Parses the bytes from some place to the end. -/
def parseFrom (place : Place) : Parse :=
  if place.bytes = [] then .consumed []
  else
    match _ : item maxDepth place with
    | .done item rest => (parseFrom rest).cons item.value
    | .more _ => .cutShort place.bytes.length
    | .fail error => .malformed error
termination_by place.bytes.length
decreasing_by
  obtain ⟨used, bytes, -, some⟩ := uses_item maxDepth _ _ _ ‹_›
  rw [bytes, List.length_append]
  omega

section Parse

variable {place rest : Place}

theorem parseFrom_nil (none : place.bytes = []) : parseFrom place = .consumed [] := by
  rw [parseFrom, if_pos none]

theorem parseFrom_done {item : Item} (some : place.bytes ≠ [])
    (read : Bysant.item maxDepth place = .done item rest) :
    parseFrom place = (parseFrom rest).cons item.value := by
  rw [parseFrom, if_neg some]
  split <;> simp_all

theorem parseFrom_more {missing : Nat} (some : place.bytes ≠ [])
    (read : item maxDepth place = .more missing) :
    parseFrom place = .cutShort place.bytes.length := by
  rw [parseFrom, if_neg some]
  split <;> simp_all

theorem parseFrom_fail {error : DecodeError} (some : place.bytes ≠ [])
    (read : item maxDepth place = .fail error) : parseFrom place = .malformed error := by
  rw [parseFrom, if_neg some]
  split <;> simp_all

end Parse

def parse (b : Bytes) : Parse := parseFrom ⟨0, b⟩

/-- The result of decoding bytes that parse like this. -/
def Parse.result : Parse → Except DecodeError (List Value)
  | consumed values => .ok values
  | malformed error => .error error
  | cutShort unfinished => .error (.trailingBytes unfinished)

end Telemetry.Bysant
