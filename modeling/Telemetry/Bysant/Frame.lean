import Telemetry.Bysant.Header
import Telemetry.Bysant.Token
/-!
# Containers under construction

A frame is a container whose items are still being read. Items are kept as they come, each with the
offset of its tag; their types are checked when the last one is in.
-/

namespace Telemetry.Bysant

/-- A value and the offset of its tag. -/
structure Item where
  offset : Nat
  value : Value
  deriving Inhabited

namespace Item

/-- An item read as something of another type, or the complaint that it is not that. -/
def expect {α : Type} (item : Item) (expected : String) (view : Value → Option α) :
    Except DecodeError α :=
  match view item.value with
  | some a => .ok a
  | none => .error (.wrongType expected item.value.kind item.offset)

def number (item : Item) : Except DecodeError Number := item.expect "number" Value.number?

/-- A text, or a byte string that is UTF-8. -/
def text (item : Item) : Except DecodeError String := item.expect "string" Value.text?

def map (item : Item) : Except DecodeError (List (Value × Value)) :=
  item.expect "map" fun
    | .map pairs => some pairs
    | _ => none

def ints (item : Item) : Except DecodeError (List Int64) :=
  item.expect "list of integers" fun
    | .list items => items.mapM Value.int?
    | _ => none

/-- The 32-bit unsigned number that an integer value is. -/
def ticketOf? (value : Value) : Option UInt32 :=
  match value with
  | .int i =>
    if 0 ≤ i.toInt ∧ i.toInt < UInt32.size then some (UInt32.ofNat i.toInt.toNat) else none
  | _ => none

def ticket (item : Item) : Except DecodeError UInt32 := item.expect "ticket id" ticketOf?

/-- A ticket, or null for none. -/
def optionalTicket (item : Item) : Except DecodeError (Option UInt32) :=
  item.expect "ticket id or null" fun
    | .null => some none
    | value => (ticketOf? value).map some

end Item

/-- Pairs up the items of a map. -/
def pairUp : List Item → List (Value × Value)
  | key :: value :: rest => (key.value, value.value) :: pairUp rest
  | _ => []

/-- The header that the pairs of a map at `offset` stand for; a name that comes again replaces. -/
def headerOfPairs (offset : Nat) :
    List (Value × Value) → Header → Except DecodeError Header
  | [], header => .ok header
  | (key, value) :: rest, header =>
    match key.text? with
    | some name => headerOfPairs offset rest (header.insert (.ofName name) value)
    | none => .error (.wrongType "string header key" key.kind offset)

/-- The message body that the pairs of a map at `offset` stand for; a key that comes again
replaces. -/
def bodyOfPairs (offset : Nat) :
    List (Value × Value) → Table String Value → Except DecodeError (Table String Value)
  | [], body => .ok body
  | (key, value) :: rest, body =>
    match key.text? with
    | some name => bodyOfPairs offset rest (Table.put name value body)
    | none => .error (.wrongType "string body key" key.kind offset)

/-- An envelope at `offset` from its header, payload and footer. -/
def envelopeOf (header payload footer : Item) : Except DecodeError Value := do
  let pairs ← header.map
  let entries ← headerOfPairs header.offset pairs .empty
  let payload ← payload.expect "bytes" Value.bytes?
  let footer ← footer.map
  return .envelope ⟨entries, payload, footer⟩

def messageOf (path ticket body : Item) : Except DecodeError Value := do
  let path ← path.text
  let ticket ← ticket.optionalTicket
  let pairs ← body.map
  let body ← bodyOfPairs body.offset pairs []
  return .message ⟨path, ticket, body⟩

def responseOf (ticket status message : Item) : Except DecodeError Value := do
  let ticket ← ticket.ticket
  let status ← status.expect "integer status" Value.int?
  let message ← message.text
  return .response ⟨ticket, status, message⟩

/-- The complaint about the shifts of a quasi-periodic vector at `offset`. -/
def shiftsComplaint (offset : Nat) : ShiftsError → DecodeError
  | .negativeCount count =>
    .wrongType "non-negative repetition count" (toString count.toInt) offset
  | .tooLarge => .vectorTooLarge maxVectorSamples offset

/-- A quasi-periodic vector at `offset` from its period, start and shifts. -/
def quasiOf (offset : Nat) (period start shifts : Item) : Except DecodeError Value := do
  let period ← period.number
  let start ← start.number
  let shifts ← shifts.ints
  match QuasiPeriodicVector.ofShifts period start shifts with
  | .ok vector => return .quasi vector
  | .error e => throw (shiftsComplaint offset e)

/-- A delta vector from its factor, start and differences. -/
def deltaOf (factor start : Item) (deltas : List Int64) : Except DecodeError Value := do
  let factor ← factor.number
  let start ← start.number
  return .delta ⟨factor, start, deltas⟩

/-- A container under construction. -/
structure Frame where
  container : Container
  /-- Where its tag stands. -/
  offset : Nat
  /-- The items so far, last one first. -/
  items : List Item
  /-- How many items are still to come. -/
  missing : Nat

namespace Frame

def start (container : Container) (offset items : Nat) : Frame := ⟨container, offset, [], items⟩

def push (f : Frame) (item : Item) : Frame :=
  { f with items := item :: f.items, missing := f.missing - 1 }

/-- The numbers of a delta vector are in, and its differences come next. -/
def awaitsDeltas (f : Frame) : Bool := f.container = .delta ∧ f.missing = 0

/-- Every item is in, and nothing else is to come. -/
def isFull (f : Frame) : Bool := f.missing = 0 ∧ f.container ≠ .delta

/-- An item by its position; a null in the container's place where there is none. -/
def item (f : Frame) (position : Nat) : Item :=
  (f.items.reverse[position]?).getD ⟨f.offset, .null⟩

def finish (f : Frame) (deltas : List Int64) : Except DecodeError Value :=
  match f.container with
  | .list => .ok (.list (f.items.reverse.map Item.value))
  | .map => .ok (.map (pairUp f.items.reverse))
  | .delta => deltaOf (f.item 0) (f.item 1) deltas
  | .quasi => quasiOf f.offset (f.item 0) (f.item 1) (f.item 2)
  | .envelope => envelopeOf (f.item 0) (f.item 1) (f.item 2)
  | .message => messageOf (f.item 0) (f.item 1) (f.item 2)
  | .response => responseOf (f.item 0) (f.item 1) (f.item 2)

end Frame

/-- The deepest nesting of containers that is read. -/
def maxDepth : Nat := 64

/-- What reading a token leads to. -/
inductive Progress where
  /-- These containers are open now, innermost first. -/
  | inside (stack : List Frame)
  /-- A value outside all containers is complete. -/
  | emitted (item : Item)

/-- The value that is complete, if one is. -/
def Progress.item? : Progress → Option Item
  | inside _ => none
  | emitted item => some item

/-- Hands a value to the innermost open container, and closes every container that it completes. -/
def close : List Frame → Item → Except DecodeError Progress
  | [], item => .ok (.emitted item)
  | frame :: rest, item =>
    let frame := frame.push item
    if frame.isFull then
      match frame.finish [] with
      | .ok value => close rest ⟨frame.offset, value⟩
      | .error e => .error e
    else .ok (.inside (frame :: rest))

/-- Takes in a token that starts at `offset`. -/
def takeToken (stack : List Frame) (offset : Nat) : Token → Except DecodeError Progress
  | .leaf value => close stack ⟨offset, value⟩
  | .head container items =>
    if maxDepth ≤ stack.length then .error (.tooDeep maxDepth offset)
    else
      let frame := Frame.start container offset items
      if frame.isFull then
        match frame.finish [] with
        | .ok value => close stack ⟨offset, value⟩
        | .error e => .error e
      else .ok (.inside (frame :: stack))

/-- Takes in the differences of the delta vector that waits for them. -/
def takeDeltas (deltas : List Int64) : List Frame → Except DecodeError Progress
  | [] => .ok (.inside [])
  | frame :: rest =>
    match frame.finish deltas with
    | .ok value => close rest ⟨frame.offset, value⟩
    | .error e => .error e

/-- Whether the differences of a delta vector come next. -/
def wantsDeltas : List Frame → Bool
  | [] => false
  | frame :: _ => frame.awaitsDeltas

/-- Takes in what was read, which may turn out to be malformed. -/
def settle {α : Type} (take : α → Except DecodeError Progress) : Reading α → Reading Progress
  | .done a rest =>
    match take a with
    | .ok progress => .done progress rest
    | .error e => .fail e
  | .more missing => .more missing
  | .fail e => .fail e

/-- Reads what comes next and takes it in. -/
def readStep (stack : List Frame) : Reader Progress := fun place =>
  if wantsDeltas stack then settle (takeDeltas · stack) (readDeltas place)
  else settle (takeToken stack place.offset) (Token.read place)

theorem of_settle_done {α : Type} {take : α → Except DecodeError Progress} {r : Reading α}
    {progress : Progress} {rest : Place} (h : settle take r = .done progress rest) :
    ∃ a, r = .done a rest ∧ take a = .ok progress := by
  cases r with
  | more missing => cases h
  | fail e => cases h
  | done a middle =>
    simp only [settle] at h
    split at h
    · cases h
      exact ⟨a, rfl, ‹_›⟩
    · cases h

/-- Every step uses up some bytes. -/
theorem uses_readStep (stack : List Frame) : (readStep stack).Uses 1 := by
  intro place progress rest read
  unfold readStep at read
  split at read
  · obtain ⟨deltas, h, -⟩ := of_settle_done read
    exact uses_readDeltas place deltas rest h
  · obtain ⟨token, h, -⟩ := of_settle_done read
    exact Token.uses_read place token rest h

end Telemetry.Bysant
