import Telemetry.Bysant.Frame
import Telemetry.Proofs.Bysant.Scalars
/-!
# Which values can be written

A value survives the journey through its encoding when it keeps to the limits of the format: its
containers lie not too deep inside each other, its parts are not too long, and the keys of its
headers are those that their names stand for. This module says so of whole values, and of the
values that the encoding of a container is made of.
-/

namespace Telemetry.Bysant

/-! ## Nesting -/

mutual

/-- How deep containers lie inside each other in the encoding of a value. Headers, footers and
bodies are maps inside their container, and the shifts of a quasi-periodic vector are a list. -/
def Value.depth : Value → Nat
  | .list items => depthAll items + 1
  | .map pairs => depthPairs pairs + 1
  | .delta _ => 1
  | .quasi _ => 2
  | .envelope ⟨⟨entries⟩, _, footer⟩ => max (depthEntries entries + 1) (depthPairs footer + 1) + 1
  | .message ⟨_, _, body⟩ => depthBody body + 1 + 1
  | .response _ => 1
  | _ => 0
termination_by structural value => value

def depthAll : List Value → Nat
  | [] => 0
  | value :: rest => max value.depth (depthAll rest)
termination_by structural values => values

def depthPairs : List (Value × Value) → Nat
  | [] => 0
  | (key, value) :: rest => max (max key.depth value.depth) (depthPairs rest)
termination_by structural pairs => pairs

def depthEntries : List (HeaderKey × Value) → Nat
  | [] => 0
  | (_, value) :: rest => max value.depth (depthEntries rest)
termination_by structural entries => entries

def depthBody : List (String × Value) → Nat
  | [] => 0
  | (_, value) :: rest => max value.depth (depthBody rest)
termination_by structural body => body

end

/-! ## Conditions on every part of a value -/

mutual

/-- Whether a condition holds of a value and of every value inside it. -/
def Value.everywhere (p : Value → Bool) : Value → Bool
  | .list items => p (.list items) && everywhereAll p items
  | .map pairs => p (.map pairs) && everywherePairs p pairs
  | .envelope ⟨⟨entries⟩, payload, footer⟩ =>
    p (.envelope ⟨⟨entries⟩, payload, footer⟩) && everywhereEntries p entries &&
      everywherePairs p footer
  | .message ⟨path, ticket, body⟩ => p (.message ⟨path, ticket, body⟩) && everywhereBody p body
  | value => p value
termination_by structural value => value

def everywhereAll (p : Value → Bool) : List Value → Bool
  | [] => true
  | value :: rest => value.everywhere p && everywhereAll p rest
termination_by structural values => values

def everywherePairs (p : Value → Bool) : List (Value × Value) → Bool
  | [] => true
  | (key, value) :: rest => key.everywhere p && value.everywhere p && everywherePairs p rest
termination_by structural pairs => pairs

def everywhereEntries (p : Value → Bool) : List (HeaderKey × Value) → Bool
  | [] => true
  | (_, value) :: rest => value.everywhere p && everywhereEntries p rest
termination_by structural entries => entries

def everywhereBody (p : Value → Bool) : List (String × Value) → Bool
  | [] => true
  | (_, value) :: rest => value.everywhere p && everywhereBody p rest
termination_by structural body => body

end

def fitsText (s : String) : Bool := (Bytes.ofString s).length ≤ maxLength

namespace Value

/-- Whether no text, byte string, list, map or delta vector is too long in this value itself. -/
def isShort : Value → Bool
  | .bytes b => b.length ≤ maxLength
  | .text s => fitsText s
  | .list items => items.length ≤ maxLength
  | .map pairs => pairs.length ≤ maxLength
  | .delta v => v.deltas.length < maxVectorSamples ∧ v.deltas.length * v.width ≤ maxLength
  | .envelope e =>
    e.header.entries.length ≤ maxLength ∧ (∀ entry ∈ e.header.entries, fitsText entry.1.name) ∧
      e.payload.length ≤ maxLength ∧ e.footer.length ≤ maxLength
  | .message m =>
    fitsText m.path ∧ m.body.length ≤ maxLength ∧ ∀ entry ∈ m.body, fitsText entry.1
  | .response r => fitsText r.message
  | _ => true

/-- Whether the header keys of this value itself are those that their names stand for. -/
def isCanonical : Value → Bool
  | .envelope e => ∀ key ∈ e.header.keys, HeaderKey.ofName key.name = key
  | _ => true

/-- Whether the header and the body of this value itself are tables: the keys of a header are
distinct, and those of a body increase. -/
def isTabular : Value → Bool
  | .envelope e => e.header.keys.Nodup
  | .message m => (Table.keys m.body).Pairwise (· < ·)
  | _ => true

/-- The headers and bodies in a value are tables, as they are in all values that are built by
inserting entries. -/
def WellFormed (v : Value) : Prop := v.everywhere isTabular

instance (v : Value) : Decidable v.WellFormed := inferInstanceAs (Decidable (_ = true))

/-- The value keeps to the limits of the format. -/
structure Representable (v : Value) : Prop where
  shallow : v.depth ≤ maxDepth
  short : v.everywhere isShort
  canonical : v.everywhere isCanonical

instance (v : Value) : Decidable v.Representable :=
  decidable_of_iff (v.depth ≤ maxDepth ∧ v.everywhere isShort ∧ v.everywhere isCanonical)
    ⟨fun ⟨shallow, short, canonical⟩ => ⟨shallow, short, canonical⟩,
      fun ⟨shallow, short, canonical⟩ => ⟨shallow, short, canonical⟩⟩

end Value

/-! ## What containers are made of -/

/-- The pairs of the map that a header is sent as. -/
def headerPairs (entries : List (HeaderKey × Value)) : List (Value × Value) :=
  entries.map fun entry => (.text entry.1.name, entry.2)

/-- The pairs of the map that a body is sent as. -/
def bodyPairs (body : Table String Value) : List (Value × Value) :=
  body.map fun entry => (.text entry.1, entry.2)

/-- Keys and values of some pairs, in turn. -/
def flatPairs (pairs : List (Value × Value)) : List Value :=
  pairs.flatMap fun pair => [pair.1, pair.2]

/-- The value that stands for a ticket, or for none. -/
def ticketValue : Option UInt32 → Value
  | some ticket => .int (Int64.ofNat ticket.toNat)
  | none => .null

@[simp] theorem length_headerPairs (entries : List (HeaderKey × Value)) :
    (headerPairs entries).length = entries.length := List.length_map ..

@[simp] theorem length_bodyPairs (body : Table String Value) :
    (bodyPairs body).length = body.length := List.length_map ..

namespace Value

/-- The container that a value is sent as. -/
def container? : Value → Option Container
  | .list _ => some .list
  | .map _ => some .map
  | .delta _ => some .delta
  | .quasi _ => some .quasi
  | .envelope _ => some .envelope
  | .message _ => some .message
  | .response _ => some .response
  | _ => none

/-- The values that the encoding of a container is made of, in order. -/
def items : Value → List Value
  | .list items => items
  | .map pairs => flatPairs pairs
  | .delta v => [ofNumber v.factor, ofNumber v.start]
  | .quasi v => [ofNumber v.period, ofNumber v.start, .list (v.shifts.map .int)]
  | .envelope e => [.map (headerPairs e.header.entries), .bytes e.payload, .map e.footer]
  | .message m => [.text m.path, ticketValue m.ticket, .map (bodyPairs m.body)]
  | .response r => [.int (Int64.ofNat r.ticket.toNat), .int r.status, .text r.message]
  | _ => []

/-- The packed differences that follow the items of a delta vector. -/
def trailer : Value → Bytes
  | .delta v => UInt8.ofNat v.width :: (Varint.encode (UInt64.ofNat v.deltas.length) ++
      v.deltas.flatMap fun delta => Bytes.ofInt v.width delta.toInt)
  | _ => []

end Value

open Value

theorem length_flatPairs (pairs : List (Value × Value)) :
    (flatPairs pairs).length = 2 * pairs.length := by
  induction pairs with
  | nil => rfl
  | cons pair rest ih =>
    rw [flatPairs, List.flatMap_cons, List.length_append]
    change 2 + (flatPairs rest).length = _
    rw [ih, List.length_cons]
    omega

theorem encodePairs_eq (pairs : List (Value × Value)) :
    encodePairs pairs = encodeAll (flatPairs pairs) := by
  induction pairs with
  | nil => rfl
  | cons pair rest ih =>
    simp [encodePairs, flatPairs, encodeAll, ih, List.append_assoc]

theorem encodeEntries_eq (entries : List (HeaderKey × Value)) :
    encodeEntries entries = encodePairs (headerPairs entries) := by
  induction entries with
  | nil => rfl
  | cons entry rest ih => simp [encodeEntries, headerPairs, encodePairs, encode, ih]

theorem encodeBody_eq (body : Table String Value) :
    encodeBody body = encodePairs (bodyPairs body) := by
  induction body with
  | nil => rfl
  | cons entry rest ih => simp [encodeBody, bodyPairs, encodePairs, encode, ih]

theorem encode_ofNumber (n : Number) : encode (ofNumber n) = encodeNumber n := by
  cases n <;> rfl

theorem encodeAll_ints (values : List Int64) :
    encodeAll (values.map .int) = values.flatMap encodeInt := by
  induction values with
  | nil => rfl
  | cons value rest ih => simp [encodeAll, encode, ih]

theorem encode_ticketValue (ticket : Option UInt32) :
    encode (ticketValue ticket) = encodeTicket ticket := by
  cases ticket <;> rfl

/-- Every shift stands for a sample, so that there are not too many of them. -/
theorem length_shifts_add {shifts : List Int64} {total : Nat}
    (ok : (countSamples total shifts).isOk = true) (few : total ≤ maxVectorSamples) :
    shifts.length + 2 * total ≤ 2 * maxVectorSamples + 1 := by
  fun_induction countSamples total shifts with
  | case1 total => simp; omega
  | case2 total count negative => cases ok
  | case3 total count negative total' fits => simp; omega
  | case4 total count negative total' large => cases ok
  | case5 total count _ rest negative => cases ok
  | case6 total count _ rest negative total' fits ih =>
    have := ih ok fits
    simp only [List.length_cons]
    omega
  | case7 total count _ rest negative total' large => cases ok

theorem length_shifts (v : QuasiPeriodicVector) : v.shifts.length ≤ maxLength := by
  have := length_shifts_add v.size_ok (by decide)
  have : 2 * maxVectorSamples ≤ maxLength := by decide
  omega

/-- A container is written as its head, its items and what may follow them. -/
theorem encode_container {v : Value} {container : Container} (is : v.container? = some container)
    (short : v.isShort) : ∃ front : Bytes, Token.read.Takes front (.head container v.items.length) ∧
      encode v = front ++ (encodeAll v.items ++ v.trailer) := by
  have fixed {tag : UInt8} {n : Nat} (reads : ∀ start, Token.afterTag tag start =
      Reader.pure (.head container n)) : Token.read.Takes [tag] (.head container n) :=
    Token.takes_read fun start => reads start ▸ Reader.takes_pure _
  cases v <;> cases is
  case list items =>
    refine ⟨encodeListCount items.length, Token.takes_encodeListCount (by simpa [isShort] using short), ?_⟩
    simp [encode, Value.items, trailer]
  case map pairs =>
    refine ⟨encodeMapCount pairs.length, ?_, ?_⟩
    · rw [Value.items, length_flatPairs]
      exact Token.takes_encodeMapCount (by simpa [isShort] using short)
    · simp [encode, Value.items, trailer, encodePairs_eq]
  case delta v =>
    refine ⟨[0x6D], fixed fun _ => rfl, ?_⟩
    simp [encode, encodeDelta, Value.items, trailer, encodeAll, encode_ofNumber]
  case quasi v =>
    refine ⟨[0x6E], fixed fun _ => rfl, ?_⟩
    simp [encode, encodeQuasi, Value.items, trailer, encodeAll, encode_ofNumber, encodeAll_ints]
  case envelope e =>
    obtain ⟨⟨entries⟩, payload, footer⟩ := e
    refine ⟨[0x6F], fixed fun _ => rfl, ?_⟩
    simp [encode, Value.items, trailer, encodeAll, encodeEntries_eq, length_headerPairs]
  case message m =>
    obtain ⟨path, ticket, body⟩ := m
    refine ⟨[0x70], fixed fun _ => rfl, ?_⟩
    simp [encode, Value.items, trailer, encodeAll, encodeBody_eq, encode_ticketValue,
      length_bodyPairs]
  case response r =>
    refine ⟨[0x71], fixed fun _ => rfl, ?_⟩
    simp [encode, encodeResponse, Value.items, trailer, encodeAll]

/-- A value that is no container is written as one token. -/
theorem takes_encode_leaf {v : Value} (leaf : v.container? = none) (short : v.isShort) :
    Token.read.Takes (encode v) (.leaf v) := by
  cases v <;> cases leaf
  case null => exact Token.takes_read fun _ => Reader.takes_pure _
  case bool b => cases b <;> exact Token.takes_read fun _ => Reader.takes_pure _
  case int i => exact Token.takes_encodeInt i
  case float x => exact Token.takes_encodeFloat x
  case bytes b => exact Token.takes_encodeBytes (by simpa [isShort] using short)
  case text s => exact Token.takes_encodeText (by simpa [isShort, fitsText] using short)

/-! ## Conditions on a container and on its items -/

variable {p : Value → Bool} {n : Nat}

theorem everywhereAll_iff {values : List Value} :
    everywhereAll p values = true ↔ ∀ v ∈ values, v.everywhere p = true := by
  induction values with
  | nil => simp [everywhereAll]
  | cons v rest ih => simp [everywhereAll, ih]

theorem everywherePairs_eq (pairs : List (Value × Value)) :
    everywherePairs p pairs = everywhereAll p (flatPairs pairs) := by
  induction pairs with
  | nil => rfl
  | cons pair rest ih =>
    change _ = everywhereAll p (pair.1 :: pair.2 :: flatPairs rest)
    simp only [everywherePairs, everywhereAll, ih, Bool.and_assoc]

theorem everywhereEntries_eq (entries : List (HeaderKey × Value)) :
    ((entries.all fun entry => p (.text entry.1.name)) && everywhereEntries p entries) =
      everywherePairs p (headerPairs entries) := by
  induction entries with
  | nil => rfl
  | cons entry rest ih =>
    change _ = (p (.text entry.1.name) && entry.2.everywhere p && everywherePairs p (headerPairs rest))
    rw [← ih, List.all_cons, everywhereEntries]
    grind

theorem everywhereBody_eq (body : Table String Value) :
    ((body.all fun entry => p (.text entry.1)) && everywhereBody p body) =
      everywherePairs p (bodyPairs body) := by
  induction body with
  | nil => rfl
  | cons entry rest ih =>
    change _ = (p (.text entry.1) && entry.2.everywhere p && everywherePairs p (bodyPairs rest))
    rw [← ih, List.all_cons, everywhereBody]
    grind

theorem depthAll_le_iff {values : List Value} :
    depthAll values ≤ n ↔ ∀ v ∈ values, v.depth ≤ n := by
  induction values with
  | nil => simp [depthAll]
  | cons v rest ih => simp [depthAll, ih]

theorem depthPairs_eq (pairs : List (Value × Value)) :
    depthPairs pairs = depthAll (flatPairs pairs) := by
  induction pairs with
  | nil => rfl
  | cons pair rest ih =>
    change _ = depthAll (pair.1 :: pair.2 :: flatPairs rest)
    simp only [depthPairs, depthAll, ih, Nat.max_assoc]

theorem depthEntries_eq (entries : List (HeaderKey × Value)) :
    depthEntries entries = depthPairs (headerPairs entries) := by
  induction entries with
  | nil => rfl
  | cons entry rest ih => simp [depthEntries, headerPairs, depthPairs, depth, ih]

theorem depthBody_eq (body : Table String Value) :
    depthBody body = depthPairs (bodyPairs body) := by
  induction body with
  | nil => rfl
  | cons entry rest ih => simp [depthBody, bodyPairs, depthPairs, depth, ih]

/-- A container lies one level around its items. -/
theorem depth_container {v : Value} (is : v.container?.isSome = true) :
    v.depth = depthAll v.items + 1 := by
  have number (n : Number) : (ofNumber n).depth = 0 := by cases n <;> rfl
  have ticket (t : Option UInt32) : (ticketValue t).depth = 0 := by cases t <;> rfl
  have ints (values : List Int64) : depthAll (values.map .int) = 0 := by
    induction values with
    | nil => rfl
    | cons value rest ih => simp [depthAll, depth, ih]
  cases v <;> cases is
  case list items => rfl
  case map pairs => rw [depth, depthPairs_eq]; rfl
  case delta v => simp [depth, Value.items, depthAll, number]
  case quasi v => simp [depth, Value.items, depthAll, number, ints]
  case envelope e =>
    obtain ⟨⟨entries⟩, payload, footer⟩ := e
    simp [depth, Value.items, depthAll, depthEntries_eq]
  case message m =>
    obtain ⟨path, t, body⟩ := m
    simp [depth, Value.items, depthAll, depthBody_eq, ticket]
  case response r => simp [depth, Value.items, depthAll]

mutual

/-- Two conditions hold everywhere when both of them do. -/
theorem everywhere_and (p q : Value → Bool) : (v : Value) →
    v.everywhere (fun v => p v && q v) = (v.everywhere p && v.everywhere q)
  | .list items => by
    simp only [everywhere, everywhereAll_and p q items]
    ac_rfl
  | .map pairs => by
    simp only [everywhere, everywherePairs_and p q pairs]
    ac_rfl
  | .envelope ⟨⟨entries⟩, payload, footer⟩ => by
    simp only [everywhere, everywhereEntries_and p q entries, everywherePairs_and p q footer]
    ac_rfl
  | .message ⟨path, ticket, body⟩ => by
    simp only [everywhere, everywhereBody_and p q body]
    ac_rfl
  | .null | .bool _ | .int _ | .float _ | .bytes _ | .text _ | .delta _ | .quasi _ | .response _ =>
    rfl
termination_by structural v => v

theorem everywhereAll_and (p q : Value → Bool) : (values : List Value) →
    everywhereAll (fun v => p v && q v) values = (everywhereAll p values && everywhereAll q values)
  | [] => rfl
  | v :: rest => by
    simp only [everywhereAll, everywhere_and p q v, everywhereAll_and p q rest]
    ac_rfl
termination_by structural values => values

theorem everywherePairs_and (p q : Value → Bool) : (pairs : List (Value × Value)) →
    everywherePairs (fun v => p v && q v) pairs = (everywherePairs p pairs && everywherePairs q pairs)
  | [] => rfl
  | (key, v) :: rest => by
    simp only [everywherePairs, everywhere_and p q key, everywhere_and p q v,
      everywherePairs_and p q rest]
    ac_rfl
termination_by structural pairs => pairs

theorem everywhereEntries_and (p q : Value → Bool) : (entries : List (HeaderKey × Value)) →
    everywhereEntries (fun v => p v && q v) entries =
      (everywhereEntries p entries && everywhereEntries q entries)
  | [] => rfl
  | (_, v) :: rest => by
    simp only [everywhereEntries, everywhere_and p q v, everywhereEntries_and p q rest]
    ac_rfl
termination_by structural entries => entries

theorem everywhereBody_and (p q : Value → Bool) : (body : List (String × Value)) →
    everywhereBody (fun v => p v && q v) body = (everywhereBody p body && everywhereBody q body)
  | [] => rfl
  | (_, v) :: rest => by
    simp only [everywhereBody, everywhere_and p q v, everywhereBody_and p q rest]
    ac_rfl
termination_by structural body => body

end

/-! ## Sound values -/

/-- All that a value itself must keep to. -/
def Value.isSound (v : Value) : Bool := v.isShort && (v.isCanonical && v.isTabular)

/-- A value that may stand where containers may still nest `room` deep. -/
structure Value.Sound (room : Nat) (v : Value) : Prop where
  shallow : v.depth ≤ room
  parts : v.everywhere isSound

/-- The values that keep to the limits are those that may stand outside all containers. -/
theorem sound_iff {v : Value} : v.Sound maxDepth ↔ v.Representable ∧ v.WellFormed := by
  have parts : v.everywhere isSound =
      (v.everywhere isShort && (v.everywhere isCanonical && v.everywhere isTabular)) := by
    rw [← everywhere_and isCanonical isTabular v, ← everywhere_and]
    rfl
  constructor
  · rintro ⟨shallow, sound⟩
    simp only [parts, Bool.and_eq_true] at sound
    obtain ⟨short, canonical, tabular⟩ := sound
    exact ⟨⟨shallow, short, canonical⟩, tabular⟩
  · rintro ⟨⟨shallow, short, canonical⟩, tabular⟩
    refine ⟨shallow, ?_⟩
    unfold WellFormed at tabular
    simp only [parts, short, canonical, tabular, Bool.and_self]

/-- A value keeps to the limits everywhere exactly when it and the items of its encoding do. -/
theorem everywhere_isSound {v : Value} :
    v.everywhere isSound = true ↔ v.isSound = true ∧ ∀ item ∈ v.items, item.everywhere isSound := by
  have number (n : Number) : (ofNumber n).everywhere isSound = true := by cases n <;> rfl
  have ticket (t : Option UInt32) : (ticketValue t).everywhere isSound = true := by cases t <;> rfl
  have ints (values : List Int64) : everywhereAll isSound (values.map .int) = true := by
    rw [everywhereAll_iff]
    intro v member
    obtain ⟨value, -, rfl⟩ := List.mem_map.mp member
    rfl
  cases v
  case list items => simp [everywhere, Value.items, everywhereAll_iff]
  case map pairs => simp [everywhere, Value.items, everywherePairs_eq, everywhereAll_iff]
  case delta v => simp [everywhere, Value.items, number]
  case quasi v =>
    have := length_shifts v
    simp [everywhere, Value.items, number, ints, isSound, isShort, isCanonical, isTabular, this]
  case envelope e =>
    obtain ⟨⟨entries⟩, payload, footer⟩ := e
    have keys := everywhereEntries_eq (p := isSound) entries
    simp only [everywhere, Value.items, List.forall_mem_cons, ← keys]
    simp only [isSound, isShort, isCanonical, isTabular, Bool.and_eq_true, decide_eq_true_eq,
      List.all_eq_true, length_headerPairs]
    grind
  case message m =>
    obtain ⟨path, t, body⟩ := m
    have keys := everywhereBody_eq (p := isSound) body
    simp only [everywhere, Value.items, List.forall_mem_cons, ← keys]
    simp only [isSound, isShort, isCanonical, isTabular, Bool.and_eq_true, decide_eq_true_eq,
      List.all_eq_true, length_bodyPairs, ticket]
    grind
  case response r => simp [everywhere, Value.items, isSound, isShort, isCanonical, isTabular]
  all_goals simp [everywhere, Value.items]

namespace Value.Sound

variable {v : Value} {room : Nat}

theorem isSound (h : v.Sound room) : v.isSound = true := (everywhere_isSound.mp h.parts).1

theorem isShort (h : v.Sound room) : v.isShort = true := by
  have self := h.isSound
  simp only [Value.isSound, Bool.and_eq_true] at self
  exact self.1

/-- One level further in, there is room for one level less. -/
theorem container_iff (is : v.container?.isSome = true) :
    v.Sound (room + 1) ↔ v.isSound = true ∧ ∀ item ∈ v.items, item.Sound room := by
  have depth : v.depth ≤ room + 1 ↔ ∀ item ∈ v.items, item.depth ≤ room := by
    rw [depth_container is, ← depthAll_le_iff]
    omega
  constructor
  · rintro ⟨shallow, parts⟩
    obtain ⟨self, inner⟩ := everywhere_isSound.mp parts
    exact ⟨self, fun item member => ⟨depth.mp shallow item member, inner item member⟩⟩
  · rintro ⟨self, inner⟩
    exact ⟨depth.mpr fun item member => (inner item member).shallow,
      everywhere_isSound.mpr ⟨self, fun item member => (inner item member).parts⟩⟩

theorem room_pos (h : v.Sound room) (is : v.container?.isSome = true) : 0 < room := by
  have := h.shallow
  rw [depth_container is] at this
  omega

theorem of_leaf (leaf : v.container? = none) (h : v.isSound = true) : v.Sound room := by
  have items : v.items = [] := by
    cases v <;> first | rfl | cases leaf
  refine ⟨?_, everywhere_isSound.mpr ⟨h, by simp [items]⟩⟩
  cases v <;> first | exact Nat.zero_le room | cases leaf

theorem weaken {more : Nat} (h : v.Sound room) (le : room ≤ more) : v.Sound more :=
  ⟨Nat.le_trans h.shallow le, h.parts⟩

end Value.Sound

end Telemetry.Bysant
