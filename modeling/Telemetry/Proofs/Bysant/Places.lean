import Telemetry.Proofs.Bysant.Complaints
import Telemetry.Proofs.Bysant.Grammar
import Telemetry.Proofs.Bysant.Scalars
/-!
# What stands where

The format says what begins at a place of the input: a value, the length or count behind a tag, the
width of packed differences, the characters of a text. An error points to such a place, inside the
value that is malformed, and what begins there is what the error is about.
-/

namespace Telemetry.Bysant

/-! ## Places of some bytes -/

/-- The place of the bytes `b` in front of which `o` of them stand. -/
def placeAt (b : Bytes) (o : Nat) : Place := ⟨o, b.drop o⟩

variable {b : Bytes} {o : Nat} {e : DecodeError}

/-- A reader that starts inside some bytes stops inside them. -/
theorem Reader.Uses.placeAt {α : Type} {least : Nat} {r : Reader α} (uses : r.Uses least) {a : α}
    {rest : Place} (read : r (placeAt b o) = .done a rest) (inside : o ≤ b.length) :
    rest = Bysant.placeAt b rest.offset ∧ o + least ≤ rest.offset ∧ rest.offset ≤ b.length := by
  obtain ⟨used, bytes, offset, long⟩ := uses (Bysant.placeAt b o) a rest read
  have bytes : b.drop o = used ++ rest.bytes := bytes
  have offset : rest.offset = o + used.length := offset
  have length := congrArg List.length bytes
  rw [List.length_drop, List.length_append] at length
  refine ⟨?_, by omega, by omega⟩
  have behind : b.drop rest.offset = rest.bytes := by
    rw [offset, ← List.drop_drop, bytes, List.drop_left]
  rw [Bysant.placeAt, behind]

theorem lt_length_of_getElem? {tag : UInt8} (here : b[o]? = some tag) : o < b.length :=
  (List.getElem?_eq_some_iff.mp here).1

/-! ## What begins at a place -/

/-- What can begin at a place. -/
inductive Part where
  /-- A value, with room for so many containers inside each other. -/
  | value (room : Nat)
  /-- A length or count. -/
  | size
  /-- The number of bytes of a packed difference. -/
  | width
  /-- The characters of a text, of so many bytes. -/
  | characters (length : Nat)

/-- The length or count that belongs to a value, unless its tag fixes it. -/
def Form.size? : Form → Option Size
  | text size => some size
  | bytes size => some size
  | list size => some size
  | map size => some size
  | _ => none

/-- What begins at a place of the bytes `b` and belongs to the value at `start`, which stands outside
all containers. -/
inductive Stands (b : Bytes) (start : Nat) : Part → Nat → Prop
  /-- The value outside all containers. -/
  | outermost : Stands b start (.value maxDepth) start
  /-- The next item of a container, behind its head and the items before. -/
  | item {room o before : Nat} {container : Container} {count : Nat} {items : List Item}
    {behind rest : Place} : Stands b start (.value (room + 1)) o →
    Token.read (placeAt b o) = .done (.head container count) behind → before < count →
    (Bysant.item room).times before behind = .done items rest →
      Stands b start (.value room) rest.offset
  /-- The length or count behind a tag. -/
  | size {room o : Nat} {tag : UInt8} {form : Form} : Stands b start (.value room) o →
    b[o]? = some tag → Form.ofTag? tag = some form → form.size? = some .ahead →
      Stands b start .size (o + 1)
  /-- The characters of a text, behind its tag and its length. -/
  | characters {room o : Nat} {tag : UInt8} {size : Size} {length : Nat} {behind : Place} :
    Stands b start (.value room) o → b[o]? = some tag → Form.ofTag? tag = some (.text size) →
    size.read (placeAt b (o + 1)) = .done length behind →
      Stands b start (.characters length) behind.offset
  /-- The width of the differences of a delta vector, behind its numbers. -/
  | width {room o count : Nat} {items : List Item} {behind rest : Place} :
    Stands b start (.value (room + 1)) o →
    Token.read (placeAt b o) = .done (.head .delta count) behind →
    (Bysant.item room).times count behind = .done items rest → Stands b start .width rest.offset
  /-- The number of the differences of a delta vector. -/
  | count {o : Nat} {width : UInt8} : Stands b start .width o → b[o]? = some width →
    IsWidth width.toNat → Stands b start .size (o + 1)

variable {start : Nat}

/-- A value begins at the offset of the item, and is read as the item. -/
def IsItem (b : Bytes) (start : Nat) (item : Item) : Prop :=
  ∃ room rest, Stands b start (.value room) item.offset ∧
    Bysant.item room (placeAt b item.offset) = .done item rest

/-- A container with its tag at `o` has these items. -/
def Encloses (b : Bytes) (start : Nat) (container : Container) (o : Nat) (items : List Item) : Prop :=
  ∃ room count behind rest, Stands b start (.value (room + 1)) o ∧
    Token.read (placeAt b o) = .done (.head container count) behind ∧
    (Bysant.item room).times count behind = .done items rest

/-- In the bytes `b`, something of the value at `start` is malformed: at the offset of the error
begins what the error is about. -/
inductive Blames (b : Bytes) (start : Nat) : DecodeError → Prop
  /-- A value begins with a byte that is no tag. -/
  | invalidTag {room o : Nat} {tag : UInt8} : Stands b start (.value room) o → b[o]? = some tag →
    Form.ofTag? tag = none → Blames b start (.invalidTag tag o)
  /-- A container begins where there is no room for one. -/
  | tooDeep {o count : Nat} {container : Container} {behind : Place} :
    Stands b start (.value 0) o → Token.read (placeAt b o) = .done (.head container count) behind →
      Blames b start (.tooDeep maxDepth o)
  /-- A length or count has more than 64 bits. -/
  | varintOverflow {o : Nat} : Stands b start .size o → Varint.read (b.drop o) = .overflow →
      Blames b start (.varintOverflow o)
  /-- A length or count is above the limit. -/
  | lengthOverflow {o used : Nat} {size : UInt64} : Stands b start .size o →
    Varint.read (b.drop o) = .complete size used → maxLength < size.toNat →
      Blames b start (.lengthOverflow size.toNat maxLength o)
  /-- The characters of a text are not UTF-8. -/
  | invalidUtf8 {o length : Nat} : Stands b start (.characters length) o → o + length ≤ b.length →
    Bytes.toString? ((b.drop o).take length) = none → Blames b start (.invalidUtf8 o)
  /-- The differences of a delta vector have another width than is accepted. -/
  | width {o : Nat} {width : UInt8} : Stands b start .width o → b[o]? = some width →
    ¬ IsWidth width.toNat →
      Blames b start (.wrongType "delta width 1, 2, 4 or 8" (toString width.toNat) o)
  /-- A delta vector has too many samples. The number of its differences is blamed. -/
  | tooManyDeltas {o used : Nat} {width : UInt8} {count : UInt64} : Stands b start .width o →
    b[o]? = some width → IsWidth width.toNat → Varint.read (b.drop (o + 1)) = .complete count used →
    maxVectorSamples ≤ count.toNat → Blames b start (.vectorTooLarge maxVectorSamples (o + 1))
  /-- The differences of a delta vector take up too many bytes. Their number is blamed. -/
  | deltasTooLong {o used : Nat} {width : UInt8} {count : UInt64} : Stands b start .width o →
    b[o]? = some width → IsWidth width.toNat → Varint.read (b.drop (o + 1)) = .complete count used →
    maxLength < count.toNat * width.toNat →
      Blames b start (.lengthOverflow (count.toNat * width.toNat) maxLength (o + 1))
  /-- A container complains about its items. -/
  | complaint {o : Nat} {container : Container} {items : List Item} {e : DecodeError} :
    Encloses b start container o items → (∀ item ∈ items, IsItem b start item) →
    Complains container o items e → Blames b start e
  /-- The value itself is neither an envelope nor a message. -/
  | parasite {item : Item} {rest : Place} :
    Bysant.item maxDepth (placeAt b start) = .done item rest →
    (∀ envelope, item.value ≠ .envelope envelope) → (∀ message, item.value ≠ .message message) →
      Blames b start (.parasiteData item.value.kind start)

/-! ## Errors point inside the value -/

/-- Behind the head of a container and some of its items stands another place of the bytes. -/
theorem placeAt_of_times {room k : Nat} {token : Token} {items : List Item} {behind rest : Place}
    (inside : o ≤ b.length) (head : Token.read (placeAt b o) = .done token behind)
    (reads : (Bysant.item room).times k behind = .done items rest) :
    rest = placeAt b rest.offset ∧ o ≤ rest.offset ∧ rest.offset ≤ b.length := by
  obtain ⟨same, after, inside⟩ := Token.uses_read.placeAt head inside
  have uses : ((Bysant.item room).times k).Uses 0 :=
    ((uses_item room).weaken (Nat.zero_le 1)).times k
  rw [same] at reads
  obtain ⟨same, after', inside⟩ := uses.placeAt reads inside
  exact ⟨same, by omega, inside⟩

/-- Nothing that belongs to a value stands in front of it, or behind the last byte. -/
theorem Stands.bounds {part : Part} (h : Stands b start part o) (inside : start ≤ b.length) :
    start ≤ o ∧ o ≤ b.length := by
  induction h with
  | outermost => exact ⟨Nat.le_refl _, inside⟩
  | item _ head _ items ih =>
    have := placeAt_of_times ih.2 head items
    omega
  | size _ here => have := lt_length_of_getElem? here; omega
  | characters _ here _ length ih =>
    have := lt_length_of_getElem? here
    have := (Size.uses_read _).placeAt length (by omega)
    omega
  | width _ head items ih =>
    have := placeAt_of_times ih.2 head items
    omega
  | count _ here => have := lt_length_of_getElem? here; omega

theorem lt_length_of_varint {digits : Varint.Reading} (read : Varint.read (b.drop o) = digits)
    (some : digits ≠ .incomplete) : o < b.length := by
  by_contra behind
  rw [List.drop_of_length_le (Nat.le_of_not_lt behind)] at read
  exact some read.symm

/-- An error carries the offset of a byte of the value that it is about. -/
theorem Blames.bounds (h : Blames b start e) (inside : start ≤ b.length) :
    ∃ o, e.offset? = some o ∧ start ≤ o ∧ o < b.length := by
  cases h with
  | invalidTag stands here => exact ⟨_, rfl, (stands.bounds inside).1, lt_length_of_getElem? here⟩
  | tooDeep stands head =>
    have := Token.uses_read.placeAt head (stands.bounds inside).2
    exact ⟨_, rfl, (stands.bounds inside).1, by omega⟩
  | varintOverflow stands digits =>
    exact ⟨_, rfl, (stands.bounds inside).1, lt_length_of_varint digits nofun⟩
  | lengthOverflow stands digits =>
    exact ⟨_, rfl, (stands.bounds inside).1, lt_length_of_varint digits nofun⟩
  | @invalidUtf8 o length stands whole other =>
    have bounds := stands.bounds inside
    refine ⟨_, rfl, bounds.1, ?_⟩
    -- no characters are UTF-8
    by_contra behind
    rw [List.drop_of_length_le (Nat.le_of_not_lt behind), List.take_nil] at other
    cases other
  | width stands here => exact ⟨_, rfl, (stands.bounds inside).1, lt_length_of_getElem? here⟩
  | tooManyDeltas stands _ _ digits =>
    have := (stands.bounds inside).1
    exact ⟨_, rfl, by omega, lt_length_of_varint digits nofun⟩
  | deltasTooLong stands _ _ digits =>
    have := (stands.bounds inside).1
    exact ⟨_, rfl, by omega, lt_length_of_varint digits nofun⟩
  | complaint container items complains =>
    rcases complains.offset with here | ⟨item, member, here⟩
    · obtain ⟨_, _, _, _, stands, head, _⟩ := container
      have bounds := stands.bounds inside
      have := Token.uses_read.placeAt head bounds.2
      exact ⟨_, here, bounds.1, by omega⟩
    · obtain ⟨room, _, stands, read⟩ := items item member
      have bounds := stands.bounds inside
      have := (uses_item room).placeAt read bounds.2
      exact ⟨_, here, bounds.1, by omega⟩
  | parasite read =>
    have := (uses_item maxDepth).placeAt read inside
    exact ⟨_, rfl, Nat.le_refl _, by omega⟩

end Telemetry.Bysant
