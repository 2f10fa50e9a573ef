import Telemetry.Bysant.Decoder
import Telemetry.Proofs.Bysant.Chunks
import Telemetry.Proofs.Bysant.Header
import Telemetry.Proofs.Bysant.Representable
import Telemetry.Proofs.Table
/-!
# What is read keeps to the limits

Whatever bytes the decoder is fed, the values that it gives out keep to the limits of the format.
The invariant says so of the items of the open containers, each with as much room as lies between
its container and the deepest nesting.
-/

namespace Telemetry.Bysant

open Value

/-! ## Readers -/

/-- Whatever the reader takes has a property. -/
def Reader.Gives {α : Type} (P : α → Prop) (r : Reader α) : Prop :=
  ∀ place a rest, r place = .done a rest → P a

namespace Reader

variable {α β : Type} {P : α → Prop} {Q : β → Prop}

theorem gives_pure {a : α} (h : P a) : Gives P (Reader.pure a) := by
  intro place b rest read
  cases read
  exact h

theorem gives_fail (error : DecodeError) : Gives P (fail error) := by
  intro place a rest read
  cases read

theorem gives_ite {p : Prop} [Decidable p] {r r' : Reader α} (h : p → r.Gives P)
    (h' : ¬ p → r'.Gives P) : Gives P (if p then r else r') := by
  split
  · exact h ‹_›
  · exact h' ‹_›

theorem Gives.bind {r : Reader α} {f : α → Reader β} (first : r.Gives P)
    (second : ∀ a, P a → (f a).Gives Q) : (r >>= f).Gives Q := by
  intro place b rest read
  change Reader.bind r f place = .done b rest at read
  unfold Reader.bind at read
  cases h : r place with
  | more missing => simp [h] at read
  | fail error => simp [h] at read
  | done a middle =>
    rw [h] at read
    exact second a (first place a middle h) middle b rest read

theorem gives_true (r : Reader α) : r.Gives fun _ => True := fun _ _ _ _ => trivial

theorem gives_take (n : Nat) : (take n).Gives fun b => b.length = n := by
  intro place b rest read
  simp only [take] at read
  split at read
  · cases read
    assumption
  · cases read

theorem gives_length : length.Gives fun n => n ≤ maxLength := by
  refine (gives_true _).bind fun start _ => (gives_true _).bind fun value _ => ?_
  exact gives_ite (fun le => gives_pure le) fun _ => gives_fail _

theorem gives_text (n : Nat) : (text n).Gives fun s => (Bytes.ofString s).length = n := by
  refine (gives_true _).bind fun start _ => (gives_take n).bind fun body long => ?_
  split
  · rename_i s h
    refine gives_pure ?_
    rw [Bytes.ofString_of_toString? h, long]
  · exact gives_fail _

end Reader

/-! ## Tokens -/

/-- The most items that a container has; a pair of a map is two. -/
def Container.most : Container → Nat
  | .list => maxLength
  | .map => 2 * maxLength
  | _ => 3

/-- A token keeps to the limits. -/
def Token.Sound : Token → Prop
  | .leaf v => v.container? = none ∧ v.isSound = true
  | .head container items => items ≤ container.most

namespace Token

theorem gives_afterTag (tag : UInt8) (start : Nat) : (afterTag tag start).Gives Token.Sound := by
  have plain {token : Token} (sound : token.Sound) : (Reader.pure token).Gives Token.Sound :=
    Reader.gives_pure sound
  have short {n : Nat} (le : n ≤ 0x43) : n ≤ maxLength := Nat.le_trans le (by decide)
  have text {n : Nat} (le : n ≤ maxLength) :
      (Reader.text n >>= fun s => Reader.pure (leaf (.text s))).Gives Token.Sound :=
    (Reader.gives_text n).bind fun s long => plain ⟨rfl, by
      simpa [isSound, isShort, isCanonical, isTabular, fitsText, long] using le⟩
  have bytes {n : Nat} (le : n ≤ maxLength) :
      (Reader.take n >>= fun b => Reader.pure (leaf (.bytes b))).Gives Token.Sound :=
    (Reader.gives_take n).bind fun b long => plain ⟨rfl, by
      simpa [isSound, isShort, isCanonical, isTabular, long] using le⟩
  have any {α : Type} {r : Reader α} {v : α → Value} (sound : ∀ a, (leaf (v a)).Sound) :
      (r >>= fun a => Reader.pure (leaf (v a))).Gives Token.Sound :=
    (Reader.gives_true r).bind fun a _ => plain (sound a)
  unfold afterTag
  repeat' refine Reader.gives_ite (fun _ => ?_) (fun _ => ?_)
  all_goals first
    | exact plain ⟨rfl, rfl⟩
    | exact any fun _ => ⟨rfl, rfl⟩
    | exact text (short (by omega))
    | exact bytes (short (by omega))
    | exact Reader.gives_length.bind fun n le => text le
    | exact Reader.gives_length.bind fun n le => bytes le
    | exact Reader.gives_length.bind fun n le =>
        plain (by simp only [Token.Sound, Container.most]; omega)
    | exact plain (by simp only [Token.Sound, Container.most, maxLength]; omega)
    | exact Reader.gives_fail _

theorem gives_read : read.Gives Token.Sound :=
  (Reader.gives_true _).bind fun start _ => (Reader.gives_true _).bind fun tag _ =>
    gives_afterTag tag start

end Token

/-! ## Packed differences -/

open DeltaVector

/-- What bytes of a width hold is a difference of that width. -/
theorem widthOf_toInt {body : Bytes} (valid : IsWidth body.length) :
    widthOf (Int64.ofInt (Bytes.toInt body)) ≤ body.length := by
  have some : body ≠ [] := by
    rintro rfl
    simp [IsWidth] at valid
  have bounds := Bytes.toInt_bounds some
  have same : (Int64.ofInt (Bytes.toInt body)).toInt = Bytes.toInt body := by
    refine Int64.toInt_ofInt_of_le ?_ ?_ <;> rcases valid with wide | wide | wide | wide <;>
      rw [wide] at bounds <;> omega
  rw [widthOf_le_iff valid, same]
  exact bounds

/-- What is cut out of bytes of a width needs no more than that width. -/
theorem widthOf_unpackInts {width count : Nat} {b : Bytes} (valid : IsWidth width)
    (long : b.length = count * width) :
    (unpackInts width count b).length = count ∧
      ∀ delta ∈ unpackInts width count b, widthOf delta ≤ width := by
  induction count generalizing b with
  | zero => exact ⟨rfl, by simp [unpackInts]⟩
  | succ count ih =>
    have enough : width ≤ b.length := by
      rw [long, Nat.succ_mul]
      exact Nat.le_add_left ..
    have piece : (b.take width).length = width := by
      rw [List.length_take, Nat.min_eq_left enough]
    have others : (b.drop width).length = count * width := by
      rw [List.length_drop, long, Nat.succ_mul, Nat.add_sub_cancel]
    obtain ⟨length, narrow⟩ := ih others
    refine ⟨by simp [unpackInts, length], List.forall_mem_cons.mpr ⟨?_, narrow⟩⟩
    have first := widthOf_toInt (piece.symm ▸ valid)
    rwa [piece] at first

/-- Differences that are not too many, nor too long once they are packed. -/
def FewDeltas (deltas : List Int64) : Prop :=
  ∀ v : DeltaVector, v.deltas = deltas → (Value.delta v).isSound = true

theorem gives_readDeltas : readDeltas.Gives FewDeltas := by
  refine (Reader.gives_true _).bind fun start _ => (Reader.gives_true _).bind fun width _ => ?_
  refine Reader.gives_ite (fun valid => ?_) fun _ => Reader.gives_fail _
  refine (Reader.gives_true _).bind fun countStart _ => (Reader.gives_true _).bind fun count _ => ?_
  refine Reader.gives_ite (fun _ => Reader.gives_fail _) fun few => ?_
  refine Reader.gives_ite (fun _ => Reader.gives_fail _) fun short => ?_
  refine (Reader.gives_take _).bind fun body long => Reader.gives_pure ?_
  rintro v are
  obtain ⟨length, narrow⟩ := widthOf_unpackInts valid long
  rw [← are] at length narrow
  have some : 1 ≤ width.toNat := by omega
  have := Nat.mul_le_mul_left count ((width_le_iff some).mpr narrow)
  have : v.deltas.length < maxVectorSamples ∧ v.deltas.length * v.width ≤ maxLength := by
    rw [length]
    omega
  simpa [isSound, isShort, isCanonical, isTabular] using this

/-! ## Finishing containers -/

section Finish

variable {item : Item} {room : Nat}

theorem Item.of_expect {α : Type} {expected : String} {view : Value → Option α} {a : α}
    (h : item.expect expected view = .ok a) : view item.value = some a := by
  unfold Item.expect at h
  split at h
  · cases h
    assumption
  · cases h

theorem ofNumber_of_number? {v : Value} {n : Number} (h : v.number? = some n) : v = ofNumber n := by
  cases v <;> cases h <;> rfl

theorem Item.sound_number {n : Number} (sound : item.value.Sound room) (h : item.number = .ok n) :
    (ofNumber n).Sound room := ofNumber_of_number? (Item.of_expect h) ▸ sound

theorem fitsText_of_text? {v : Value} {s : String} (sound : v.Sound room) (h : v.text? = some s) :
    fitsText s = true := by
  cases v <;> try cases h
  case text => exact sound.isShort
  case bytes b =>
    have short : b.length ≤ maxLength := by simpa [isShort] using Sound.isShort sound
    simpa [fitsText, Bytes.ofString_of_toString? h] using short

theorem length_of_bytes? {v : Value} {b : Bytes} (sound : v.Sound room) (h : v.bytes? = some b) :
    b.length ≤ maxLength := by
  cases v <;> try cases h
  case text => simpa [isShort, fitsText] using Sound.isShort sound
  case bytes => simpa [isShort] using Sound.isShort sound

theorem Item.value_of_map {pairs : List (Value × Value)} (h : item.map = .ok pairs) :
    item.value = .map pairs := by
  have seen := Item.of_expect h
  split at seen
  · cases seen
    assumption
  · cases seen

theorem Item.sound_map {pairs : List (Value × Value)} (sound : item.value.Sound room)
    (h : item.map = .ok pairs) : (Value.map pairs).Sound room := Item.value_of_map h ▸ sound

theorem map_of_mapM_int? {values : List Value} {ints : List Int64}
    (h : values.mapM Value.int? = some ints) : values = ints.map .int := by
  induction values generalizing ints with
  | nil =>
    cases h
    rfl
  | cons v rest ih =>
    rw [List.mapM_cons] at h
    simp only [Option.bind_eq_bind, Option.bind_eq_some_iff] at h
    obtain ⟨i, is, others, are, same⟩ := h
    cases same
    rw [List.map_cons, ← ih are]
    cases v <;> cases is
    rfl

theorem Item.value_of_ints {ints : List Int64} (h : item.ints = .ok ints) :
    item.value = .list (ints.map .int) := by
  have seen := Item.of_expect h
  split at seen
  · rename_i values is
    rw [is, map_of_mapM_int? seen]
  · cases seen

theorem Item.sound_ints {ints : List Int64} (sound : item.value.Sound room)
    (h : item.ints = .ok ints) : (Value.list (ints.map .int)).Sound room :=
  Item.value_of_ints h ▸ sound

theorem sound_text {s : String} (fits : fitsText s = true) : (Value.text s).Sound room :=
  Sound.of_leaf rfl (by simp [Value.isSound, isShort, isCanonical, isTabular, fits])

theorem sound_bytes {b : Bytes} (short : b.length ≤ maxLength) : (Value.bytes b).Sound room :=
  Sound.of_leaf rfl (by simp [Value.isSound, isShort, isCanonical, isTabular, short])

/-- The parts of a map are sound with one level less, and there are not too many of them. -/
theorem Value.Sound.of_map {pairs : List (Value × Value)} (sound : (Value.map pairs).Sound room) :
    pairs.length ≤ maxLength ∧
      ∀ pair ∈ pairs, pair.1.Sound (room - 1) ∧ pair.2.Sound (room - 1) := by
  obtain ⟨room, rfl⟩ : ∃ less, room = less + 1 :=
    Nat.exists_eq_add_one.mpr (sound.room_pos rfl)
  obtain ⟨self, inner⟩ := (Sound.container_iff rfl).mp sound
  refine ⟨by simpa [Value.isShort] using Sound.isShort sound, fun pair member => ⟨inner _ ?_, inner _ ?_⟩⟩ <;>
    exact List.mem_flatMap.mpr ⟨pair, member, by simp⟩

theorem sound_map {pairs : List (Value × Value)} (positive : 0 < room)
    (few : pairs.length ≤ maxLength)
    (inner : ∀ pair ∈ pairs, pair.1.Sound (room - 1) ∧ pair.2.Sound (room - 1)) :
    (Value.map pairs).Sound room := by
  obtain ⟨room, rfl⟩ := Nat.exists_eq_add_one.mpr positive
  refine (Sound.container_iff rfl).mpr ⟨?_, fun item member => ?_⟩
  · simp [Value.isSound, isShort, isCanonical, isTabular, few]
  · obtain ⟨pair, member, which⟩ := List.mem_flatMap.mp member
    obtain ⟨key, value⟩ := inner pair member
    simp only [List.mem_cons, List.not_mem_nil, or_false] at which
    rcases which with rfl | rfl
    · exact key
    · exact value

/-- The entries of a header that is read are sound, under the keys that their names stand for. -/
structure SoundEntries (room : Nat) (entries : List (HeaderKey × Value)) : Prop where
  sound : ∀ entry ∈ entries, entry.2.Sound room ∧ fitsText entry.1.name = true ∧
    HeaderKey.ofName entry.1.name = entry.1
  distinct : (entries.map Prod.fst).Nodup

theorem soundEntries_nil : SoundEntries room (Header.entries .empty) := ⟨nofun, List.nodup_nil⟩

theorem headerOfPairs_sound {offset : Nat} {pairs : List (Value × Value)} {start header : Header}
    (inner : ∀ pair ∈ pairs, pair.1.Sound room ∧ pair.2.Sound room)
    (sound : SoundEntries room start.entries) (h : headerOfPairs offset pairs start = .ok header) :
    SoundEntries room header.entries := by
  induction pairs generalizing start with
  | nil =>
    cases h
    exact sound
  | cons pair rest ih =>
    obtain ⟨⟨key, value⟩, others⟩ := List.forall_mem_cons.mp inner
    obtain ⟨k, v⟩ := pair
    simp only [headerOfPairs] at h
    split at h
    · rename_i name named
      refine ih others ⟨fun entry member => ?_, Header.nodup_put sound.distinct⟩ h
      rcases Header.mem_put member with rfl | member
      · refine ⟨value, ?_, ?_⟩ <;> simp only [HeaderKey.name_ofName]
        exact fitsText_of_text? key named
      · exact sound.sound entry member
    · cases h

/-- A header has no more entries than it is made from pairs. -/
theorem length_headerOfPairs {offset : Nat} {pairs : List (Value × Value)} {start header : Header}
    (h : headerOfPairs offset pairs start = .ok header) :
    header.entries.length ≤ start.entries.length + pairs.length := by
  induction pairs generalizing start with
  | nil =>
    cases h
    exact Nat.le_refl _
  | cons pair rest ih =>
    simp only [headerOfPairs] at h
    split at h
    · rename_i name named
      have put : (start.insert (.ofName name) pair.2).entries.length ≤ start.entries.length + 1 :=
        Header.length_put_le
      have := ih h
      rw [List.length_cons]
      omega
    · cases h

/-- The entries of a body that is read are sound. -/
structure SoundBody (room : Nat) (body : Table String Value) : Prop where
  sound : ∀ entry ∈ body, entry.2.Sound room ∧ fitsText entry.1 = true
  ordered : Table.Ordered body

theorem soundBody_nil : SoundBody room [] := ⟨nofun, List.Pairwise.nil⟩

theorem bodyOfPairs_sound {offset : Nat} {pairs : List (Value × Value)}
    {start body : Table String Value}
    (inner : ∀ pair ∈ pairs, pair.1.Sound room ∧ pair.2.Sound room) (sound : SoundBody room start)
    (h : bodyOfPairs offset pairs start = .ok body) : SoundBody room body := by
  induction pairs generalizing start with
  | nil =>
    cases h
    exact sound
  | cons pair rest ih =>
    obtain ⟨⟨key, value⟩, others⟩ := List.forall_mem_cons.mp inner
    obtain ⟨k, v⟩ := pair
    simp only [bodyOfPairs] at h
    split at h
    · rename_i name named
      refine ih others ⟨fun entry member => ?_, sound.ordered.put⟩ h
      rcases Table.mem_put member with rfl | member
      · exact ⟨value, fitsText_of_text? key named⟩
      · exact sound.sound entry member
    · cases h

/-- A body has no more entries than it is made from pairs. -/
theorem length_bodyOfPairs {offset : Nat} {pairs : List (Value × Value)}
    {start body : Table String Value} (h : bodyOfPairs offset pairs start = .ok body) :
    body.length ≤ start.length + pairs.length := by
  induction pairs generalizing start with
  | nil =>
    cases h
    exact Nat.le_refl _
  | cons pair rest ih =>
    simp only [bodyOfPairs] at h
    split at h
    · rename_i name named
      have put : (Table.put name pair.2 start).length ≤ start.length + 1 := Table.length_put_le
      have := ih h
      rw [List.length_cons]
      omega
    · cases h

theorem of_bind_eq_ok {α β : Type} {x : Except DecodeError α} {f : α → Except DecodeError β} {b : β}
    (h : x >>= f = .ok b) : ∃ a, x = .ok a ∧ f a = .ok b := by
  cases x with
  | error e => cases h
  | ok a => exact ⟨a, rfl, h⟩

/-- An envelope is sound when its entries, its payload and its footer are. -/
theorem sound_envelope {entries : List (HeaderKey × Value)} {payload : Bytes}
    {footer : List (Value × Value)} (sound : SoundEntries (room - 1) entries)
    (few : entries.length ≤ maxLength) (short : payload.length ≤ maxLength)
    (footerSound : (Value.map footer).Sound room) :
    (Value.envelope ⟨⟨entries⟩, payload, footer⟩).Sound (room + 1) := by
  refine (Sound.container_iff rfl).mpr ⟨?_, ?_⟩
  · have canonical : ∀ key ∈ Header.keys ⟨entries⟩, HeaderKey.ofName key.name = key := by
      intro key member
      obtain ⟨entry, inside, rfl⟩ := List.mem_map.mp member
      exact (sound.sound entry inside).2.2
    have distinct : (Header.keys ⟨entries⟩).Nodup := sound.distinct
    have last := footerSound.of_map.1
    simp only [Value.isSound, isShort, isCanonical, isTabular, Bool.and_eq_true, decide_eq_true_eq]
    exact ⟨⟨few, fun entry member => (sound.sound entry member).2.1, short, last⟩, canonical,
      distinct⟩
  · simp only [Value.items, List.forall_mem_cons]
    refine ⟨sound_map (footerSound.room_pos rfl) (by simpa using few) ?_,
      sound_bytes short, footerSound, by simp⟩
    intro pair member
    obtain ⟨entry, inside, rfl⟩ := List.mem_map.mp member
    obtain ⟨value, fits, -⟩ := sound.sound entry inside
    exact ⟨sound_text fits, value⟩

theorem envelopeOf_sound {header payload footer : Item} {v : Value}
    (headerSound : header.value.Sound room) (payloadSound : payload.value.Sound room)
    (footerSound : footer.value.Sound room) (h : envelopeOf header payload footer = .ok v) :
    v.Sound (room + 1) := by
  obtain ⟨pairs, isMap, h⟩ := of_bind_eq_ok h
  obtain ⟨⟨entries⟩, read, h⟩ := of_bind_eq_ok h
  obtain ⟨body, isBytes, h⟩ := of_bind_eq_ok h
  obtain ⟨last, isMap', h⟩ := of_bind_eq_ok h
  cases h
  obtain ⟨few, inner⟩ := (Item.sound_map headerSound isMap).of_map
  have count : entries.length ≤ maxLength := by
    have : entries.length ≤ 0 + pairs.length := length_headerOfPairs read
    omega
  exact sound_envelope (headerOfPairs_sound inner soundEntries_nil read) count
    (length_of_bytes? payloadSound (Item.of_expect isBytes)) (Item.sound_map footerSound isMap')

theorem messageOf_sound {path ticket body : Item} {v : Value} (pathSound : path.value.Sound room)
    (bodySound : body.value.Sound room) (h : messageOf path ticket body = .ok v) :
    v.Sound (room + 1) := by
  obtain ⟨name, isText, h⟩ := of_bind_eq_ok h
  obtain ⟨number, -, h⟩ := of_bind_eq_ok h
  obtain ⟨pairs, isMap, h⟩ := of_bind_eq_ok h
  obtain ⟨entries, read, h⟩ := of_bind_eq_ok h
  cases h
  have fits := fitsText_of_text? pathSound (Item.of_expect isText)
  have bodySound := Item.sound_map bodySound isMap
  obtain ⟨few, inner⟩ := bodySound.of_map
  have sound := bodyOfPairs_sound inner soundBody_nil read
  have count : entries.length ≤ maxLength := by
    have : entries.length ≤ 0 + pairs.length := length_bodyOfPairs read
    omega
  refine (Sound.container_iff rfl).mpr ⟨?_, ?_⟩
  · simp only [Value.isSound, isShort, isCanonical, isTabular, Bool.and_eq_true, decide_eq_true_eq]
    exact ⟨⟨fits, count, fun entry member => (sound.sound entry member).2⟩, trivial, sound.ordered⟩
  · simp only [Value.items, List.forall_mem_cons]
    refine ⟨sound_text fits, Sound.of_leaf ?_ ?_,
      sound_map (bodySound.room_pos rfl) (by simpa using count) ?_, by simp⟩
    · cases number <;> rfl
    · cases number <;> rfl
    · intro pair member
      obtain ⟨entry, inside, rfl⟩ := List.mem_map.mp member
      obtain ⟨value, fits⟩ := sound.sound entry inside
      exact ⟨sound_text fits, value⟩

theorem responseOf_sound {ticket status message : Item} {v : Value}
    (messageSound : message.value.Sound room) (h : responseOf ticket status message = .ok v) :
    v.Sound (room + 1) := by
  obtain ⟨number, -, h⟩ := of_bind_eq_ok h
  obtain ⟨code, -, h⟩ := of_bind_eq_ok h
  obtain ⟨text, isText, h⟩ := of_bind_eq_ok h
  cases h
  have fits := fitsText_of_text? messageSound (Item.of_expect isText)
  refine (Sound.container_iff rfl).mpr ⟨?_, ?_⟩
  · simp [Value.isSound, isShort, isCanonical, isTabular, fits]
  · simp only [Value.items, List.forall_mem_cons]
    exact ⟨Sound.of_leaf rfl rfl, Sound.of_leaf rfl rfl, sound_text fits, by simp⟩

theorem deltaOf_sound {factor start : Item} {deltas : List Int64} {v : Value}
    (factorSound : factor.value.Sound room) (startSound : start.value.Sound room)
    (few : FewDeltas deltas) (h : deltaOf factor start deltas = .ok v) : v.Sound (room + 1) := by
  obtain ⟨f, isNumber, h⟩ := of_bind_eq_ok h
  obtain ⟨s, isNumber', h⟩ := of_bind_eq_ok h
  cases h
  refine (Sound.container_iff rfl).mpr ⟨few ⟨f, s, deltas⟩ rfl, ?_⟩
  simp only [Value.items, List.forall_mem_cons]
  exact ⟨Item.sound_number factorSound isNumber, Item.sound_number startSound isNumber', by simp⟩

theorem quasiOf_sound {offset : Nat} {period start shifts : Item} {v : Value}
    (periodSound : period.value.Sound room) (startSound : start.value.Sound room)
    (shiftsSound : shifts.value.Sound room) (h : quasiOf offset period start shifts = .ok v) :
    v.Sound (room + 1) := by
  obtain ⟨p, isNumber, h⟩ := of_bind_eq_ok h
  obtain ⟨s, isNumber', h⟩ := of_bind_eq_ok h
  obtain ⟨ints, are, h⟩ := of_bind_eq_ok h
  split at h
  · rename_i vector made
    cases h
    unfold QuasiPeriodicVector.ofShifts at made
    split at made
    · cases made
      refine (Sound.container_iff rfl).mpr ⟨rfl, ?_⟩
      simp only [Value.items, List.forall_mem_cons]
      exact ⟨Item.sound_number periodSound isNumber, Item.sound_number startSound isNumber',
        Item.sound_ints shiftsSound are, by simp⟩
    · cases made
  · cases h

end Finish

/-- The items of a container under construction are sound, and there is place for those to come.
Delta vectors are not closed by an item, so that nothing is said of how many they have. -/
structure Frame.Sound (room : Nat) (f : Frame) : Prop where
  items : ∀ item ∈ f.items, item.value.Sound room
  few : f.container = .delta ∨ f.items.length + f.missing ≤ f.container.most

namespace Frame.Sound

variable {f : Frame} {room : Nat}

theorem item (h : f.Sound room) (position : Nat) : (f.item position).value.Sound room := by
  unfold Frame.item
  cases there : f.items.reverse[position]? with
  | none => exact Sound.of_leaf rfl rfl
  | some item => exact h.items item (List.mem_reverse.mp (List.mem_of_getElem? there))

theorem push (h : f.Sound room) (incomplete : f.container = .delta ∨ 0 < f.missing) {item : Item}
    (sound : item.value.Sound room) : (f.push item).Sound room := by
  refine ⟨List.forall_mem_cons.mpr ⟨sound, h.items⟩, ?_⟩
  rcases h.few with delta | few
  · exact .inl delta
  · rcases incomplete with delta | incomplete
    · exact .inl delta
    · right
      change f.items.length + 1 + (f.missing - 1) ≤ f.container.most
      omega

end Frame.Sound

theorem mem_flatPairs_pairUp {items : List Item} {v : Value} (member : v ∈ flatPairs (pairUp items)) :
    ∃ item ∈ items, item.value = v := by
  fun_induction pairUp items with
  | case1 key value rest ih =>
    change v ∈ key.value :: value.value :: flatPairs (pairUp rest) at member
    simp only [List.mem_cons] at member
    rcases member with rfl | rfl | member
    · exact ⟨key, by simp, rfl⟩
    · exact ⟨value, by simp, rfl⟩
    · obtain ⟨item, inside, is⟩ := ih member
      exact ⟨item, by simp [inside], is⟩
  | case2 => cases member

theorem length_pairUp (items : List Item) : 2 * (pairUp items).length ≤ items.length := by
  fun_induction pairUp items with
  | case1 key value rest ih =>
    simp only [List.length_cons]
    omega
  | case2 => exact Nat.zero_le _

/-- A finished container is sound where its items are sound one level further in. -/
theorem Frame.Sound.finish {f : Frame} {room : Nat} {deltas : List Int64} {v : Value}
    (h : f.Sound room) (few : f.container = .delta → FewDeltas deltas)
    (finished : f.finish deltas = .ok v) : v.Sound (room + 1) := by
  obtain ⟨container, offset, items, missing⟩ := f
  have item := h.item
  cases container with
  | list =>
    cases finished
    have count : items.length ≤ maxLength := by
      have : items.length + missing ≤ maxLength := h.few.resolve_left (by simp)
      omega
    refine (Sound.container_iff rfl).mpr ⟨?_, fun v member => ?_⟩
    · simp [Value.isSound, isShort, isCanonical, isTabular, count]
    · obtain ⟨item, inside, rfl⟩ := List.mem_map.mp member
      exact h.items item (List.mem_reverse.mp inside)
  | map =>
    cases finished
    have count : (pairUp items.reverse).length ≤ maxLength := by
      have : items.length + missing ≤ 2 * maxLength := h.few.resolve_left (by simp)
      have := length_pairUp items.reverse
      rw [List.length_reverse] at this
      omega
    refine (Sound.container_iff rfl).mpr ⟨?_, fun v member => ?_⟩
    · simp [Value.isSound, isShort, isCanonical, isTabular, count]
    · obtain ⟨item, inside, rfl⟩ := mem_flatPairs_pairUp member
      exact h.items item (List.mem_reverse.mp inside)
  | delta => exact deltaOf_sound (item 0) (item 1) (few rfl) finished
  | quasi => exact quasiOf_sound (item 0) (item 1) (item 2) finished
  | envelope => exact envelopeOf_sound (item 0) (item 1) (item 2) finished
  | message => exact messageOf_sound (item 0) (item 2) finished
  | response => exact responseOf_sound (item 2) finished

/-! ## Open containers -/

/-- Every open container is sound with the room that lies inside it, and waits for something. -/
def SoundStack : List Frame → Prop
  | [] => True
  | f :: rest => rest.length < maxDepth ∧ f.Sound (maxDepth - rest.length - 1) ∧
      (f.container = .delta ∨ 0 < f.missing) ∧ SoundStack rest

/-- What reading a token leads to is sound. -/
def Progress.Sound : Progress → Prop
  | inside stack => SoundStack stack
  | emitted item => item.value.Sound maxDepth

section Stack

variable {stack : List Frame} {item : Item} {progress : Progress}

/-- One step of closing: a container whose last item is in is handed on, any other one waits. -/
theorem sound_of_pushed {f : Frame} (shallow : stack.length < maxDepth)
    (frame : f.Sound (maxDepth - stack.length - 1)) (rest : SoundStack stack)
    (handOn : ∀ v, v.Sound (maxDepth - stack.length) → close stack ⟨f.offset, v⟩ = .ok progress →
      progress.Sound)
    (h : (if f.isFull then
        match f.finish [] with
        | .ok value => close stack ⟨f.offset, value⟩
        | .error e => .error e
      else .ok (.inside (f :: stack))) = Except.ok progress) : progress.Sound := by
  split at h
  · rename_i full
    simp only [Frame.isFull, decide_eq_true_eq] at full
    split at h
    · rename_i v finished
      refine handOn v ?_ h
      have sound := frame.finish (fun delta => absurd delta full.2) finished
      rwa [Nat.sub_add_cancel (by omega)] at sound
    · cases h
  · rename_i incomplete
    cases h
    refine ⟨shallow, frame, ?_, rest⟩
    simp only [Frame.isFull, decide_eq_true_eq] at incomplete
    by_cases delta : f.container = .delta
    · exact .inl delta
    · exact .inr (Nat.pos_of_ne_zero fun none => incomplete ⟨none, delta⟩)

theorem close_sound (sound : SoundStack stack) (itemSound : item.value.Sound (maxDepth - stack.length))
    (h : close stack item = .ok progress) : progress.Sound := by
  -- a container that is handed on lies one level further out, and has one more level of room
  induction stack generalizing item with
  | nil =>
    cases h
    exact itemSound
  | cons f rest ih =>
    obtain ⟨shallow, frame, incomplete, sound⟩ := sound
    have itemSound : item.value.Sound (maxDepth - rest.length - 1) := by
      rwa [List.length_cons, ← Nat.sub_sub] at itemSound
    exact sound_of_pushed shallow (frame.push incomplete itemSound) sound
      (fun v vSound closed => ih sound vSound closed) h

theorem takeToken_sound {token : Token} {offset : Nat} (sound : SoundStack stack)
    (tokenSound : token.Sound) (h : takeToken stack offset token = .ok progress) :
    progress.Sound := by
  cases token with
  | leaf v => exact close_sound sound (Sound.of_leaf tokenSound.1 tokenSound.2) h
  | head container items =>
    simp only [takeToken] at h
    split at h
    · cases h
    · rename_i shallow
      refine sound_of_pushed (Nat.not_le.mp shallow) ⟨by simp [Frame.start], .inr ?_⟩ sound
        (fun v vSound closed => close_sound sound vSound closed) h
      have few : items ≤ container.most := tokenSound
      change 0 + items ≤ container.most
      omega

theorem takeDeltas_sound {deltas : List Int64} (sound : SoundStack stack) (few : FewDeltas deltas)
    (h : takeDeltas deltas stack = .ok progress) : progress.Sound := by
  cases stack with
  | nil =>
    cases h
    trivial
  | cons f rest =>
    obtain ⟨shallow, frame, -, sound⟩ := sound
    simp only [takeDeltas] at h
    split at h
    · rename_i v finished
      refine close_sound sound ?_ h
      have vSound := frame.finish (fun _ => few) finished
      rwa [Nat.sub_add_cancel (by omega)] at vSound
    · cases h

/-- Every step keeps the open containers sound, and completes sound values only. -/
theorem readStep_sound {place rest : Place} (sound : SoundStack stack)
    (step : readStep stack place = .done progress rest) : progress.Sound := by
  unfold readStep at step
  split at step
  · obtain ⟨deltas, read, taken⟩ := of_settle_done step
    exact takeDeltas_sound sound (gives_readDeltas _ _ _ read) taken
  · obtain ⟨token, read, taken⟩ := of_settle_done step
    exact takeToken_sound sound (Token.gives_read _ _ _ read) taken

end Stack

/-! ## The decoder -/

theorem Decoder.drain_sound {d : Decoder} {items : List Item} (stack : SoundStack d.stack)
    (found : ∀ item ∈ items, item.value.Sound maxDepth) :
    SoundStack (d.drain items).1.stack ∧ ∀ item ∈ (d.drain items).2, item.value.Sound maxDepth := by
  fun_induction Decoder.drain d items with
  | case1 d items starved => exact ⟨stack, found⟩
  | case2 d items starved missing step => exact ⟨stack, found⟩
  | case3 d items starved e step => exact ⟨stack, found⟩
  | case4 d items starved progress rest step ih =>
    have sound := readStep_sound stack step
    cases progress with
    | inside stack => exact ih sound found
    | emitted item => exact ih trivial (List.forall_mem_cons.mpr ⟨sound, found⟩)

/-- Whatever decodes is sound. -/
theorem sound_of_decode {b : Bytes} {vs : List Value} (h : decode b = .ok vs) :
    ∀ v ∈ vs, v.Sound maxDepth := by
  unfold decode at h
  rw [Decoder.atRest_new.feed_eq] at h
  simp only at h
  split at h
  · cases h
  · split at h
    · cases h
    · cases h
      intro v member
      obtain ⟨item, inside, rfl⟩ := List.mem_map.mp member
      have start : SoundStack (Decoder.new.append b).stack := trivial
      exact (Decoder.drain_sound start (by simp)).2 item (List.mem_reverse.mp inside)

end Telemetry.Bysant
