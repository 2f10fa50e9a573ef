import Telemetry.Proofs.Bysant.Descent
import Telemetry.Proofs.Bysant.Sizes
/-!
# The encoding is the shortest

Whatever bytes some values are read from, the encoding of the values has no more of them. The
argument follows the recursive parser and counts the bytes that it uses up: when a value has been
read, at least as many bytes were used up as the value is written in.
-/

namespace Telemetry.Bysant

open DeltaVector

/-! ## Readers that count -/

namespace Reader

variable {α β : Type} {before n : Nat} {P : α → Nat → Prop} {Q : β → Nat → Prop}

/-- Where `before` bytes were used up already, whatever the reader takes is such that `P` holds of it
and of the number of bytes used up then. -/
def Spends (before : Nat) (P : α → Nat → Prop) (r : Reader α) : Prop :=
  ∀ place a rest, r place = .done a rest → ∃ used : Nat,
    place.bytes.length = used + rest.bytes.length ∧ P a (before + used)

theorem spends_pure {a : α} (h : P a before) : (Pure.pure a : Reader α).Spends before P := by
  intro place b rest read
  cases read
  exact ⟨0, (Nat.zero_add _).symm, h⟩

theorem spends_fail (error : DecodeError) : (fail error : Reader α).Spends before P := by
  intro place a rest read
  cases read

theorem spends_ite {p : Prop} [Decidable p] {r r' : Reader α} (h : p → r.Spends before P)
    (h' : ¬p → r'.Spends before P) : (if p then r else r').Spends before P := by
  split
  · exact h ‹_›
  · exact h' ‹_›

theorem Spends.weaken {r : Reader α} {P' : α → Nat → Prop} (h : r.Spends before P)
    (le : ∀ a spent, P a spent → P' a spent) : r.Spends before P' := by
  intro place a rest read
  obtain ⟨used, bytes, paid⟩ := h place a rest read
  exact ⟨used, bytes, le a _ paid⟩

/-- What is read one after the other is counted one after the other. -/
theorem Spends.bind {r : Reader α} {f : α → Reader β} (first : r.Spends before P)
    (second : ∀ a spent, P a spent → (f a).Spends spent Q) : (r >>= f).Spends before Q := by
  intro place b rest read
  rw [bind_apply] at read
  cases step : r place with
  | more missing => simp [step] at read
  | fail error => simp [step] at read
  | done a middle =>
    rw [step] at read
    obtain ⟨used, bytes, paid⟩ := first place a middle step
    obtain ⟨used', bytes', paid'⟩ := second a _ paid middle b rest read
    exact ⟨used + used', by omega, by rwa [← Nat.add_assoc]⟩

/-- A reader that uses up some bytes counts them. -/
theorem spends_of_uses {r : Reader α} {p : α → Prop} (gives : r.Gives p) (uses : r.Uses n) :
    r.Spends before fun a spent => p a ∧ before + n ≤ spent := by
  intro place a rest read
  obtain ⟨used, bytes, -, some⟩ := uses place a rest read
  exact ⟨used.length, by rw [bytes, List.length_append], gives place a rest read, by omega⟩

theorem spends_check {result : Except DecodeError α} (h : ∀ a, result = .ok a → P a before) :
    (check result).Spends before P := by
  cases result with
  | ok a => exact spends_pure (h a rfl)
  | error e => exact spends_fail e

theorem spends_varint : varint.Spends before fun v spent =>
    before + (Varint.encode v).length ≤ spent := by
  intro place v rest read
  unfold varint at read
  split at read
  · rename_i value used complete
    cases read
    have short := (Varint.used_of_read complete).2
    refine ⟨used, ?_, Nat.add_le_add_left (Varint.length_encode_le complete) before⟩
    simp only [List.length_drop]
    omega
  · cases read
  · cases read

theorem spends_length : length.Spends before fun n spent =>
    n ≤ maxLength ∧ before + (Varint.encode (UInt64.ofNat n)).length ≤ spent := by
  refine (spends_of_uses (gives_true _) uses_offset).bind fun start spent skipped => ?_
  refine spends_varint.bind fun value spent' paid => ?_
  refine spends_ite (fun small => spends_pure ⟨small, ?_⟩) fun _ => spends_fail _
  obtain ⟨-, le⟩ := skipped
  rw [UInt64.ofNat_toNat]
  omega

theorem gives_int {width : Nat} (valid : IsWidth width) :
    (int width).Gives fun i => widthOf i ≤ width := by
  refine (gives_take width).bind fun body long => gives_pure ?_
  subst long
  exact widthOf_toInt valid

/-- Some things of the same kind, each of which pays for itself. -/
theorem spends_times {r : Reader α} {size : α → Nat}
    (one : ∀ before, r.Spends before fun a spent => before + size a ≤ spent) (n before : Nat) :
    (r.times n).Spends before fun as spent =>
      as.length = n ∧ before + (as.map size).sum ≤ spent := by
  induction n generalizing before with
  | zero => exact spends_pure ⟨rfl, Nat.le_refl _⟩
  | succ n ih =>
    refine (one before).bind fun first spent paid => ?_
    refine (ih spent).bind fun others spent' paid' => spends_pure ?_
    obtain ⟨length, paid'⟩ := paid'
    simp only [List.length_cons, List.map_cons, List.sum_cons]
    omega

end Reader

open Reader

/-! ## What tags hold -/

/-- A length in a tag is one that the encoder puts there. -/
def Size.Terse (most : Nat) : Size → Prop
  | inTag n => n ≤ most
  | ahead => True

/-- A tag holds by itself only what the encoder writes as a single byte too. -/
def Form.Terse : Form → Prop
  | constant value => value.Within 1
  | int width => IsWidth width
  | text size | bytes size => size.Terse 31
  | list size | map size => size.Terse 15
  | _ => True

theorem tagTable_terse : ∀ row ∈ tagTable, ∀ n, row.first + n ≤ row.last → (row.form n).Terse := by
  have small (n : Nat) (le : n ≤ 127) : (encodeInt (Int64.ofInt (n - 64))).length ≤ 1 := by
    have same : (Int64.ofInt (n - 64)).toInt = n - 64 :=
      Int64.toInt_ofInt_of_le (by omega) (by omega)
    rw [encodeInt, same]
    rw [if_pos (by omega)]
    exact Nat.le_refl 1
  have width (n : Nat) (le : n ≤ 3) : IsWidth (Nat.pow 2 n) := by
    have : n = 0 ∨ n = 1 ∨ n = 2 ∨ n = 3 := by omega
    rcases this with rfl | rfl | rfl | rfl <;> simp [IsWidth]
  simp only [tagTable, List.forall_mem_cons]
  refine ⟨?_, ?_, ?_, ?_, ?_, ?_, ?_, ?_, ?_, ?_, ?_, ?_, ?_, ?_, ?_, ?_, ?_, ?_, ?_, ?_,
    List.forall_mem_nil _⟩
  all_goals intro n le
  all_goals first
    | trivial
    | exact ⟨Nat.le_refl 1, Nat.zero_le _⟩
    | exact ⟨small n (by omega), Nat.zero_le _⟩
    | exact width n (by omega)
    | exact Nat.le_of_add_le_add_left le

theorem Form.terse_of_ofTag? {tag : UInt8} {form : Form} (h : Form.ofTag? tag = some form) :
    form.Terse := by
  obtain ⟨row, found, rfl⟩ := Option.map_eq_some_iff.mp h
  have covers := List.find?_some found
  simp only [TagRow.covers, Bool.and_eq_true, decide_eq_true_eq] at covers
  exact tagTable_terse row (List.mem_of_find?_eq_some found) _ (by omega)

/-! ## Values -/

/-- What was read as this value has used up as many bytes as it is written in, from `start` on. -/
def Paid (start : Nat) (v : Value) (spent : Nat) : Prop := ∃ cost, v.Within cost ∧ start + cost ≤ spent

/-- Every item that is read is paid for. -/
def Thrifty (r : Reader Item) : Prop :=
  ∀ before, r.Spends before fun item spent => Paid before item.value spent

variable {start before n : Nat}

theorem Size.spends_read {size : Size} {most : Nat} (short long : UInt8) (terse : size.Terse most)
    (few : most ≤ maxLength) (paid : start + 1 ≤ before) : size.read.Spends before fun n spent =>
      n ≤ maxLength ∧ start + (encodeLength short long most n).length ≤ spent := by
  cases size with
  | inTag n =>
    have fits : n ≤ most := terse
    have : (encodeLength short long most n).length ≤ 1 := length_encodeLength_le_one fits
    exact spends_pure ⟨Nat.le_trans fits few, by omega⟩
  | ahead =>
    refine Spends.weaken spends_length fun n spent read => ?_
    obtain ⟨le, paid'⟩ := read
    have : (encodeLength short long most n).length ≤ _ := length_encodeLength_le
    exact ⟨le, by omega⟩

/-- A value that is made of the bytes behind its tag or its length. -/
theorem spends_leaf {α : Type} {r : Reader α} {p : α → Prop} {f : α → Value} (gives : r.Gives p)
    (uses : r.Uses n) (noMap : ∀ a, (f a).pairCount = 0)
    (size : ∀ a, p a → start + (encode (f a)).length ≤ before + n) :
    (r >>= fun a => Pure.pure (f a)).Spends before (Paid start) := by
  refine (spends_of_uses gives uses).bind fun a spent read => spends_pure ?_
  obtain ⟨good, enough⟩ := read
  exact ⟨_, ⟨Nat.le_refl _, by rw [noMap a]; exact Nat.zero_le _⟩, Nat.le_trans (size a good) enough⟩

theorem Thrifty.spends_times {item : Reader Item} (thrifty : Thrifty item) (n : Nat) :
    (item.times n).Spends before fun items spent =>
      items.length = n ∧ before + (encodeAll (items.map Item.value)).length ≤ spent := by
  have one (before : Nat) : item.Spends before fun item spent =>
      before + (encode item.value).length ≤ spent := by
    refine (thrifty before).weaken fun item spent paid => ?_
    obtain ⟨cost, within, le⟩ := paid
    have := within.size
    omega
  refine (Reader.spends_times one n before).weaken fun items spent paid => ?_
  rw [length_encodeAll, List.map_map]
  exact paid

theorem Thrifty.spends_pairs {item : Reader Item} (thrifty : Thrifty item) (n : Nat) :
    Spends before (fun pairs spent => pairs.length = n ∧ before + (encodePairs pairs).length ≤ spent)
      (times (item >>= fun key => item >>= fun value => Pure.pure (key.value, value.value)) n) := by
  have one (before : Nat) : Spends before (fun pair spent => before + pairSize pair ≤ spent)
      (item >>= fun key => item >>= fun value => Pure.pure (key.value, value.value)) := by
    refine (thrifty before).bind fun key spent paid => ?_
    refine (thrifty spent).bind fun value spent' paid' => spends_pure ?_
    obtain ⟨cost, within, le⟩ := paid
    obtain ⟨cost', within', le'⟩ := paid'
    have := within.size
    have := within'.size
    simp only [pairSize]
    omega
  refine (Reader.spends_times one n before).weaken fun pairs spent paid => ?_
  rwa [length_encodePairs]

theorem spends_readDeltas (before : Nat) : readDeltas.Spends before fun deltas spent =>
    ∃ cost, (∀ vector : DeltaVector, vector.deltas = deltas →
      (Value.delta vector).trailer.length ≤ cost) ∧ before + cost ≤ spent := by
  refine (spends_of_uses (gives_true _) uses_offset).bind fun start spent skipped => ?_
  refine (spends_of_uses (gives_true _) uses_byte).bind fun width spent byte => ?_
  refine spends_ite (fun valid => ?_) fun _ => spends_fail _
  refine (spends_of_uses (gives_true _) uses_offset).bind fun countStart spent skipped' => ?_
  refine spends_length.bind fun count spent counted => ?_
  refine spends_ite (fun _ => spends_fail _) fun _ => spends_ite (fun _ => spends_fail _) fun _ => ?_
  refine (spends_of_uses (gives_take _) (uses_take _)).bind fun body spent taken => spends_pure ?_
  obtain ⟨long, enough⟩ := taken
  exact ⟨_, fun vector are => length_trailer valid long are, by omega⟩

section Values

variable {inside : Option (Reader Item)} (thrifty : ∀ item, inside = some item → Thrifty item)

include thrifty

theorem spends_enter {α : Type} {P : α → Nat → Prop} {f : Reader Item → Reader α}
    (second : ∀ item : Reader Item, Thrifty item → (f item).Spends before P) (offset : Nat) :
    (enter inside offset >>= f).Spends before P := by
  cases inside with
  | some item => exact second item (thrifty item rfl)
  | none =>
    intro place a rest read
    cases read

/-- Three items and what is made of them. -/
theorem spends_three {finish : Item → Item → Item → Except DecodeError Value} (offset : Nat)
    (paid : start + 1 ≤ before)
    (fits : ∀ {first second third : Item} {a b c : Nat} {v : Value}, first.value.Within a →
      second.value.Within b → third.value.Within c → finish first second third = .ok v →
        v.Within (1 + a + b + c)) :
    (enter inside offset >>= fun item => item >>= fun first => item >>= fun second =>
      item >>= fun third => check (finish first second third)).Spends before (Paid start) := by
  refine spends_enter thrifty (fun item thrifty => ?_) offset
  refine (thrifty before).bind fun first spent paidFirst => ?_
  refine (thrifty spent).bind fun second spent' paidSecond => ?_
  refine (thrifty spent').bind fun third spent'' paidThird => spends_check fun v made => ?_
  obtain ⟨a, one, le⟩ := paidFirst
  obtain ⟨b, two, le'⟩ := paidSecond
  obtain ⟨c, three, le''⟩ := paidThird
  exact ⟨1 + a + b + c, fits one two three made, by omega⟩

theorem spends_delta (offset : Nat) (paid : start + 1 ≤ before) :
    (Form.delta.value inside offset).Spends before (Paid start) := by
  refine spends_enter thrifty (fun item thrifty => ?_) offset
  refine (thrifty before).bind fun factor spent paidFactor => ?_
  refine (thrifty spent).bind fun first spent' paidFirst => ?_
  refine (spends_readDeltas spent').bind fun deltas spent'' paidDeltas => spends_check fun v made => ?_
  obtain ⟨a, one, le⟩ := paidFactor
  obtain ⟨b, two, le'⟩ := paidFirst
  obtain ⟨c, packed, le''⟩ := paidDeltas
  exact ⟨1 + a + b + c, within_deltaOf one two packed made, by omega⟩

/-- A form that holds what the encoder puts in tags pays for its value, when the tag is paid for. -/
theorem Form.spends_value {form : Form} (terse : form.Terse) (offset : Nat)
    (paid : start + 1 ≤ before) : (form.value inside offset).Spends before (Paid start) := by
  have few {n : Nat} (le : n ≤ 31) : n ≤ maxLength := Nat.le_trans le (by decide)
  cases form with
  | constant value => exact spends_pure ⟨1, terse, paid⟩
  | int width =>
    refine spends_leaf (gives_int terse) (uses_int width) (fun _ => rfl) fun i narrow => ?_
    have := length_encodeInt_le i
    rw [encode]
    omega
  | single =>
    refine spends_leaf (gives_true _) (uses_take 4) (fun _ => rfl) fun b _ => ?_
    rw [encode, length_encodeFloat_toFloat]
    omega
  | double =>
    refine spends_leaf (gives_true _) (uses_take 8) (fun _ => rfl) fun b _ => ?_
    have := length_encodeFloat_le (Float.ofBits (UInt64.ofNat (Bytes.toNat b)))
    rw [encode]
    omega
  | text size =>
    refine (size.spends_read 0x03 0x23 terse (few (by decide)) paid).bind fun n spent head => ?_
    refine spends_leaf (gives_text n) (uses_text n) (fun _ => rfl) fun s long => ?_
    rw [encode, encodeText, encodeTextLength, List.length_append, long]
    omega
  | bytes size =>
    refine (size.spends_read 0x24 0x44 terse (few (by decide)) paid).bind fun n spent head => ?_
    refine spends_leaf (gives_take n) (uses_take n) (fun _ => rfl) fun b long => ?_
    rw [encode, encodeBytes, encodeBytesLength, List.length_append, long]
    omega
  | list size =>
    refine (size.spends_read 0x45 0x55 terse (few (by decide)) paid).bind fun n spent head => ?_
    refine spends_enter thrifty (fun item thrifty => ?_) offset
    refine (thrifty.spends_times n).bind fun items spent' paid' => spends_pure ?_
    obtain ⟨count, enough⟩ := paid'
    refine ⟨_, ⟨Nat.le_refl _, Nat.zero_le _⟩, ?_⟩
    rw [encode, List.length_append, List.length_map, count, encodeListCount]
    omega
  | map size =>
    refine (size.spends_read 0x56 0x66 terse (few (by decide)) paid).bind fun n spent head => ?_
    refine spends_enter thrifty (fun item thrifty => ?_) offset
    refine (thrifty.spends_pairs n).bind fun pairs spent' paid' => spends_pure ?_
    obtain ⟨count, enough⟩ := paid'
    refine ⟨_, ⟨Nat.le_refl _, Nat.le_trans (Nat.le_of_eq count) head.1⟩, ?_⟩
    rw [encode, List.length_append, count, encodeMapCount]
    omega
  | delta => exact spends_delta thrifty offset paid
  | quasi =>
    exact spends_three thrifty offset paid fun one two three => within_quasiOf one two three offset
  | envelope => exact spends_three thrifty offset paid within_envelopeOf
  | message => exact spends_three thrifty offset paid within_messageOf
  | response => exact spends_three thrifty offset paid within_responseOf

theorem thrifty_taggedItem : Thrifty (taggedItem inside) := by
  intro before
  refine (spends_of_uses (gives_true _) uses_offset).bind fun offset spent skipped => ?_
  refine (spends_of_uses (gives_true _) uses_byte).bind fun tag spent' byte => ?_
  cases known : Form.ofTag? tag with
  | none => exact spends_fail _
  | some form =>
    refine (Form.spends_value thrifty (Form.terse_of_ofTag? known) offset (by omega)).bind
      fun v spent paid => spends_pure paid

end Values

theorem thrifty_item : (room : Nat) → Thrifty (item room)
  | 0 => thrifty_taggedItem nofun
  | room + 1 => thrifty_taggedItem fun _ same => Option.some.inj same ▸ thrifty_item room

/-! ## All values -/

/-- Values are written in no more bytes than they are parsed from. -/
theorem length_encodeAll_of_parseFrom {place : Place} {vs : List Value}
    (h : parseFrom place = .consumed vs) : (encodeAll vs).length ≤ place.bytes.length := by
  induction place using parseFrom.induct generalizing vs with
  | case1 place none =>
    rw [parseFrom_nil none] at h
    cases h
    exact Nat.zero_le _
  | case2 place some item rest read ih =>
    obtain ⟨used, bytes, cost, within, le⟩ := thrifty_item maxDepth 0 place item rest read
    have size := within.size
    rw [parseFrom_done some read] at h
    cases parsed : parseFrom rest with
    | consumed others =>
      rw [parsed] at h
      cases h
      have := ih parsed
      rw [encodeAll, List.length_append]
      omega
    | malformed error => simp [parsed, Parse.cons] at h
    | cutShort unfinished => simp [parsed, Parse.cons] at h
  | case3 place some missing read => simp [parseFrom_more some read] at h
  | case4 place some error read => simp [parseFrom_fail some read] at h

/-- Of all byte strings that decode to some values, their encoding is one, and no other one is
shorter. -/
theorem encodeAll_shortest {b : Bytes} {vs : List Value} (h : decode b = .ok vs) :
    decode (encodeAll vs) = .ok vs ∧ (encodeAll vs).length ≤ b.length :=
  ⟨decode_encodeAll_of_sound (sound_of_decode h),
    length_encodeAll_of_parseFrom (decode_eq_ok_iff.mp h)⟩

/-- A list with a padded count behind its tag, in it an integer and a float of 64 bits that need
fewer, and a message with a byte string for its path and a body that has a key twice. -/
def wastefulBytes : Bytes :=
  [0x55, 0x83, 0x00, 0x6A, 0, 0, 0, 0, 0, 0, 0, 7, 0x6C, 0x3F, 0xF8, 0, 0, 0, 0, 0, 0,
    0x70, 0x25, 0x61, 0x00, 0x66, 0x02, 0x04, 0x6B, 0x01, 0x25, 0x6B, 0x02]

def wastefulList : Value :=
  .list [.int 7, .float (Float.ofBits 0x3FF8000000000000),
    .message ⟨"a", none, [("k", .bool false)]⟩]

theorem encodeAll_shortest_wastefulBytes : decode wastefulBytes = .ok [wastefulList] ∧
    decode (encodeAll [wastefulList]) = .ok [wastefulList] ∧
      (encodeAll [wastefulList]).length ≤ wastefulBytes.length := by
  have read : item maxDepth ⟨0, wastefulBytes⟩ = .done ⟨0, wastefulList⟩ ⟨33, []⟩ := by
    set_option maxRecDepth 1000 in rfl
  have parsed : parse wastefulBytes = .consumed [wastefulList] := by
    rw [parse, parseFrom_done (by simp [wastefulBytes]) read, parseFrom_nil rfl]
    rfl
  have decoded : decode wastefulBytes = .ok [wastefulList] := decode_eq_ok_iff.mpr parsed
  exact ⟨decoded, encodeAll_shortest decoded⟩

end Telemetry.Bysant
