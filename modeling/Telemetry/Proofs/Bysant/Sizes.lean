import Telemetry.Proofs.Bysant.Soundness
/-!
# Sizes of encodings

How many bytes the encoder takes, compared with other spellings that the decoder accepts: padded
lengths, lengths behind a tag that could hold them, integers, floats and differences wider than they
have to be, byte strings in place of texts, and keys that come twice.
-/

namespace Telemetry.Bysant

open DeltaVector

/-! ## Variable-length integers -/

namespace Varint

variable {more : Nat}

/-- A number with few digits is written in few bytes. -/
theorem length_digits_le {n k : Nat} (small : n < 128 ^ (k + 1)) : (digits more n).length ≤ k + 1 := by
  induction more generalizing n k with
  | zero => simp [digits]
  | succ more ih =>
    rw [digits]
    split
    · simp
    · rename_i several
      obtain ⟨k, rfl⟩ : ∃ less, k = less + 1 := Nat.exists_eq_add_one.mpr (by
        rw [Nat.pos_iff_ne_zero]
        rintro rfl
        exact several small)
      have fewer : n / 128 < 128 ^ (k + 1) := by
        rwa [Nat.div_lt_iff_lt_mul (by decide), ← Nat.pow_succ]
      rw [List.length_cons]
      exact Nat.succ_le_succ (ih fewer)

theorem length_digits_mono {m n : Nat} (le : m ≤ n) :
    (digits more m).length ≤ (digits more n).length := by
  induction more generalizing m n with
  | zero => simp [digits]
  | succ more ih =>
    have := ih (Nat.div_le_div_right (c := 128) le)
    rw [digits, digits]
    repeat' split
    all_goals simp only [List.length_cons, List.length_nil]
    all_goals omega

/-- One more digit keeps a number below the weight of the digit behind it. -/
theorem add_digit_lt {used value : Nat} (byte : UInt8) (small : value < 128 ^ used) :
    value + (byte.toNat % 128) <<< (7 * used) < 128 ^ (used + 1) := by
  have digit : byte.toNat % 128 + 1 ≤ 128 := Nat.mod_lt _ (by decide)
  have base : 2 ^ (7 * used) = 128 ^ used := Nat.pow_mul 2 7 used
  have := Nat.mul_le_mul_right (128 ^ used) digit
  rw [Nat.add_mul] at this
  rw [Nat.shiftLeft_eq, base, Nat.pow_succ]
  omega

/-- The digits that were read bound the number that they spell. -/
theorem toNat_lt_of_readFrom {b : Bytes} {used value n : Nat} {v : UInt64} (small : value < 128 ^ used)
    (h : readFrom used value b = .complete v n) : v.toNat < 128 ^ n := by
  induction b generalizing used value with
  | nil => cases h
  | cons byte rest ih =>
    have grown := add_digit_lt byte small
    simp only [readFrom] at h
    split at h
    · cases h
    · split at h
      · cases h
        rw [UInt64.toNat_ofNat']
        exact Nat.lt_of_le_of_lt (Nat.mod_le ..) grown
      · exact ih grown h

/-- No spelling of a number is shorter than the one that is written. -/
theorem length_encode_le {b : Bytes} {v : UInt64} {n : Nat} (h : read b = .complete v n) :
    (encode v).length ≤ n := by
  obtain ⟨n, rfl⟩ := Nat.exists_eq_add_one.mpr (used_of_read h).1
  exact length_digits_le (toNat_lt_of_readFrom (by decide) h)

end Varint

/-! ## Scalars -/

section Length

variable {short long short' long' : UInt8} {most m n : Nat}

/-- The bytes that a length takes do not depend on the tags. -/
theorem length_encodeLength_congr : (encodeLength short long most n).length =
    (encodeLength short' long' most n).length := by
  unfold encodeLength
  split <;> rfl

theorem length_encodeLength_le_one (fits : n ≤ most) : (encodeLength short long most n).length ≤ 1 := by
  rw [encodeLength, if_pos fits]
  exact Nat.le_refl 1

/-- A length in the tag takes no more bytes than one behind it. -/
theorem length_encodeLength_le : (encodeLength short long most n).length ≤
    1 + (Varint.encode (UInt64.ofNat n)).length := by
  unfold encodeLength
  split
  · simp
  · rw [List.length_cons, Nat.add_comm]

theorem length_encodeLength_mono (le : m ≤ n) (bound : n ≤ maxLength) :
    (encodeLength short long most m).length ≤ (encodeLength short long most n).length := by
  have whole {k : Nat} (small : k ≤ maxLength) : (UInt64.ofNat k).toNat = k := by
    rw [UInt64.toNat_ofNat']
    exact Nat.mod_eq_of_lt (Nat.lt_of_le_of_lt small (by decide))
  have digits : (Varint.encode (UInt64.ofNat m)).length ≤ (Varint.encode (UInt64.ofNat n)).length := by
    rw [Varint.encode, Varint.encode, whole (Nat.le_trans le bound), whole bound]
    exact Varint.length_digits_mono le
  unfold encodeLength
  repeat' split
  all_goals simp only [List.length_cons, List.length_nil]
  all_goals omega

end Length

/-- An integer is written in as many bytes as a difference in the width that it needs, and a tag. -/
theorem length_encodeInt_le (i : Int64) : (encodeInt i).length ≤ 1 + widthOf i := by
  unfold encodeInt widthOf
  simp only
  repeat' split
  all_goals simp only [List.length_cons, List.length_nil, Bytes.length_ofInt]
  all_goals omega

theorem length_encodeFloat_le (x : Float) : (encodeFloat x).length ≤ 9 := by
  unfold encodeFloat
  split <;> simp

/-- A float that was read from 32 bits is written in 32 bits. -/
theorem length_encodeFloat_toFloat (pattern : UInt32) :
    (encodeFloat (Binary32.toFloat pattern)).length = 5 := by
  obtain ⟨narrow, same⟩ := Option.isSome_iff_exists.mp (Binary32.isSome_ofFloat?_toFloat pattern)
  rw [encodeFloat, same]
  simp

/-! ## Views -/

variable {v : Value}

/-- A byte string in place of a text takes as many bytes as the text. -/
theorem length_encodeText_of_text? {s : String} (h : v.text? = some s) :
    (encodeText s).length = (encode v).length := by
  cases v <;> try cases h
  case text => rfl
  case bytes b =>
    have same : Bytes.ofString s = b := Bytes.ofString_of_toString? h
    rw [encode, encodeText, encodeBytes, same, List.length_append, List.length_append]
    exact congrArg (· + b.length) length_encodeLength_congr

/-- A text in place of a byte string takes as many bytes as the byte string. -/
theorem length_encodeBytes_of_bytes? {b : Bytes} (h : v.bytes? = some b) :
    (encodeBytes b).length = (encode v).length := by
  cases v <;> try cases h
  case text s =>
    rw [encode, encodeText, encodeBytes, List.length_append, List.length_append]
    exact congrArg (· + _) length_encodeLength_congr
  case bytes => rfl

theorem length_encodeNumber_of_number? {n : Number} (h : v.number? = some n) :
    (encodeNumber n).length = (encode v).length := by
  rw [ofNumber_of_number? h, encode_ofNumber]

/-! ## Keys that come twice -/

theorem length_encodeEntries_put {key : HeaderKey} {value : Value}
    {entries : List (HeaderKey × Value)} : (encodeEntries (Header.put key value entries)).length ≤
      (encodeEntries entries).length + ((encodeText key.name).length + (encode value).length) := by
  induction entries with
  | nil => simp [Header.put, encodeEntries]
  | cons entry rest ih =>
    unfold Header.put
    split
    · rename_i same
      simp only [encodeEntries, List.length_append, same]
      omega
    · simp only [encodeEntries, List.length_append]
      omega

theorem length_encodeBody_put {key : String} {value : Value} {body : Table String Value} :
    (encodeBody (Table.put key value body)).length ≤
      (encodeBody body).length + ((encodeText key).length + (encode value).length) := by
  induction body with
  | nil => simp [Table.put, encodeBody]
  | cons entry rest ih =>
    unfold Table.put
    split
    · simp only [encodeBody, List.length_append]
      omega
    · split <;> simp only [encodeBody, List.length_append] <;> omega

/-- A header is written in no more bytes than the pairs that it was read from. -/
theorem length_encodeEntries_headerOfPairs {offset : Nat} {pairs : List (Value × Value)}
    {start header : Header} (h : headerOfPairs offset pairs start = .ok header) :
    (encodeEntries header.entries).length ≤
      (encodeEntries start.entries).length + (encodePairs pairs).length := by
  induction pairs generalizing start with
  | nil =>
    cases h
    exact Nat.le_refl _
  | cons pair rest ih =>
    obtain ⟨key, value⟩ := pair
    simp only [headerOfPairs] at h
    split at h
    · rename_i name named
      have put : (encodeEntries (start.insert (.ofName name) value).entries).length ≤
          (encodeEntries start.entries).length +
            ((encodeText (HeaderKey.ofName name).name).length + (encode value).length) :=
        length_encodeEntries_put
      rw [HeaderKey.name_ofName, length_encodeText_of_text? named] at put
      have := ih h
      simp only [encodePairs, List.length_append]
      omega
    · cases h

/-- A body is written in no more bytes than the pairs that it was read from. -/
theorem length_encodeBody_bodyOfPairs {offset : Nat} {pairs : List (Value × Value)}
    {start body : Table String Value} (h : bodyOfPairs offset pairs start = .ok body) :
    (encodeBody body).length ≤ (encodeBody start).length + (encodePairs pairs).length := by
  induction pairs generalizing start with
  | nil =>
    cases h
    exact Nat.le_refl _
  | cons pair rest ih =>
    obtain ⟨key, value⟩ := pair
    simp only [bodyOfPairs] at h
    split at h
    · rename_i name named
      have put : (encodeBody (Table.put name value start)).length ≤ _ := length_encodeBody_put
      rw [length_encodeText_of_text? named] at put
      have := ih h
      simp only [encodePairs, List.length_append]
      omega
    · cases h

/-! ## Containers -/

theorem length_encodeAll (vs : List Value) :
    (encodeAll vs).length = (vs.map fun v => (encode v).length).sum := by
  induction vs with
  | nil => rfl
  | cons v rest ih => rw [encodeAll, List.length_append, ih, List.map_cons, List.sum_cons]

/-- The bytes that a pair of a map is written in. -/
def pairSize (pair : Value × Value) : Nat := (encode pair.1).length + (encode pair.2).length

theorem length_encodePairs (pairs : List (Value × Value)) :
    (encodePairs pairs).length = (pairs.map pairSize).sum := by
  induction pairs with
  | nil => rfl
  | cons pair rest ih =>
    rw [encodePairs, List.length_append, List.length_append, ih, List.map_cons, List.sum_cons,
      pairSize]

/-- The number of pairs, if this is a map. -/
def Value.pairCount : Value → Nat
  | .map pairs => pairs.length
  | _ => 0

/-- The value is written in so many bytes or fewer, and has no more pairs than a map may have. -/
structure Value.Within (cost : Nat) (v : Value) : Prop where
  size : (encode v).length ≤ cost
  few : v.pairCount ≤ maxLength

theorem length_le_of_map {item : Item} {pairs : List (Value × Value)} {cost : Nat}
    (within : item.value.Within cost) (h : item.map = .ok pairs) : pairs.length ≤ maxLength := by
  have few := within.few
  rwa [Item.value_of_map h] at few

theorem value_of_int? {i : Int64} (h : v.int? = some i) : v = .int i := by
  cases v <;> cases h
  rfl

theorem value_of_ticketOf? {ticket : UInt32} (h : Item.ticketOf? v = some ticket) :
    v = .int (Int64.ofNat ticket.toNat) := by
  unfold Item.ticketOf? at h
  split at h
  · rename_i i
    split at h
    · rename_i range
      cases h
      have small : i.toInt.toNat < 2 ^ 32 := by
        have : (UInt32.size : Int) = 2 ^ 32 := rfl
        omega
      rw [UInt32.toNat_ofNat', Nat.mod_eq_of_lt small, ← Int64.ofInt_eq_ofNat,
        Int.toNat_of_nonneg range.1, Int64.ofInt_toInt]
    · cases h
  · cases h

theorem value_of_optionalTicket {item : Item} {ticket : Option UInt32}
    (h : item.optionalTicket = .ok ticket) : item.value = ticketValue ticket := by
  have seen := Item.of_expect h
  split at seen
  · cases seen
    assumption
  · obtain ⟨number, is, rfl⟩ := Option.map_eq_some_iff.mp seen
    exact value_of_ticketOf? is

section Finish

variable {first second third : Item} {a b c : Nat} (one : first.value.Within a)
  (two : second.value.Within b) (three : third.value.Within c)

include one two three

theorem within_envelopeOf (h : envelopeOf first second third = .ok v) : v.Within (1 + a + b + c) := by
  obtain ⟨pairs, isMap, h⟩ := of_bind_eq_ok h
  obtain ⟨⟨entries⟩, read, h⟩ := of_bind_eq_ok h
  obtain ⟨body, isBytes, h⟩ := of_bind_eq_ok h
  obtain ⟨last, isMap', h⟩ := of_bind_eq_ok h
  cases h
  have header := one.size
  have payload := length_encodeBytes_of_bytes? (Item.of_expect isBytes) ▸ two.size
  have footer := three.size
  have count : entries.length ≤ 0 + pairs.length := length_headerOfPairs read
  have counts : (encodeMapCount entries.length).length ≤ (encodeMapCount pairs.length).length :=
    length_encodeLength_mono (by omega) (length_le_of_map one isMap)
  have inner : (encodeEntries entries).length ≤ 0 + (encodePairs pairs).length :=
    length_encodeEntries_headerOfPairs read
  rw [Item.value_of_map isMap] at header
  rw [Item.value_of_map isMap'] at footer
  refine ⟨?_, Nat.zero_le _⟩
  simp only [encode, List.length_cons, List.length_append] at header footer ⊢
  omega

theorem within_messageOf (h : messageOf first second third = .ok v) : v.Within (1 + a + b + c) := by
  obtain ⟨name, isText, h⟩ := of_bind_eq_ok h
  obtain ⟨number, isTicket, h⟩ := of_bind_eq_ok h
  obtain ⟨pairs, isMap, h⟩ := of_bind_eq_ok h
  obtain ⟨entries, read, h⟩ := of_bind_eq_ok h
  cases h
  have path := length_encodeText_of_text? (Item.of_expect isText) ▸ one.size
  have ticket := two.size
  have body := three.size
  have count : entries.length ≤ 0 + pairs.length := length_bodyOfPairs read
  have counts : (encodeMapCount entries.length).length ≤ (encodeMapCount pairs.length).length :=
    length_encodeLength_mono (by omega) (length_le_of_map three isMap)
  have inner : (encodeBody entries).length ≤ 0 + (encodePairs pairs).length :=
    length_encodeBody_bodyOfPairs read
  rw [value_of_optionalTicket isTicket, encode_ticketValue] at ticket
  rw [Item.value_of_map isMap] at body
  refine ⟨?_, Nat.zero_le _⟩
  simp only [encode, List.length_cons, List.length_append] at body ⊢
  omega

theorem within_responseOf (h : responseOf first second third = .ok v) :
    v.Within (1 + a + b + c) := by
  obtain ⟨number, isTicket, h⟩ := of_bind_eq_ok h
  obtain ⟨code, isInt, h⟩ := of_bind_eq_ok h
  obtain ⟨text, isText, h⟩ := of_bind_eq_ok h
  cases h
  have ticket := one.size
  have status := two.size
  have message := length_encodeText_of_text? (Item.of_expect isText) ▸ three.size
  rw [value_of_ticketOf? (Item.of_expect isTicket)] at ticket
  rw [value_of_int? (Item.of_expect isInt)] at status
  refine ⟨?_, Nat.zero_le _⟩
  simp only [encode, encodeResponse, List.length_cons, List.length_append] at ticket status ⊢
  omega

theorem within_quasiOf (offset : Nat) (h : quasiOf offset first second third = .ok v) :
    v.Within (1 + a + b + c) := by
  obtain ⟨p, isNumber, h⟩ := of_bind_eq_ok h
  obtain ⟨s, isNumber', h⟩ := of_bind_eq_ok h
  obtain ⟨ints, are, h⟩ := of_bind_eq_ok h
  have period := length_encodeNumber_of_number? (Item.of_expect isNumber) ▸ one.size
  have start := length_encodeNumber_of_number? (Item.of_expect isNumber') ▸ two.size
  have shifts := three.size
  rw [Item.value_of_ints are] at shifts
  split at h
  · rename_i vector made
    cases h
    unfold QuasiPeriodicVector.ofShifts at made
    split at made
    · cases made
      refine ⟨?_, Nat.zero_le _⟩
      simp only [encode, encodeQuasi, encodeAll_ints, List.length_map, List.length_cons,
        List.length_append] at shifts ⊢
      omega
    · cases made
  · cases h

omit three

theorem within_deltaOf {deltas : List Int64}
    (packed : ∀ vector : DeltaVector, vector.deltas = deltas →
      (Value.delta vector).trailer.length ≤ c)
    (h : deltaOf first second deltas = .ok v) : v.Within (1 + a + b + c) := by
  obtain ⟨f, isNumber, h⟩ := of_bind_eq_ok h
  obtain ⟨s, isNumber', h⟩ := of_bind_eq_ok h
  cases h
  have factor := length_encodeNumber_of_number? (Item.of_expect isNumber) ▸ one.size
  have start := length_encodeNumber_of_number? (Item.of_expect isNumber') ▸ two.size
  have trailer := packed ⟨f, s, deltas⟩ rfl
  refine ⟨?_, Nat.zero_le _⟩
  simp only [encode, encodeDelta, Value.trailer, List.length_cons, List.length_append] at trailer ⊢
  omega

end Finish

/-- Differences that were read in some width are packed in no more bytes. -/
theorem length_trailer {vector : DeltaVector} {width count : Nat} {body : Bytes}
    (valid : IsWidth width) (long : body.length = count * width)
    (are : vector.deltas = unpackInts width count body) : (Value.delta vector).trailer.length ≤
      1 + (Varint.encode (UInt64.ofNat count)).length + count * width := by
  obtain ⟨length, narrow⟩ := widthOf_unpackInts valid long
  rw [← are] at length narrow
  have some : 1 ≤ width := by
    unfold IsWidth at valid
    omega
  have := Nat.mul_le_mul_left count ((width_le_iff some).mpr narrow)
  simp only [Value.trailer, List.length_cons, List.length_append, List.length_flatMap,
    Bytes.length_ofInt, List.map_const', List.sum_replicate_nat, length]
  omega

end Telemetry.Bysant
