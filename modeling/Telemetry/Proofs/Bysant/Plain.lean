import Telemetry.Proofs.Bysant.Representable
import Telemetry.Bysant.Json
/-!
# What is short as a whole is short in its parts

The lengths that the format bounds are lengths of parts of the encoding, and numbers of parts that
take a byte each. So a value whose encoding is not too long keeps to all of these bounds. Only the
number of differences in a delta vector is bounded more closely. What is made of JSON has no delta
vector in it.
-/

namespace Telemetry.Bysant

/-! ## Lengths of parts -/

theorem length_encodeLength_pos (short long : UInt8) (most n : Nat) :
    0 < (encodeLength short long most n).length := by
  unfold encodeLength
  split <;> exact Nat.succ_pos _

theorem length_le_encodeBytes (b : Bytes) : b.length ≤ (encodeBytes b).length := by
  rw [encodeBytes, List.length_append]
  exact Nat.le_add_left _ _

theorem length_le_encodeText (s : String) : (Bytes.ofString s).length ≤ (encodeText s).length := by
  rw [encodeText, List.length_append]
  exact Nat.le_add_left _ _

theorem length_encodeText_pos (s : String) : 0 < (encodeText s).length := by
  rw [encodeText, List.length_append, encodeTextLength]
  exact Nat.lt_of_lt_of_le (length_encodeLength_pos _ _ _ _) (Nat.le_add_right _ _)

/-- A tag is written for every value. -/
theorem length_encode_pos (v : Value) : 0 < (encode v).length := by
  have head (short long : UInt8) (most n : Nat) (rest : Bytes) :
      0 < (encodeLength short long most n ++ rest).length := by
    rw [List.length_append]
    exact Nat.lt_of_lt_of_le (length_encodeLength_pos _ _ _ _) (Nat.le_add_right _ _)
  cases v with
  | null => exact Nat.one_pos
  | bool value => cases value <;> exact Nat.one_pos
  | int value =>
    rw [encode]
    unfold encodeInt
    dsimp only
    repeat' split
    all_goals exact Nat.succ_pos _
  | float value =>
    rw [encode]
    unfold encodeFloat
    split <;> exact Nat.succ_pos _
  | text value => exact length_encodeText_pos value
  | bytes value => exact head _ _ _ _ _
  | list items => exact head _ _ _ _ _
  | map pairs => exact head _ _ _ _ _
  | delta vector => exact Nat.succ_pos _
  | quasi vector => exact Nat.succ_pos _
  | envelope e =>
    obtain ⟨⟨entries⟩, payload, footer⟩ := e
    exact Nat.succ_pos _
  | message m =>
    obtain ⟨path, ticket, body⟩ := m
    exact Nat.succ_pos _
  | response r => exact Nat.succ_pos _

theorem length_le_encodeAll (vs : List Value) : vs.length ≤ (encodeAll vs).length := by
  induction vs with
  | nil => exact Nat.zero_le _
  | cons v rest ih =>
    have := length_encode_pos v
    rw [encodeAll, List.length_append, List.length_cons]
    omega

theorem length_le_encodePairs (pairs : List (Value × Value)) :
    pairs.length ≤ (encodePairs pairs).length := by
  induction pairs with
  | nil => exact Nat.zero_le _
  | cons pair rest ih =>
    have := length_encode_pos pair.1
    rw [encodePairs, List.length_append, List.length_append, List.length_cons]
    omega

theorem length_le_encodeEntries (entries : List (HeaderKey × Value)) :
    entries.length ≤ (encodeEntries entries).length := by
  rw [encodeEntries_eq]
  exact Nat.le_trans (Nat.le_of_eq (length_headerPairs entries).symm) (length_le_encodePairs _)

theorem length_le_encodeBody (body : Table String Value) :
    body.length ≤ (encodeBody body).length := by
  rw [encodeBody_eq]
  exact Nat.le_trans (Nat.le_of_eq (length_bodyPairs body).symm) (length_le_encodePairs _)

theorem length_name_le_encodeEntries {entries : List (HeaderKey × Value)}
    {entry : HeaderKey × Value} (member : entry ∈ entries) :
    (Bytes.ofString entry.1.name).length ≤ (encodeEntries entries).length := by
  induction entries with
  | nil => cases member
  | cons first rest ih =>
    rw [encodeEntries, List.length_append, List.length_append]
    rcases List.mem_cons.mp member with rfl | inside
    · have := length_le_encodeText entry.1.name
      omega
    · have := ih inside
      omega

theorem length_key_le_encodeBody {body : Table String Value} {entry : String × Value}
    (member : entry ∈ body) : (Bytes.ofString entry.1).length ≤ (encodeBody body).length := by
  induction body with
  | nil => cases member
  | cons first rest ih =>
    rw [encodeBody, List.length_append, List.length_append]
    rcases List.mem_cons.mp member with rfl | inside
    · have := length_le_encodeText entry.1
      omega
    · have := ih inside
      omega

/-! ## Values without delta vectors -/

/-- Whether this value itself is no delta vector, and keeps to all limits but those of length. -/
def Value.isPlain (v : Value) : Bool :=
  match v with
  | .delta _ => false
  | v => v.isCanonical && v.isTabular

mutual

/-- A plain value whose encoding is not too long keeps to the limits everywhere. -/
theorem sound_of_plain : (v : Value) → v.everywhere Value.isPlain = true →
    (encode v).length ≤ maxLength → v.everywhere Value.isSound = true
  | .null, _, _ => rfl
  | .bool _, _, _ => rfl
  | .int _, _, _ => rfl
  | .float _, _, _ => rfl
  | .quasi _, _, _ => rfl
  | .text s, _, fits => by
    have := length_le_encodeText s
    rw [encode] at fits
    simp only [Value.everywhere, Value.isSound, Value.isShort, fitsText, Value.isCanonical,
      Value.isTabular, Bool.and_true, decide_eq_true_eq]
    omega
  | .bytes b, _, fits => by
    have := length_le_encodeBytes b
    rw [encode] at fits
    simp only [Value.everywhere, Value.isSound, Value.isShort, Value.isCanonical, Value.isTabular,
      Bool.and_true, decide_eq_true_eq]
    omega
  | .list items, plain, fits => by
    have := length_le_encodeAll items
    rw [encode, List.length_append] at fits
    rw [Value.everywhere, Bool.and_eq_true] at plain
    have inside := soundAll_of_plain items plain.2 (by omega)
    simp only [Value.everywhere, inside, Value.isSound, Value.isShort, Value.isCanonical,
      Value.isTabular, Bool.and_true, decide_eq_true_eq]
    omega
  | .map pairs, plain, fits => by
    have := length_le_encodePairs pairs
    rw [encode, List.length_append] at fits
    rw [Value.everywhere, Bool.and_eq_true] at plain
    have inside := soundPairs_of_plain pairs plain.2 (by omega)
    simp only [Value.everywhere, inside, Value.isSound, Value.isShort, Value.isCanonical,
      Value.isTabular, Bool.and_true, decide_eq_true_eq]
    omega
  | .delta _, plain, _ => by cases plain
  | .envelope ⟨⟨entries⟩, payload, footer⟩, plain, fits => by
    have := length_le_encodeEntries entries
    have := length_le_encodeBytes payload
    have := length_le_encodePairs footer
    simp only [encode, List.length_append, List.length_cons] at fits
    simp only [Value.everywhere, Value.isPlain, Bool.and_eq_true] at plain
    obtain ⟨⟨⟨canonical, tabular⟩, header⟩, trailer⟩ := plain
    have names : ∀ entry ∈ entries, fitsText entry.1.name := fun entry member => by
      have := length_name_le_encodeEntries member
      simp only [fitsText, decide_eq_true_eq]
      omega
    have short : Value.isShort (.envelope ⟨⟨entries⟩, payload, footer⟩) = true := by
      simp only [Value.isShort, decide_eq_true_eq]
      exact ⟨by omega, names, by omega, by omega⟩
    simp only [Value.everywhere, soundEntries_of_plain entries header (by omega),
      soundPairs_of_plain footer trailer (by omega), Value.isSound, short, canonical, tabular,
      Bool.and_self]
  | .message ⟨path, ticket, body⟩, plain, fits => by
    have := length_le_encodeText path
    have := length_le_encodeBody body
    simp only [encode, List.length_append, List.length_cons] at fits
    simp only [Value.everywhere, Value.isPlain, Bool.and_eq_true] at plain
    obtain ⟨⟨canonical, tabular⟩, inside⟩ := plain
    have keys : ∀ entry ∈ body, (Bytes.ofString entry.1).length ≤ maxLength :=
      fun entry member => by
        have := length_key_le_encodeBody member
        omega
    have short : Value.isShort (.message ⟨path, ticket, body⟩) = true := by
      simp only [Value.isShort, fitsText, decide_eq_true_eq]
      exact ⟨by omega, by omega, keys⟩
    simp only [Value.everywhere, soundBody_of_plain body inside (by omega), Value.isSound, short,
      canonical, tabular, Bool.and_self]
  | .response r, _, fits => by
    have := length_le_encodeText r.message
    simp only [encode, encodeResponse, List.length_append, List.length_cons] at fits
    simp only [Value.everywhere, Value.isSound, Value.isShort, fitsText, Value.isCanonical,
      Value.isTabular, Bool.and_true, decide_eq_true_eq]
    omega

theorem soundAll_of_plain : (vs : List Value) → everywhereAll Value.isPlain vs = true →
    (encodeAll vs).length ≤ maxLength → everywhereAll Value.isSound vs = true
  | [], _, _ => rfl
  | v :: rest, plain, fits => by
    rw [everywhereAll, Bool.and_eq_true] at plain
    rw [encodeAll, List.length_append] at fits
    rw [everywhereAll, sound_of_plain v plain.1 (by omega), soundAll_of_plain rest plain.2 (by omega),
      Bool.and_self]

theorem soundPairs_of_plain : (pairs : List (Value × Value)) →
    everywherePairs Value.isPlain pairs = true → (encodePairs pairs).length ≤ maxLength →
      everywherePairs Value.isSound pairs = true
  | [], _, _ => rfl
  | (key, value) :: rest, plain, fits => by
    rw [everywherePairs, Bool.and_eq_true, Bool.and_eq_true] at plain
    rw [encodePairs, List.length_append, List.length_append] at fits
    rw [everywherePairs, sound_of_plain key plain.1.1 (by omega),
      sound_of_plain value plain.1.2 (by omega), soundPairs_of_plain rest plain.2 (by omega),
      Bool.and_self, Bool.and_self]

theorem soundEntries_of_plain : (entries : List (HeaderKey × Value)) →
    everywhereEntries Value.isPlain entries = true → (encodeEntries entries).length ≤ maxLength →
      everywhereEntries Value.isSound entries = true
  | [], _, _ => rfl
  | (_, value) :: rest, plain, fits => by
    rw [everywhereEntries, Bool.and_eq_true] at plain
    rw [encodeEntries, List.length_append, List.length_append] at fits
    rw [everywhereEntries, sound_of_plain value plain.1 (by omega),
      soundEntries_of_plain rest plain.2 (by omega), Bool.and_self]

theorem soundBody_of_plain : (body : List (String × Value)) →
    everywhereBody Value.isPlain body = true → (encodeBody body).length ≤ maxLength →
      everywhereBody Value.isSound body = true
  | [], _, _ => rfl
  | (_, value) :: rest, plain, fits => by
    rw [everywhereBody, Bool.and_eq_true] at plain
    rw [encodeBody, List.length_append, List.length_append] at fits
    rw [everywhereBody, sound_of_plain value plain.1 (by omega),
      soundBody_of_plain rest plain.2 (by omega), Bool.and_self]

end

/-! ## Values that JSON stands for -/

mutual

theorem plain_ofJson : (json : Json) → (Value.ofJson json).everywhere Value.isPlain = true
  | .null => rfl
  | .bool _ => rfl
  | .int value => by
    rw [Value.ofJson]
    split <;> rfl
  | .float _ => rfl
  | .text _ => rfl
  | .array items => plainAll_ofItems items
  | .object fields => plainPairs_ofFields fields

theorem plainAll_ofItems : (items : List Json) →
    everywhereAll Value.isPlain (Value.ofItems items) = true
  | [] => rfl
  | item :: rest => by
    rw [Value.ofItems, everywhereAll, plain_ofJson item, plainAll_ofItems rest, Bool.and_self]

theorem plainPairs_ofFields : (fields : List (String × Json)) →
    everywherePairs Value.isPlain (Value.ofFields fields) = true
  | [] => rfl
  | (name, value) :: rest => by
    rw [Value.ofFields, everywherePairs, plain_ofJson value, plainPairs_ofFields rest]
    rfl

end

end Telemetry.Bysant
