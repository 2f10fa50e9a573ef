import Mathlib.Tactic.Ring
import Telemetry.Bysant.Encoder
import Telemetry.Bysant.Token
import Telemetry.Proofs.Bytes
import Telemetry.Proofs.Number.Binary
/-!
# Tokens are read back from their encoding

Whatever the encoder writes for a number, a text, a byte string or the head of a container, the
reader of tokens takes exactly that from the front of the input and leaves what follows.
-/

namespace Telemetry.Bysant

/-- In front of anything, at any offset, the reader takes exactly these bytes, as this. -/
def Reader.Takes {α : Type} (r : Reader α) (b : Bytes) (a : α) : Prop :=
  ∀ offset rest, r ⟨offset, b ++ rest⟩ = .done a ⟨offset + b.length, rest⟩

namespace Reader

variable {α β : Type}

theorem takes_pure (a : α) : (pure a).Takes [] a := fun _ _ => rfl

theorem Takes.bind {r : Reader α} {f : α → Reader β} {b b' : Bytes} {a : α} {x : β}
    (first : r.Takes b a) (second : (f a).Takes b' x) : (r >>= f).Takes (b ++ b') x := by
  intro offset rest
  change Reader.bind r f _ = _
  unfold Reader.bind
  rw [List.append_assoc, first offset (b' ++ rest)]
  simp only
  rw [second (offset + b.length) rest, List.length_append, Nat.add_assoc]

/-- What follows may take no further bytes. -/
theorem Takes.andThen {r : Reader α} {f : α → Reader β} {b : Bytes} {a : α} {x : β}
    (first : r.Takes b a) (second : (f a).Takes [] x) : (r >>= f).Takes b x := by
  have := first.bind second
  rwa [List.append_nil] at this

theorem Takes.map {r : Reader α} {b : Bytes} {a : α} (h : r.Takes b a) (f : α → β) :
    (r >>= fun a => pure (f a)).Takes b (f a) := h.andThen (takes_pure (f a))

/-- The offset itself takes no bytes. -/
theorem takes_offset {f : Nat → Reader β} {b : Bytes} {x : β} (h : ∀ start, (f start).Takes b x) :
    (offset >>= f).Takes b x := fun start rest => h start start rest

theorem takes_byte (b : UInt8) : byte.Takes [b] b := fun _ _ => rfl

theorem takes_take (b : Bytes) : (take b.length).Takes b b := by
  intro offset rest
  simp [take]

theorem takes_text (s : String) : (text (Bytes.ofString s).length).Takes (Bytes.ofString s) s := by
  refine takes_offset fun start => ?_
  refine (takes_take (Bytes.ofString s)).andThen ?_
  rw [Bytes.toString?_ofString]
  exact takes_pure s

theorem takes_int {width : Nat} {value : Int64} (lower : -(256 ^ width / 2 : Nat) ≤ value.toInt)
    (upper : value.toInt < (256 ^ width / 2 : Nat)) :
    (int width).Takes (Bytes.ofInt width value.toInt) value := by
  have body := takes_take (Bytes.ofInt width value.toInt)
  rw [Bytes.length_ofInt] at body
  have := body.map fun b => Int64.ofInt (Bytes.toInt b)
  rwa [Bytes.toInt_ofInt lower upper, Int64.ofInt_toInt] at this

end Reader

/-! ## Variable-length integers -/

namespace Varint

/-- The digits of a number are read on after others, if all of them together have 64 bits. -/
theorem readFrom_digits (rest : Bytes) (value : Nat) {more used n : Nat} (ten : used + more = 9)
    (small : n < 2 ^ (64 - 7 * used)) :
    readFrom used value (digits more n ++ rest) =
      .complete (UInt64.ofNat (value + n * 2 ^ (7 * used))) (used + (digits more n).length) := by
  -- `used` and `more` always make up nine, so that the tenth digit is the last one
  induction more generalizing used value n with
  | zero =>
    obtain rfl : used = 9 := ten
    have digit : (UInt8.ofNat n).toNat = n := by
      rw [UInt8.toNat_ofNat']
      omega
    simp only [digits, List.cons_append, readFrom, digit, Nat.shiftLeft_eq]
    rw [if_neg (by omega), if_pos (by omega), Nat.mod_eq_of_lt (by omega)]
    rfl
  | succ more ih =>
    have le : used ≤ 8 := by omega
    rw [digits]
    split
    · rename_i single
      have digit : (UInt8.ofNat n).toNat = n := by
        rw [UInt8.toNat_ofNat']
        omega
      simp only [List.cons_append, readFrom, digit, Nat.shiftLeft_eq]
      rw [if_neg (by omega), if_pos single, Nat.mod_eq_of_lt single]
      rfl
    · rename_i several
      have digit : (UInt8.ofNat (n % 128 + 128)).toNat = n % 128 + 128 := by
        rw [UInt8.toNat_ofNat']
        omega
      have split : n * 2 ^ (7 * used) =
          n % 128 * 2 ^ (7 * used) + n / 128 * 2 ^ (7 * (used + 1)) := by
        have parts : 128 * (n / 128) + n % 128 = n := Nat.div_add_mod n 128
        calc n * 2 ^ (7 * used)
          _ = (128 * (n / 128) + n % 128) * 2 ^ (7 * used) := by rw [parts]
          _ = n % 128 * 2 ^ (7 * used) + n / 128 * (2 ^ (7 * used) * 2 ^ 7) := by ring
          _ = _ := by rw [← Nat.pow_add, Nat.mul_succ]
      have fewer : n / 128 < 2 ^ (64 - 7 * (used + 1)) := by
        rw [Nat.div_lt_iff_lt_mul (by decide), show (128 : Nat) = 2 ^ 7 by decide, ← Nat.pow_add]
        rwa [show 64 - 7 * (used + 1) + 7 = 64 - 7 * used by omega]
      simp only [List.cons_append, readFrom, digit, Nat.shiftLeft_eq]
      rw [if_neg (by omega), if_neg (by omega), ih _ (by omega) fewer, split]
      have : (n % 128 + 128) % 128 = n % 128 := by omega
      rw [this, List.length_cons]
      congr 1
      · rw [Nat.add_assoc]
      · omega

theorem read_encode (v : UInt64) (rest : Bytes) :
    read (encode v ++ rest) = .complete v (encode v).length := by
  have read := readFrom_digits rest 0 (by decide : 0 + 9 = 9) v.toNat_lt
  simpa [Varint.read, encode] using read

end Varint

namespace Reader

theorem takes_varint (v : UInt64) : varint.Takes (Varint.encode v) v := by
  intro offset rest
  simp [varint, Varint.read_encode]

theorem takes_length {n : Nat} (le : n ≤ maxLength) :
    length.Takes (Varint.encode (UInt64.ofNat n)) n := by
  have small : (UInt64.ofNat n).toNat = n := by
    rw [UInt64.toNat_ofNat']
    exact Nat.mod_eq_of_lt (Nat.lt_of_le_of_lt le (by decide))
  refine takes_offset fun start => ?_
  refine (takes_varint (UInt64.ofNat n)).andThen ?_
  rw [small, if_pos le]
  exact takes_pure n

end Reader

/-! ## Tokens -/

namespace Token

theorem takes_read {tag : UInt8} {b : Bytes} {token : Token}
    (h : ∀ start, (afterTag tag start).Takes b token) : read.Takes (tag :: b) token :=
  Reader.takes_offset fun start => (Reader.takes_byte tag).bind (h start)

variable {n : Nat}

theorem toNat_tag {short : UInt8} (fits : short.toNat + n < 256) :
    (short + UInt8.ofNat n).toNat = short.toNat + n := by
  rw [UInt8.toNat_add, UInt8.toNat_ofNat', Nat.mod_eq_of_lt (by omega : n < 2 ^ 8)]
  exact Nat.mod_eq_of_lt fits

theorem afterTag_text (short : n ≤ 31) (start : Nat) :
    afterTag (0x03 + UInt8.ofNat n) start =
      Reader.text n >>= fun s => Reader.pure (leaf (.text s)) := by
  have tag : (0x03 + UInt8.ofNat n : UInt8).toNat = 3 + n := toNat_tag (by simpa using by omega)
  unfold afterTag
  dsimp only
  rw [tag]
  repeat rw [if_neg (by omega)]
  rw [if_pos (by omega), Nat.add_sub_cancel_left]

theorem afterTag_bytes (short : n ≤ 31) (start : Nat) :
    afterTag (0x24 + UInt8.ofNat n) start =
      Reader.take n >>= fun b => Reader.pure (leaf (.bytes b)) := by
  have tag : (0x24 + UInt8.ofNat n : UInt8).toNat = 36 + n := toNat_tag (by simpa using by omega)
  unfold afterTag
  dsimp only
  rw [tag]
  repeat rw [if_neg (by omega)]
  rw [if_pos (by omega), Nat.add_sub_cancel_left]

theorem afterTag_list (short : n ≤ 15) (start : Nat) :
    afterTag (0x45 + UInt8.ofNat n) start = Reader.pure (head .list n) := by
  have tag : (0x45 + UInt8.ofNat n : UInt8).toNat = 69 + n := toNat_tag (by simpa using by omega)
  unfold afterTag
  dsimp only
  rw [tag]
  repeat rw [if_neg (by omega)]
  rw [if_pos (by omega), Nat.add_sub_cancel_left]

theorem afterTag_map (short : n ≤ 15) (start : Nat) :
    afterTag (0x56 + UInt8.ofNat n) start = Reader.pure (head .map (2 * n)) := by
  have tag : (0x56 + UInt8.ofNat n : UInt8).toNat = 86 + n := toNat_tag (by simpa using by omega)
  unfold afterTag
  dsimp only
  rw [tag]
  repeat rw [if_neg (by omega)]
  rw [if_pos (by omega), Nat.add_sub_cancel_left]

/-- A length in the tag and a length behind it mean the same. -/
theorem takes_encodeLength {short long : UInt8} {most : Nat} {r : Nat → Reader Token} {b : Bytes}
    {token : Token} (inTag : n ≤ most → ∀ start, afterTag (short + UInt8.ofNat n) start = r n)
    (behind : ∀ start, afterTag long start = Reader.length >>= r) (le : n ≤ maxLength)
    (h : (r n).Takes b token) : read.Takes (encodeLength short long most n ++ b) token := by
  unfold encodeLength
  split
  · rename_i fits
    refine takes_read fun start => ?_
    rw [inTag fits start]
    exact h
  · refine takes_read fun start => ?_
    rw [behind start]
    exact (Reader.takes_length le).bind h

theorem takes_encodeText {s : String} (le : (Bytes.ofString s).length ≤ maxLength) :
    read.Takes (encodeText s) (leaf (.text s)) :=
  takes_encodeLength afterTag_text (fun _ => rfl) le
    ((Reader.takes_text s).map fun s => leaf (.text s))

theorem takes_encodeBytes {b : Bytes} (le : b.length ≤ maxLength) :
    read.Takes (encodeBytes b) (leaf (.bytes b)) :=
  takes_encodeLength afterTag_bytes (fun _ => rfl) le
    ((Reader.takes_take b).map fun b => leaf (.bytes b))

theorem takes_encodeListCount (le : n ≤ maxLength) :
    read.Takes (encodeListCount n) (head .list n) := by
  have behind (start : Nat) : afterTag 0x55 start =
      Reader.length >>= fun n => Reader.pure (head .list n) := rfl
  have := takes_encodeLength afterTag_list behind le (Reader.takes_pure _)
  rwa [List.append_nil] at this

theorem takes_encodeMapCount (le : n ≤ maxLength) :
    read.Takes (encodeMapCount n) (head .map (2 * n)) := by
  have behind (start : Nat) : afterTag 0x66 start =
      Reader.length >>= fun n => Reader.pure (head .map (2 * n)) := rfl
  have := takes_encodeLength afterTag_map behind le (Reader.takes_pure _)
  rwa [List.append_nil] at this

theorem takes_encodeInt (value : Int64) : read.Takes (encodeInt value) (leaf (.int value)) := by
  have lower := value.le_toInt
  have upper := value.toInt_lt
  -- the five ranges, from the widest tag to the widest body
  have wide {width : Nat} {tag : UInt8}
      (reads : ∀ start, afterTag tag start =
        Reader.int width >>= fun i => Reader.pure (leaf (.int i)))
      (low : -(256 ^ width / 2 : Nat) ≤ value.toInt) (high : value.toInt < (256 ^ width / 2 : Nat)) :
      read.Takes (tag :: Bytes.ofInt width value.toInt) (leaf (.int value)) :=
    takes_read fun start => reads start ▸ (Reader.takes_int low high).map fun i => leaf (.int i)
  unfold encodeInt
  simp only
  split
  · rename_i small
    refine takes_read fun start => ?_
    have tag : (UInt8.ofNat (value.toInt + 0xC0).toNat).toNat = (value.toInt + 0xC0).toNat := by
      rw [UInt8.toNat_ofNat']
      omega
    have value' : Int64.ofInt (((value.toInt + 0xC0).toNat : Int) - 0xC0) = value := by
      rw [Int.toNat_of_nonneg (by omega), Int.add_sub_cancel, Int64.ofInt_toInt]
    unfold afterTag
    dsimp only
    rw [tag]
    repeat rw [if_neg (by omega)]
    rw [value']
    exact Reader.takes_pure _
  · split
    · exact wide (fun _ => rfl) (by omega) (by omega)
    · split
      · exact wide (fun _ => rfl) (by omega) (by omega)
      · split
        · exact wide (fun _ => rfl) (by omega) (by omega)
        · exact wide (fun _ => rfl) (by omega) (by omega)

theorem takes_encodeFloat (value : Float) :
    read.Takes (encodeFloat value) (leaf (.float value)) := by
  have body {width n : Nat} {tag : UInt8} {f : Nat → Float}
      (reads : ∀ start, afterTag tag start =
        Reader.take width >>= fun b => Reader.pure (leaf (.float (f (Bytes.toNat b)))))
      (small : n < 256 ^ width) (same : f n = value) :
      read.Takes (tag :: Bytes.ofNat width n) (leaf (.float value)) := by
    refine takes_read fun start => ?_
    have taken := Reader.takes_take (Bytes.ofNat width n)
    rw [Bytes.length_ofNat] at taken
    have := taken.map fun b => leaf (.float (f (Bytes.toNat b)))
    rwa [Bytes.toNat_ofNat_of_lt small, same, ← reads start] at this
  unfold encodeFloat
  split
  · rename_i pattern narrow
    refine body (f := fun n => Binary32.toFloat (UInt32.ofNat n)) (fun _ => rfl) pattern.toNat_lt ?_
    rw [UInt32.ofNat_toNat]
    exact Binary32.toFloat_of_ofFloat? narrow
  · refine body (f := fun n => Float.ofBits (UInt64.ofNat n)) (fun _ => rfl) value.toBits.toNat_lt ?_
    rw [UInt64.ofNat_toNat, ofBits_toBits]

end Token

/-! ## Packed differences -/

/-- The widths in which differences are packed. -/
def IsWidth (width : Nat) : Prop := width = 1 ∨ width = 2 ∨ width = 4 ∨ width = 8

namespace DeltaVector

variable {width : Nat} {delta : Int64} {deltas : List Int64}

/-- A width is wide enough for a difference exactly when two's complement of that width holds it. -/
theorem widthOf_le_iff (valid : IsWidth width) : widthOf delta ≤ width ↔
    -(256 ^ width / 2 : Nat) ≤ delta.toInt ∧ delta.toInt < (256 ^ width / 2 : Nat) := by
  have lower := delta.le_toInt
  have upper := delta.toInt_lt
  unfold widthOf
  simp only
  rcases valid with rfl | rfl | rfl | rfl
  all_goals
    repeat' split
    all_goals omega

theorem isWidth_widthOf (delta : Int64) : IsWidth (widthOf delta) := by
  unfold widthOf IsWidth
  simp only
  repeat' split
  all_goals omega

/-- The widest of some widths is a width, and the least one that is not smaller than any of them. -/
theorem foldl_widthOf (deltas : List Int64) (valid : IsWidth width) :
    let widest := deltas.foldl (fun width delta => max width (widthOf delta)) width
    IsWidth widest ∧
      ∀ bound, widest ≤ bound ↔ width ≤ bound ∧ ∀ delta ∈ deltas, widthOf delta ≤ bound := by
  induction deltas generalizing width with
  | nil => exact ⟨valid, fun bound => by simp⟩
  | cons delta rest ih =>
    have wider : IsWidth (max width (widthOf delta)) := by
      rcases Nat.le_total width (widthOf delta) with le | le
      · rw [Nat.max_eq_right le]
        exact isWidth_widthOf delta
      · rwa [Nat.max_eq_left le]
    obtain ⟨widest, least⟩ := ih wider
    refine ⟨widest, fun bound => ?_⟩
    rw [List.foldl_cons, least bound, Nat.max_le, List.forall_mem_cons, and_assoc]

theorem isWidth_width (v : DeltaVector) : IsWidth v.width :=
  (foldl_widthOf v.deltas (.inl rfl)).1

theorem width_le_iff {v : DeltaVector} (some : 1 ≤ width) :
    v.width ≤ width ↔ ∀ delta ∈ v.deltas, widthOf delta ≤ width := by
  unfold DeltaVector.width
  rw [(foldl_widthOf v.deltas (.inl rfl)).2 width]
  exact and_iff_right some

end DeltaVector

open DeltaVector

theorem unpackInts_flatMap {width : Nat} {deltas : List Int64} (valid : IsWidth width)
    (wide : ∀ delta ∈ deltas, widthOf delta ≤ width) :
    unpackInts width deltas.length (deltas.flatMap fun delta => Bytes.ofInt width delta.toInt) =
      deltas := by
  induction deltas with
  | nil => rfl
  | cons delta rest ih =>
    obtain ⟨first, others⟩ := List.forall_mem_cons.mp wide
    obtain ⟨lower, upper⟩ := (widthOf_le_iff valid).mp first
    have long : (Bytes.ofInt width delta.toInt).length = width := Bytes.length_ofInt ..
    rw [List.length_cons, List.flatMap_cons, unpackInts, List.take_left' long,
      List.drop_left' long, ih others, Bytes.toInt_ofInt lower upper, Int64.ofInt_toInt]

/-- The differences of a vector are read back. -/
theorem takes_readDeltas {v : DeltaVector} (few : v.deltas.length < maxVectorSamples)
    (short : v.deltas.length * v.width ≤ maxLength) :
    readDeltas.Takes (UInt8.ofNat v.width :: (Varint.encode (UInt64.ofNat v.deltas.length) ++
      v.deltas.flatMap fun delta => Bytes.ofInt v.width delta.toInt)) v.deltas := by
  have valid : v.width = 1 ∨ v.width = 2 ∨ v.width = 4 ∨ v.width = 8 := v.isWidth_width
  have wide : ∀ delta ∈ v.deltas, widthOf delta ≤ v.width :=
    (width_le_iff (by omega)).mp (Nat.le_refl _)
  have digit : (UInt8.ofNat v.width).toNat = v.width := by
    rw [UInt8.toNat_ofNat']
    omega
  have count : v.deltas.length ≤ maxLength := Nat.le_trans (Nat.le_of_lt few) (by decide)
  have packed := Reader.takes_take (v.deltas.flatMap fun delta => Bytes.ofInt v.width delta.toInt)
  rw [List.length_flatMap] at packed
  simp only [Bytes.length_ofInt, List.map_const', List.sum_replicate_nat] at packed
  refine Reader.takes_offset fun start => (Reader.takes_byte _).bind ?_
  rw [digit, if_pos valid]
  refine Reader.takes_offset fun countStart => (Reader.takes_length count).bind ?_
  rw [if_neg (Nat.not_le.mpr few), if_neg (Nat.not_lt.mpr short)]
  refine packed.andThen ?_
  rw [unpackInts_flatMap valid wide]
  exact Reader.takes_pure _

end Telemetry.Bysant
