import Mathlib.Algebra.BigOperators.Ring.List
import Mathlib.Order.Bounds.Defs
import Telemetry.Proofs.Bysant.Scalars
/-!
# Running sums and delta vectors

Compressed vectors stand for running sums. As additions and multiplications within 64 bits lose
multiples of 2 ^ 64 only, a running sum of integers is the exact sum, taken within 64 bits once at its
end, and every sample has a closed form. The differences of a delta vector go over the line in as many
bytes as the widest of them needs, and come back with their signs.
-/

namespace Telemetry.Bysant

/-! ## Running sums -/

namespace Number

/-- An integer within 64 bits, in two's complement. -/
def wrap (i : Int) : Number := .int (Int64.ofInt i)

theorem int_eq_wrap (i : Int64) : int i = wrap i.toInt := by
  rw [wrap, Int64.ofInt_toInt]

theorem wrap_add_wrap (a b : Int) : wrap a + wrap b = wrap (a + b) :=
  congrArg int (Int64.ofInt_add a b).symm

theorem wrap_mul_wrap (a b : Int) : wrap a * wrap b = wrap (a * b) :=
  congrArg int (Int64.ofInt_mul a b).symm

/-- It is enough to stay within 64 bits at the end. -/
theorem foldl_add_wrap (start : Int) (steps : List Int) :
    (steps.map wrap).foldl (· + ·) (wrap start) = wrap (start + steps.sum) := by
  induction steps generalizing start with
  | nil => simp
  | cons step rest ih =>
    rw [List.map_cons, List.foldl_cons, wrap_add_wrap, ih, List.sum_cons, Int.add_assoc]

/-- A running sum of integers has reached the sum of the steps so far. -/
theorem getElem?_scanl_wrap (start : Int) (steps : List Int) {k : Nat} (inside : k ≤ steps.length) :
    ((steps.map wrap).scanl (· + ·) (wrap start))[k]? =
      some (wrap (start + (steps.take k).sum)) := by
  rw [List.getElem?_scanl, if_pos (by simpa using inside), ← List.map_take, foldl_add_wrap]

end Number

/-! ## Delta vectors -/

namespace DeltaVector

variable {width : Nat} {delta : Int64} {deltas : List Int64}

theorem cons_samplesAfter (factor last : Number) (deltas : List Int64) :
    last :: samplesAfter factor last deltas =
      (deltas.map fun delta => .int delta * factor).scanl (· + ·) last := by
  induction deltas generalizing last with
  | nil => rfl
  | cons delta rest ih => rw [samplesAfter, ih, List.map_cons, List.scanl_cons]

/-- The samples are a running sum of scaled differences. -/
theorem samples_eq_scanl (v : DeltaVector) : v.samples =
    (v.deltas.map fun delta => .int delta * v.factor).scanl (· + ·) (v.start * v.factor) :=
  cons_samplesAfter ..

@[simp] theorem length_samples (v : DeltaVector) : v.samples.length = v.size := by
  rw [samples_eq_scanl, List.length_scanl, List.length_map]
  rfl

/-- Whoever wants only some samples is given the same ones. -/
theorem take_eq (n : Nat) (v : DeltaVector) : v.take n = v.samples.take n := by
  cases n with
  | zero => rfl
  | succ n =>
    rw [DeltaVector.take, samples_eq_scanl, cons_samplesAfter, List.take_scanl, List.take_scanl,
      ← List.map_take, ← List.map_take, List.take_take, Nat.min_eq_left (Nat.le_succ n)]

/-- Scaling term by term is scaling the sum. -/
theorem getElem?_samples (factor start : Int64) (deltas : List Int64) {k : Nat}
    (inside : k ≤ deltas.length) : (⟨.int factor, .int start, deltas⟩ : DeltaVector).samples[k]? =
      some (.wrap (factor.toInt * (start.toInt + ((deltas.take k).map Int64.toInt).sum))) := by
  have steps : (deltas.map fun delta => Number.int delta * .int factor) =
      (deltas.map fun delta => delta.toInt * factor.toInt).map .wrap := by
    rw [List.map_map]
    refine List.map_congr_left fun delta _ => ?_
    rw [Number.int_eq_wrap, Number.int_eq_wrap factor, Number.wrap_mul_wrap]
    rfl
  have scaled : ((deltas.map fun delta => delta.toInt * factor.toInt).take k).sum =
      factor.toInt * ((deltas.take k).map Int64.toInt).sum := by
    rw [← List.map_take, List.sum_map_mul_right, Int.mul_comm]
  rw [samples_eq_scanl]
  dsimp only
  rw [steps, Number.int_eq_wrap, Number.int_eq_wrap factor, Number.wrap_mul_wrap,
    Number.getElem?_scanl_wrap _ _ (by rwa [List.length_map]), scaled, Int.mul_add,
    Int.mul_comm start.toInt]

/-! ### Differences over the line -/

/-- The low bytes of a difference, of the eight that it has. -/
def narrow (width : Nat) (delta : Int64) : Bytes := (Bytes.ofInt 8 delta.toInt).drop (8 - width)

/-- The difference that bytes hold when their sign is carried on to eight bytes. -/
def widen (b : Bytes) : Int64 := Int64.ofInt (Bytes.toInt (Bytes.signExtend 8 b))

/-- Two's complement of a width holds the difference. -/
def Fits (width : Nat) (delta : Int64) : Prop :=
  -2 ^ (8 * width - 1) ≤ delta.toInt ∧ delta.toInt < 2 ^ (8 * width - 1)

/-- What is sent of a vector behind its two numbers: how many bytes a difference takes, how many
differences there are, and the low bytes of each. -/
def packed (v : DeltaVector) : Bytes :=
  UInt8.ofNat v.width :: (Varint.encode (UInt64.ofNat v.deltas.length) ++
    v.deltas.flatMap (narrow v.width))

theorem narrow_eq (valid : IsWidth width) (delta : Int64) :
    narrow width delta = Bytes.ofInt width delta.toInt := by
  have parts : 8 = 8 - width + width := by
    unfold IsWidth at valid
    omega
  have cut := Bytes.drop_ofInt (8 - width) width delta.toInt
  rwa [← parts] at cut

theorem widen_eq {b : Bytes} (valid : IsWidth b.length) :
    widen b = Int64.ofInt (Bytes.toInt b) := by
  unfold IsWidth at valid
  have some : b ≠ [] := by
    rintro rfl
    simp at valid
  rw [widen, Bytes.toInt_signExtend some (by omega)]

theorem fits_iff (valid : IsWidth width) : Fits width delta ↔ widthOf delta ≤ width := by
  rw [widthOf_le_iff valid, Fits]
  rcases valid with rfl | rfl | rfl | rfl <;> simp

theorem widen_narrow (valid : IsWidth width) (fits : Fits width delta) :
    widen (narrow width delta) = delta := by
  obtain ⟨lower, upper⟩ := (widthOf_le_iff valid).mp ((fits_iff valid).mp fits)
  rw [narrow_eq valid, widen_eq (by rwa [Bytes.length_ofInt]), Bytes.toInt_ofInt lower upper,
    Int64.ofInt_toInt]

/-- The width of a vector is the least that holds all of its differences. -/
theorem isLeast_width (v : DeltaVector) :
    IsLeast {width | IsWidth width ∧ ∀ delta ∈ v.deltas, Fits width delta} v.width := by
  have iff {width : Nat} (valid : IsWidth width) :
      v.width ≤ width ↔ ∀ delta ∈ v.deltas, Fits width delta := by
    rw [width_le_iff (by unfold IsWidth at valid; omega)]
    exact forall₂_congr fun delta _ => (fits_iff valid).symm
  exact ⟨⟨v.isWidth_width, (iff v.isWidth_width).mp (Nat.le_refl _)⟩,
    fun width ⟨valid, fits⟩ => (iff valid).mpr fits⟩

theorem encodeDelta_eq (v : DeltaVector) :
    encodeDelta v = 0x6D :: (encodeNumber v.factor ++ encodeNumber v.start ++ v.packed) := by
  rw [packed, funext (narrow_eq v.isWidth_width)]
  rfl

/-- Every piece is widened on its own. -/
theorem unpackInts_eq {count : Nat} {b : Bytes} (valid : IsWidth width)
    (long : b.length = count * width) :
    unpackInts width count b = (Bytes.pieces width count b).map widen := by
  induction count generalizing b with
  | zero => rfl
  | succ count ih =>
    rw [Nat.succ_mul] at long
    have piece : (b.take width).length = width := by
      rw [List.length_take]
      omega
    rw [unpackInts, Bytes.pieces, List.map_cons, widen_eq (by rwa [piece]),
      ih (by rw [List.length_drop]; omega)]

/-- The samples of a vector of integers are scaled sums of its start and the differences so far, one
more than there are differences. Differences are sent in the least of the widths that hold them all,
each as the low bytes of its eight. Widened again, which is what the reader does, they are the same
differences, and the reader takes them from what the encoder wrote unless they are too many for it. -/
theorem samples_and_packing (factor start : Int64) (deltas : List Int64) :
    let v : DeltaVector := ⟨.int factor, .int start, deltas⟩
    let sent : Bytes := deltas.flatMap (narrow v.width)
    (v.size = deltas.length + 1 ∧ v.samples.length = v.size ∧
      (∀ n, v.take n = v.samples.take n) ∧
      ∀ k ≤ deltas.length, v.samples[k]? =
        some (.wrap (factor.toInt * (start.toInt + ((deltas.take k).map Int64.toInt).sum)))) ∧
    IsLeast {width | IsWidth width ∧ ∀ delta ∈ deltas, Fits width delta} v.width ∧
    (deltas.map fun delta => widen (narrow v.width delta)) = deltas ∧
    encodeDelta v = 0x6D :: (encodeNumber v.factor ++ encodeNumber v.start ++ v.packed) ∧
    unpackInts v.width deltas.length sent = (Bytes.pieces v.width deltas.length sent).map widen ∧
    unpackInts v.width deltas.length sent = deltas ∧
    (deltas.length < maxVectorSamples → deltas.length * v.width ≤ maxLength →
      readDeltas.Takes v.packed deltas) := by
  intro v sent
  have least := v.isLeast_width
  have valid : IsWidth v.width := least.1.1
  have fits : ∀ delta ∈ deltas, Fits v.width delta := least.1.2
  have low : narrow v.width = fun delta => Bytes.ofInt v.width delta.toInt :=
    funext (narrow_eq valid)
  have long : sent.length = deltas.length * v.width := by
    simp only [sent, low, List.length_flatMap, Bytes.length_ofInt, List.map_const',
      List.sum_replicate_nat]
  refine ⟨⟨rfl, v.length_samples, (take_eq · v), fun k inside => ?_⟩, least, ?_,
    encodeDelta_eq v, unpackInts_eq valid long, ?_, fun few short => ?_⟩
  · exact getElem?_samples factor start deltas inside
  · rw [List.map_congr_left fun delta member => widen_narrow valid (fits delta member),
      List.map_id']
  · rw [show sent = deltas.flatMap (narrow v.width) from rfl, low]
    exact unpackInts_flatMap valid fun delta member => (fits_iff valid).mp (fits delta member)
  · rw [packed, low]
    exact takes_readDeltas few short

/-- Differences of both signs, one of which takes all of eight bytes. -/
def steepDeltas : List Int64 := [Int64.maxValue, -1]

/-- The last sample has run over the 64 bits, and both differences are read as they were sent. -/
theorem samples_and_packing_steepDeltas :
    let v : DeltaVector := ⟨.int 3, .int Int64.minValue, steepDeltas⟩
    (2 ≤ steepDeltas.length ∧ steepDeltas.length < maxVectorSamples ∧
      steepDeltas.length * v.width ≤ maxLength) ∧
    v.samples[2]? = some (.int (-6)) ∧ readDeltas.Takes v.packed steepDeltas := by
  intro v
  have limits : 2 ≤ steepDeltas.length ∧ steepDeltas.length < maxVectorSamples ∧
      steepDeltas.length * v.width ≤ maxLength := by decide
  obtain ⟨⟨-, -, -, values⟩, -, -, -, -, -, taken⟩ :=
    samples_and_packing 3 Int64.minValue steepDeltas
  exact ⟨limits, values 2 limits.1, taken limits.2.1 limits.2.2⟩

end DeltaVector

end Telemetry.Bysant
