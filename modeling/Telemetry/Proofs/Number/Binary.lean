import Mathlib.Algebra.Ring.Nat
import Telemetry.Number.Binary
/-!
# Floats and their bits

A float is determined by its 64 bits, of which there is one pattern for NaN. Its fraction is cut off
as the logical model of floats does it. Where the 32-bit format has a pattern for a float, that
pattern widens to the same 64 bits: infinities and NaN, the normal numbers, the small numbers that
are subnormal in 32 bits only, and the zeros. Whatever a pattern widens to is a float that has a
pattern.
-/

namespace Telemetry

open Float.Model (Format)

open Float.Model.UnpackedFloat

/-! ## Packing

That packing undoes unpacking is also known to the library, but only where all of it is imported. -/

/-- A pattern is made of its sign, exponent field and fraction. -/
theorem packComponents_unpack (b : BitVec Format.binary64.numBits) :
    packComponents .binary64 (Sign.ofBitVec (unpackSign b)) (unpackExponent b) (unpackMantissa b) =
      b := by
  have sign : (Sign.ofBitVec (unpackSign b)).toBitVec = unpackSign b := by
    generalize unpackSign b = bit
    revert bit
    decide
  have front : b.extractLsb' 63 1 ++ b.extractLsb' 52 11 = b.extractLsb' 52 12 :=
    BitVec.extractLsb'_append_extractLsb'_eq_extractLsb' rfl
  have all : b.extractLsb' 52 12 ++ b.extractLsb' 0 52 = b.extractLsb' 0 64 :=
    BitVec.extractLsb'_append_extractLsb'_eq_extractLsb' rfl
  rw [packComponents, sign]
  show (b.extractLsb' 63 1 ++ b.extractLsb' 52 11) ++ b.extractLsb' 0 52 = b
  rw [front, all]
  exact BitVec.extractLsb'_eq_self

/-- How a float with a positive significand is packed. -/
theorem pack_finite (sign : Sign) (m : Nat) (e : Int) (positive : 0 < m) :
    pack .binary64 (.finite sign m e positive) =
      let biased := (e + Format.binary64.exponentBias +
        Format.binary64.mantissaBitsWithoutImplicit).toNat
      if 2 ^ Format.binary64.exponentBits ≤ biased + 1 then packedInfinity .binary64 sign
      else if m.log2 + 1 = Format.binary64.mantissaBits then
        packComponents .binary64 sign (.ofNat _ biased) (.ofNat _ m)
      else packComponents .binary64 sign 0#_ (.ofNat _ m) := rfl

/-- What is unpacked from a pattern is packed into the same, unless it is NaN. -/
theorem pack_unpack (b : BitVec Format.binary64.numBits) :
    pack .binary64 (unpack .binary64 b) = b ∨
      (unpackExponent b = -1#_ ∧ unpackMantissa b ≠ 0#_) ∧
        pack .binary64 (unpack .binary64 b) = packedNaN .binary64 := by
  have whole := packComponents_unpack b
  have bias : (Format.binary64.exponentBias : Int) = 1023 := rfl
  have width : (Format.binary64.mantissaBitsWithoutImplicit : Int) = 52 := rfl
  have inside : (unpackMantissa b).toNat < 2 ^ 52 := (unpackMantissa b).isLt
  delta unpack
  dsimp only
  by_cases special : unpackExponent b = -1#_
  · rw [if_pos special]
    by_cases fraction : unpackMantissa b = 0#_
    · rw [if_pos fraction]
      rw [special, fraction] at whole
      exact .inl whole
    · rw [if_neg fraction]
      exact .inr ⟨⟨special, fraction⟩, rfl⟩
  rw [if_neg special]
  left
  by_cases small : unpackExponent b = 0#_
  · rw [if_pos small]
    by_cases fraction : unpackMantissa b = 0#_
    · rw [dif_pos fraction]
      rw [small, fraction] at whole
      exact whole
    · rw [dif_neg fraction]
      have biased : ((unpackExponent b).toNat - ((Format.binary64.exponentBias : Int) +
          Format.binary64.mantissaBitsWithoutImplicit) + 1 + Format.binary64.exponentBias +
          Format.binary64.mantissaBitsWithoutImplicit).toNat = 1 := by
        rw [small, bias, width]
        rfl
      have low : (unpackMantissa b).toNat.log2 + 1 ≠ Format.binary64.mantissaBits := by
        have positive : (unpackMantissa b).toNat ≠ 0 := by
          intro zero
          exact fraction (BitVec.toNat_inj.mp zero)
        have := (Nat.log2_lt positive).mpr inside
        have : Format.binary64.mantissaBits = 53 := rfl
        omega
      rw [small] at whole
      rw [pack_finite]
      simp only [biased, low, if_false, BitVec.ofNat_toNat, BitVec.setWidth_eq]
      exact whole
  · rw [if_neg small]
    have biased : ((unpackExponent b).toNat - ((Format.binary64.exponentBias : Int) +
        Format.binary64.mantissaBitsWithoutImplicit) + Format.binary64.exponentBias +
        Format.binary64.mantissaBitsWithoutImplicit).toNat = (unpackExponent b).toNat := by
      omega
    have front : (1#1 ++ unpackMantissa b).toNat = 2 ^ 52 + (unpackMantissa b).toNat := by
      rw [BitVec.toNat_append, ← Nat.shiftLeft_add_eq_or_of_lt (unpackMantissa b).isLt]
      rfl
    have high : (1#1 ++ unpackMantissa b).toNat.log2 + 1 = Format.binary64.mantissaBits := by
      have log : (2 ^ 52 + (unpackMantissa b).toNat).log2 = 52 := by
        rw [Nat.log2_eq_iff (by omega)]
        omega
      rw [front, log]
      rfl
    have short : ¬ 2 ^ Format.binary64.exponentBits ≤ (unpackExponent b).toNat + 1 := by
      intro long
      apply special
      apply BitVec.eq_of_toNat_eq
      have field : (unpackExponent b).toNat < 2 ^ 11 := (unpackExponent b).isLt
      show (unpackExponent b).toNat = 2047
      have long : 2 ^ 11 ≤ (unpackExponent b).toNat + 1 := long
      omega
    have fraction : BitVec.ofNat 52 (1#1 ++ unpackMantissa b).toNat = unpackMantissa b := by
      apply BitVec.eq_of_toNat_eq
      rw [BitVec.toNat_ofNat, front]
      omega
    rw [pack_finite]
    simp only [biased, short, high, if_true, if_false, BitVec.ofNat_toNat, BitVec.setWidth_eq]
    exact (congrArg _ fraction).trans whole

/-- A float that is made of 64 bits keeps them, unless it becomes NaN. -/
theorem toBits_ofBits (b : UInt64) :
    (Float.ofBits b).toBits = b ∨ (Float.ofBits b).toBits = 0x7FF8000000000000 := by
  rcases pack_unpack b.toBitVec with same | ⟨-, nan⟩
  · exact .inl (UInt64.toBitVec_inj.mp same)
  · exact .inr (UInt64.toBitVec_inj.mp (nan.trans (by decide)))

theorem ofBits_toBits (x : Float) : Float.ofBits x.toBits = x := by
  have same : pack .binary64 (unpack .binary64 x.toBits.toBitVec) = x.toBits.toBitVec := by
    rcases pack_unpack x.toBits.toBitVec with same | ⟨⟨special, fraction⟩, nan⟩
    · exact same
    · exact nan.trans (x.toModel.valid.eq_packedNaN special fraction).symm
  obtain ⟨⟨bits, valid⟩⟩ := x
  have same : UInt64.ofBitVec (pack .binary64 (unpack .binary64 bits.toBitVec)) = bits :=
    UInt64.toBitVec_inj.mp same
  show Float.ofModel (Float.Model.pack _) = _
  unfold Float.Model.pack
  congr

/-! ## Truncation -/

namespace Binary

theorem mantissa_shiftRight (m : ExtendedMantissa) (n : Nat) :
    (m >>> n).mantissa = m.mantissa / 2 ^ n := by
  show (n.repeat ExtendedMantissa.shiftRightOne m).mantissa = _
  induction n with
  | zero =>
    rw [Nat.pow_zero, Nat.div_one]
    rfl
  | succ n ih =>
    rw [Nat.repeat, ExtendedMantissa.shiftRightOne, ih, Nat.div_div_eq_div_mul, Nat.pow_succ]

/-- The sign of a float. -/
def signOf (negative : Bool) : Sign := if negative then .negative else .positive

theorem roundToInt_eq (b : Binary) : roundToInt (signOf b.negative) b.significand b.exponent =
    if b.negative then -(b.magnitude : Int) else b.magnitude := by
  have shifted (m : Nat) (e target : Int) : (shiftToExponent m e .exact target).1.mantissa =
      m / 2 ^ (target - e).toNat := mantissa_shiftRight _ _
  have applied (n : Nat) : (signOf b.negative).apply n = if b.negative then -(n : Int) else n := by
    unfold signOf
    cases b.negative <;> rfl
  rw [← applied]
  unfold roundToInt magnitude decreaseExponent
  dsimp only
  rw [shifted]
  by_cases whole : 0 ≤ b.exponent
  · have nothing : (0 - (b.exponent - ((b.exponent - 0).toNat : Int))).toNat = 0 := by omega
    rw [if_pos whole, nothing, Nat.pow_zero, Nat.div_one, Int.sub_zero]
  · have nothing : (b.exponent - 0).toNat = 0 := by omega
    have back : (0 - (b.exponent - ((0 : Nat) : Int))).toNat = (-b.exponent).toNat := by omega
    rw [if_neg whole, nothing, back, Nat.shiftLeft_zero, Nat.shiftRight_eq_div_pow]

variable (x : Float)

theorem toNat_unpackExponent : (@unpackExponent Format.binary64 x.toBits.toBitVec).toNat =
    x.toBits.toNat >>> 52 % 2048 := by
  simp [unpackExponent]

theorem toNat_unpackMantissa : (@unpackMantissa Format.binary64 x.toBits.toBitVec).toNat =
    x.toBits.toNat % (1 <<< 52) := by
  simp [unpackMantissa]

theorem ofBitVec_unpackSign :
    Sign.ofBitVec (@unpackSign Format.binary64 x.toBits.toBitVec) = signOf (isNegative x) := by
  have bound : x.toBits.toNat < 2 ^ 64 := x.toBits.toNat_lt
  have bit : (@unpackSign Format.binary64 x.toBits.toBitVec).toNat =
      x.toBits.toNat >>> 63 := by
    show x.toBits.toNat >>> 63 % 2 = _
    rw [Nat.shiftRight_eq_div_pow]
    omega
  have small : x.toBits.toNat >>> 63 = 0 ∨ x.toBits.toNat >>> 63 = 1 := by
    rw [Nat.shiftRight_eq_div_pow]
    omega
  unfold Sign.ofBitVec signOf isNegative
  simp only [← BitVec.toNat_inj, bit]
  rcases small with zero | one
  · rw [zero]
    rfl
  · rw [one]
    rfl

/-- The integer part of a float in the logical model, from its exact value. -/
theorem toInt_unpack (low high : Int) : x.toModel.unpack.toInt low high =
    match ofFloat? x with
    | some b => if b.negative then -(b.magnitude : Int) else b.magnitude
    | none => if x.isNaN then 0 else if isNegative x then low else high := by
  have bits : x.toModel.toBits = x.toBits := rfl
  have nan : x.isNaN = x.toModel.unpack.isNaN := rfl
  have ones : @unpackExponent Format.binary64 x.toBits.toBitVec = -1#11 ↔
      x.toBits.toNat >>> 52 % 2048 = 2047 := by
    rw [← BitVec.toNat_inj, toNat_unpackExponent]
    rfl
  have zeros : @unpackExponent Format.binary64 x.toBits.toBitVec = 0#11 ↔
      x.toBits.toNat >>> 52 % 2048 = 0 := by
    rw [← BitVec.toNat_inj, toNat_unpackExponent]
    rfl
  have blank : @unpackMantissa Format.binary64 x.toBits.toBitVec = 0#52 ↔
      x.toBits.toNat % (1 <<< 52) = 0 := by
    rw [← BitVec.toNat_inj, toNat_unpackMantissa]
    rfl
  have front (m : BitVec 52) : (1#1 ++ m).toNat = 1 <<< 52 + m.toNat := by
    rw [BitVec.toNat_append, ← Nat.shiftLeft_add_eq_or_of_lt m.isLt]
    rfl
  have nothing (negative : Bool) : (if negative then -(magnitude ⟨negative, 0, -1074⟩ : Int)
      else magnitude ⟨negative, 0, -1074⟩) = 0 := by
    have zero : magnitude ⟨negative, 0, -1074⟩ = 0 := by
      rw [magnitude, Nat.zero_shiftRight]
      rfl
    rw [zero]
    exact ite_self _
  rw [nan, Float.Model.unpack, bits, ofFloat?]
  delta unpack
  dsimp only
  by_cases special : x.toBits.toNat >>> 52 % 2048 = 2047
  · rw [if_pos (ones.mpr special), if_pos special]
    by_cases fraction : x.toBits.toNat % (1 <<< 52) = 0
    · rw [if_pos (blank.mpr fraction), ofBitVec_unpackSign]
      unfold signOf
      cases isNegative x <;> rfl
    · rw [if_neg (mt blank.mp fraction)]
      rfl
  rw [if_neg (mt ones.mp special), if_neg special]
  by_cases small : x.toBits.toNat >>> 52 % 2048 = 0
  · rw [if_pos (zeros.mpr small), if_pos small]
    by_cases fraction : x.toBits.toNat % (1 <<< 52) = 0
    · rw [dif_pos (blank.mpr fraction), fraction]
      exact (nothing _).symm
    · rw [dif_neg (mt blank.mp fraction)]
      refine Eq.trans ?_ (roundToInt_eq ⟨isNegative x, _, _⟩)
      show roundToInt _ _ _ = _
      rw [ofBitVec_unpackSign, toNat_unpackExponent, toNat_unpackMantissa, small]
      rfl
  · rw [if_neg (mt zeros.mp small), if_neg small]
    refine Eq.trans ?_ (roundToInt_eq ⟨isNegative x, _, _⟩)
    show roundToInt _ _ _ = _
    rw [ofBitVec_unpackSign, toNat_unpackExponent, front, toNat_unpackMantissa]
    rfl

/-- Truncation is that of the logical model of floats. -/
theorem truncate64_eq : truncate64 x = x.toModel.toInt64 := by
  have low : Int64.minValue.toInt = -9223372036854775808 := rfl
  have high : Int64.maxValue.toInt = 9223372036854775807 := rfl
  have clamped : x.toModel.toInt64 =
    .ofIntClamp (x.toModel.unpack.toInt Int64.minValue.toInt Int64.maxValue.toInt) := rfl
  rw [clamped, toInt_unpack, truncate64]
  cases ofFloat? x with
  | none =>
    dsimp only
    split
    · rfl
    · split <;> rfl
  | some b =>
    dsimp only
    generalize b.magnitude = size
    unfold Int64.ofIntClamp Int64.ofIntLE
    rw [low, high]
    cases b.negative with
    | true =>
      have below : -(size : Int) ≤ 9223372036854775807 := by omega
      rw [if_pos rfl, if_pos rfl]
      by_cases fits : size ≤ 9223372036854775808
      · have above : -9223372036854775808 ≤ -(size : Int) := by omega
        rw [dif_pos above, dif_pos below, Nat.min_eq_left fits]
      · have beneath : ¬ -9223372036854775808 ≤ -(size : Int) := by omega
        rw [dif_neg beneath, Nat.min_eq_right (by omega)]
        rfl
    | false =>
      have above : -9223372036854775808 ≤ (size : Int) := by omega
      rw [if_neg Bool.false_ne_true, if_neg Bool.false_ne_true, dif_pos above]
      by_cases fits : size ≤ 9223372036854775807
      · have below : (size : Int) ≤ 9223372036854775807 := by omega
        rw [dif_pos below, Nat.min_eq_left fits]
      · have beyond : ¬ (size : Int) ≤ 9223372036854775807 := by omega
        rw [dif_neg beyond, Nat.min_eq_right (by omega)]
        rfl

end Binary

/-! ## The 32-bit format -/

namespace Binary32

/-- The bits that a 32-bit pattern stands for. -/
def widen (pattern : Nat) : Nat :=
  let sign := pattern >>> 31 <<< 63
  let biased := pattern >>> 23 % 256
  let fraction := pattern % (1 <<< 23)
  sign +
    (if biased = 255 then 2047 <<< 52 + fraction <<< 29
    else if biased ≠ 0 then (biased + 896) <<< 52 + fraction <<< 29
    else if fraction = 0 then 0
    else (fraction.log2 + 874) <<< 52 + (fraction - 1 <<< fraction.log2) <<< (52 - fraction.log2))

theorem toFloat_eq (pattern : UInt32) :
    toFloat pattern = Float.ofBits (UInt64.ofNat (widen pattern.toNat)) := rfl

/-- A pattern of sign, exponent field and fraction. -/
theorem widen_special {s f : Nat} (hf : f < 2 ^ 23) :
    widen (s * 2 ^ 31 + 255 * 2 ^ 23 + f) = s * 2 ^ 63 + 2047 * 2 ^ 52 + f * 2 ^ 29 := by
  have sign : (s * 2 ^ 31 + 255 * 2 ^ 23 + f) / 2 ^ 31 = s := by omega
  have biased : (s * 2 ^ 31 + 255 * 2 ^ 23 + f) / 2 ^ 23 % 256 = 255 := by omega
  have fraction : (s * 2 ^ 31 + 255 * 2 ^ 23 + f) % 2 ^ 23 = f := by omega
  simp only [widen, Nat.shiftRight_eq_div_pow, Nat.shiftLeft_eq, Nat.one_mul, sign, biased, fraction]
  rw [if_pos trivial, ← Nat.add_assoc]

theorem widen_normal {s e f : Nat} (he : e < 255) (pos : e ≠ 0) (hf : f < 2 ^ 23) :
    widen (s * 2 ^ 31 + e * 2 ^ 23 + f) = s * 2 ^ 63 + (e + 896) * 2 ^ 52 + f * 2 ^ 29 := by
  have sign : (s * 2 ^ 31 + e * 2 ^ 23 + f) / 2 ^ 31 = s := by omega
  have biased : (s * 2 ^ 31 + e * 2 ^ 23 + f) / 2 ^ 23 % 256 = e := by omega
  have fraction : (s * 2 ^ 31 + e * 2 ^ 23 + f) % 2 ^ 23 = f := by omega
  simp only [widen, Nat.shiftRight_eq_div_pow, Nat.shiftLeft_eq, Nat.one_mul, sign, biased, fraction]
  rw [if_neg (by omega), if_pos pos, ← Nat.add_assoc]

theorem widen_subnormal {s f : Nat} (pos : f ≠ 0) (hf : f < 2 ^ 23) :
    widen (s * 2 ^ 31 + f) =
      s * 2 ^ 63 + (f.log2 + 874) * 2 ^ 52 + (f - 2 ^ f.log2) * 2 ^ (52 - f.log2) := by
  have sign : (s * 2 ^ 31 + f) / 2 ^ 31 = s := by omega
  have biased : (s * 2 ^ 31 + f) / 2 ^ 23 % 256 = 0 := by omega
  have fraction : (s * 2 ^ 31 + f) % 2 ^ 23 = f := by omega
  simp only [widen, Nat.shiftRight_eq_div_pow, Nat.shiftLeft_eq, Nat.one_mul, sign, biased, fraction]
  rw [if_neg (by omega), if_neg (by simp), if_neg pos, ← Nat.add_assoc]

theorem widen_zero (s : Nat) : widen (s * 2 ^ 31) = s * 2 ^ 63 := by
  have sign : s * 2 ^ 31 / 2 ^ 31 = s := by omega
  have biased : s * 2 ^ 31 / 2 ^ 23 % 256 = 0 := by omega
  have fraction : s * 2 ^ 31 % 2 ^ 23 = 0 := by omega
  simp only [widen, Nat.shiftRight_eq_div_pow, Nat.shiftLeft_eq, Nat.one_mul, sign, biased, fraction]
  rw [if_neg (by omega), if_neg (by simp), if_pos trivial, Nat.add_zero]

/-- A number whose bits below the first 53 are zero, cut to the bits above them. -/
theorem log2_div {whole k : Nat} (lower : 2 ^ 52 ≤ whole) (upper : whole < 2 ^ 53) (le : k ≤ 52)
    (even : whole % 2 ^ k = 0) : (whole / 2 ^ k).log2 = 52 - k := by
  have split : 2 ^ (52 - k) * 2 ^ k = 2 ^ 52 := by
    rw [← Nat.pow_add, Nat.sub_add_cancel le]
  have back : whole / 2 ^ k * 2 ^ k = whole := Nat.div_mul_cancel (Nat.dvd_of_mod_eq_zero even)
  have pos : 0 < 2 ^ k := Nat.two_pow_pos k
  have above : 2 ^ (52 - k) ≤ whole / 2 ^ k := by
    apply Nat.le_of_mul_le_mul_right (c := 2 ^ k) _ pos
    omega
  rw [Nat.log2_eq_iff]
  · refine ⟨above, ?_⟩
    apply Nat.lt_of_mul_lt_mul_right (a := 2 ^ k)
    rw [back, Nat.pow_succ, Nat.mul_right_comm, split]
    omega
  · have := Nat.two_pow_pos (52 - k)
    omega

/-- What stands behind the leading bit of such a number is its fraction. -/
theorem fraction_of_div {f k : Nat} (small : f < 2 ^ 52) (le : k ≤ 52)
    (even : (2 ^ 52 + f) % 2 ^ k = 0) :
    ((2 ^ 52 + f) / 2 ^ k - 2 ^ ((2 ^ 52 + f) / 2 ^ k).log2) *
      2 ^ (52 - ((2 ^ 52 + f) / 2 ^ k).log2) = f := by
  have log := log2_div (by omega) (by omega) le even
  have whole := Nat.div_mul_cancel (Nat.dvd_of_mod_eq_zero even)
  have split : 2 ^ (52 - k) * 2 ^ k = 2 ^ 52 := by
    rw [← Nat.pow_add, Nat.sub_add_cancel le]
  have back : 52 - (52 - k) = k := by omega
  rw [log, back, Nat.sub_mul, whole, split, Nat.add_sub_cancel_left]

/-- The pattern found for a float stands for the bits of that float. -/
theorem widen_of_ofFloat? {x : Float} {pattern : UInt32} (h : ofFloat? x = some pattern) :
    widen pattern.toNat = x.toBits.toNat := by
  have bound : x.toBits.toNat < 2 ^ 64 := x.toBits.toNat_lt
  simp only [ofFloat?] at h
  generalize x.toBits.toNat = bits at h bound ⊢
  simp only [Nat.shiftRight_eq_div_pow, Nat.shiftLeft_eq, Nat.one_mul] at h
  have hs : bits / 2 ^ 63 < 2 := by omega
  have parts : bits = bits / 2 ^ 63 * 2 ^ 63 + bits / 2 ^ 52 % 2048 * 2 ^ 52 + bits % 2 ^ 52 := by
    omega
  have hf : bits % 2 ^ 52 < 2 ^ 52 := by omega
  generalize bits / 2 ^ 63 = s at *
  generalize bits / 2 ^ 52 % 2048 = e at *
  generalize bits % 2 ^ 52 = f at *
  have narrow {n : Nat} (small : n < 2 ^ 32) : (UInt32.ofNat n).toNat = n := by
    simp only [UInt32.toNat_ofNat']
    exact Nat.mod_eq_of_lt small
  split at h
  · split at h
    · cases h
      rw [narrow (by omega), widen_special (by omega)]
      omega
    · cases h
  · split at h
    · split at h
      · cases h
        rw [narrow (by omega), widen_normal (by omega) (by omega) (by omega)]
        omega
      · cases h
    · split at h
      · split at h
        · rename_i range even
          cases h
          have le : 926 - e ≤ 52 := by omega
          have log := log2_div (by omega) (by omega) le even
          have whole := Nat.div_mul_cancel (Nat.dvd_of_mod_eq_zero even)
          have rest := fraction_of_div hf le even
          generalize (2 ^ 52 + f) / 2 ^ (926 - e) = q at log whole rest ⊢
          have pos : q ≠ 0 := by
            rintro rfl
            omega
          have small : q < 2 ^ 23 := by
            have : q < 2 ^ (q.log2 + 1) := Nat.lt_log2_self
            exact Nat.lt_of_lt_of_le this (Nat.pow_le_pow_right (by omega) (by omega))
          rw [narrow (by omega), widen_subnormal pos small, rest]
          omega
        · cases h
      · split at h
        · cases h
          rw [narrow (by omega), widen_zero]
          omega
        · cases h

/-- A float that the 32-bit format has is read back from its pattern. -/
theorem toFloat_of_ofFloat? {x : Float} {pattern : UInt32} (h : ofFloat? x = some pattern) :
    toFloat pattern = x := by
  rw [toFloat_eq, widen_of_ofFloat? h, UInt64.ofNat_toNat, ofBits_toBits]

/-- The exponent fields and fractions of those floats that the 32-bit format has. -/
def IsNarrow (biased fraction : Nat) : Prop :=
  biased = 2047 ∧ fraction % 2 ^ 29 = 0 ∨
  897 ≤ biased ∧ biased ≤ 1150 ∧ fraction % 2 ^ 29 = 0 ∨
  874 ≤ biased ∧ biased ≤ 896 ∧ (2 ^ 52 + fraction) % 2 ^ (926 - biased) = 0 ∨
  biased = 0 ∧ fraction = 0

theorem isSome_ofFloat? {x : Float} (s biased fraction : Nat) (field : biased < 2048)
    (inside : fraction < 2 ^ 52) (narrow : IsNarrow biased fraction)
    (bits : x.toBits.toNat = s * 2 ^ 63 + biased * 2 ^ 52 + fraction) : (ofFloat? x).isSome := by
  have exponent : (s * 2 ^ 63 + biased * 2 ^ 52 + fraction) / 2 ^ 52 % 2048 = biased := by omega
  have rest : (s * 2 ^ 63 + biased * 2 ^ 52 + fraction) % 2 ^ 52 = fraction := by omega
  simp only [ofFloat?, bits, Nat.shiftRight_eq_div_pow, Nat.shiftLeft_eq, Nat.one_mul, exponent, rest]
  rcases narrow with ⟨special, even⟩ | ⟨least, most, even⟩ | ⟨least, most, even⟩ | ⟨zero, whole⟩
  · rw [if_pos special, if_pos even]
    rfl
  · rw [if_neg (by omega), if_pos ⟨least, most⟩, if_pos even]
    rfl
  · rw [if_neg (by omega), if_neg (by omega), if_pos ⟨least, most⟩, if_pos even]
    rfl
  · rw [if_neg (by omega), if_neg (by omega), if_neg (by omega), if_pos ⟨zero, whole⟩]
    rfl

/-- A number of at most 23 bits, moved up until its leading bit is the 53rd. -/
theorem sub_log2_mul {f : Nat} (pos : f ≠ 0) (small : f < 2 ^ 23) :
    f.log2 < 23 ∧ 2 ^ 52 + (f - 2 ^ f.log2) * 2 ^ (52 - f.log2) = f * 2 ^ (52 - f.log2) ∧
      (f - 2 ^ f.log2) * 2 ^ (52 - f.log2) < 2 ^ 52 := by
  have log : f.log2 < 23 := (Nat.log2_lt pos).mpr small
  have lower : 2 ^ f.log2 ≤ f := Nat.log2_self_le pos
  have upper : f < 2 ^ f.log2 * 2 := Nat.lt_log2_self
  have split : 2 ^ f.log2 * 2 ^ (52 - f.log2) = 2 ^ 52 := by
    rw [← Nat.pow_add, Nat.add_sub_cancel' (by omega)]
  have moved : f * 2 ^ (52 - f.log2) < 2 ^ 52 * 2 := by
    rw [← split, Nat.mul_right_comm]
    exact Nat.mul_lt_mul_of_pos_right upper (Nat.two_pow_pos _)
  have kept : 2 ^ 52 ≤ f * 2 ^ (52 - f.log2) := by
    rw [← split]
    exact Nat.mul_le_mul_right _ lower
  rw [Nat.sub_mul, split]
  omega

/-- A pattern stands for the bits of a float that the 32-bit format has. -/
theorem widen_isNarrow {pattern : Nat} (small : pattern < 2 ^ 32) : ∃ s biased fraction : Nat,
    s < 2 ∧ biased < 2048 ∧ fraction < 2 ^ 52 ∧ IsNarrow biased fraction ∧
      widen pattern = s * 2 ^ 63 + biased * 2 ^ 52 + fraction := by
  have parts : pattern = pattern / 2 ^ 31 * 2 ^ 31 + pattern / 2 ^ 23 % 256 * 2 ^ 23 +
      pattern % 2 ^ 23 := by omega
  have hs : pattern / 2 ^ 31 < 2 := by omega
  have he : pattern / 2 ^ 23 % 256 < 256 := by omega
  have hf : pattern % 2 ^ 23 < 2 ^ 23 := by omega
  rw [parts]
  generalize pattern / 2 ^ 31 = s at *
  generalize pattern / 2 ^ 23 % 256 = e at *
  generalize pattern % 2 ^ 23 = f at *
  by_cases special : e = 255
  · subst special
    refine ⟨s, 2047, f * 2 ^ 29, hs, by omega, by omega, .inl ⟨rfl, by omega⟩, widen_special hf⟩
  by_cases normal : e ≠ 0
  · exact ⟨s, e + 896, f * 2 ^ 29, hs, by omega, by omega,
      .inr (.inl ⟨by omega, by omega, by omega⟩), widen_normal (by omega) normal hf⟩
  obtain rfl : e = 0 := Decidable.not_not.mp normal
  rw [Nat.zero_mul, Nat.add_zero]
  by_cases zero : f = 0
  · subst zero
    refine ⟨s, 0, 0, hs, by omega, by omega, .inr (.inr (.inr ⟨rfl, rfl⟩)), ?_⟩
    rw [Nat.add_zero, widen_zero]
    omega
  · obtain ⟨log, whole, inside⟩ := sub_log2_mul zero hf
    have distance : 926 - (f.log2 + 874) = 52 - f.log2 := by omega
    refine ⟨s, f.log2 + 874, _, hs, by omega, inside,
      .inr (.inr (.inl ⟨by omega, by omega, ?_⟩)), widen_subnormal zero hf⟩
    rw [whole, distance]
    exact Nat.mul_mod_left ..

/-- The float that a pattern stands for has a pattern. -/
theorem isSome_ofFloat?_toFloat (pattern : UInt32) : (ofFloat? (toFloat pattern)).isSome := by
  obtain ⟨s, biased, fraction, sign, field, inside, narrow, bits⟩ := widen_isNarrow pattern.toNat_lt
  rcases toBits_ofBits (UInt64.ofNat (widen pattern.toNat)) with same | nan
  · refine isSome_ofFloat? s biased fraction field inside narrow ?_
    rw [toFloat_eq, same, UInt64.toNat_ofNat', Nat.mod_eq_of_lt (by omega), bits]
  · refine isSome_ofFloat? 0 2047 (2 ^ 51) (by omega) (by omega) (.inl ⟨rfl, by omega⟩) ?_
    rw [toFloat_eq, nan]
    rfl

end Binary32

end Telemetry
