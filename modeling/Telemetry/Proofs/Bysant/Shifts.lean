import Telemetry.Proofs.Bysant.Samples
/-!
# Quasi-periodic vectors

The list of shifts of a vector is looked at twice: once to count the samples, which no list of numbers
can make overflow, and later to expand them. Both agree: there are as many samples as were counted.
A sample of integers lies as many periods behind the start as its index says, moved by the shifts that
have come up to there.
-/

namespace Telemetry.Bysant

namespace QuasiPeriodicVector

variable {shifts : List Int64} {total size : Nat}

/-- The counts of a list of shifts: its entries in even places. -/
def counts : List Int64 → List Int64
  | [] => []
  | [count] => [count]
  | count :: _ :: rest => count :: counts rest

/-- As many samples as a list of shifts asks for: the start, as many as the counts say, and one for
each shift that stands behind its count. -/
def expansion (shifts : List Int64) : Int :=
  1 + ((counts shifts).map Int64.toInt).sum + (shifts.length / 2 : Nat)

/-- The steps from sample to sample: regular ones, and such as have a shift. -/
def strides : List Int64 → List (Option Int64)
  | [] => []
  | [count] => List.replicate count.toInt.toNat none
  | count :: shift :: rest => List.replicate count.toInt.toNat none ++ some shift :: strides rest

/-- The length of a step. -/
def step (period : Number) : Option Int64 → Number
  | none => period
  | some shift => period + .int shift

/-- The shifts behind the sample `last`, each with the index of the sample that it shifts. -/
def shiftedFrom (last : Nat) : List Int64 → List (Nat × Int64)
  | [] | [_] => []
  | count :: shift :: rest =>
    let index := last + count.toInt.toNat + 1
    (index, shift) :: shiftedFrom index rest

/-- The sum of the shifts of the samples up to `k`. -/
def shiftSum (shifts : List Int64) (k : Nat) : Int :=
  (((shiftedFrom 0 shifts).filter fun shifted => shifted.1 ≤ k).map fun shifted =>
    shifted.2.toInt).sum

theorem getElem?_counts (shifts : List Int64) (i : Nat) : (counts shifts)[i]? = shifts[2 * i]? := by
  fun_induction counts shifts generalizing i with
  | case1 => rfl
  | case2 count => cases i <;> rfl
  | case3 count shift rest ih =>
    cases i with
    | zero => rfl
    | succ i => exact ih i

/-! ### How many samples there are -/

theorem expansion_cons_cons (count shift : Int64) (rest : List Int64) :
    expansion (count :: shift :: rest) = count.toInt + 1 + expansion rest := by
  have pairs : (rest.length + 1 + 1) / 2 = rest.length / 2 + 1 := by omega
  simp only [expansion, counts, List.map_cons, List.sum_cons, List.length_cons, pairs]
  omega

theorem one_le_expansion (counted : ∀ count ∈ counts shifts, 0 ≤ count.toInt) :
    1 ≤ expansion shifts := by
  fun_induction counts shifts with
  | case1 => decide
  | case2 count => simpa [expansion, counts] using counted
  | case3 count shift rest ih =>
    obtain ⟨first, others⟩ := List.forall_mem_cons.mp counted
    have := ih others
    rw [expansion_cons_cons]
    omega

/-- Counting on from `total` succeeds when counts are not negative and the samples not too many. -/
theorem countSamples_eq_ok_iff (few : total ≤ maxVectorSamples) :
    countSamples total shifts = .ok size ↔
      (∀ count ∈ counts shifts, 0 ≤ count.toInt) ∧ (size : Int) + 1 = total + expansion shifts ∧
        size ≤ maxVectorSamples := by
  fun_induction countSamples total shifts with
  | case1 total => simp [expansion, counts]; omega
  | case2 total count negative => simp [counts]; omega
  | case3 total count counted total' fits => simp [expansion, counts]; omega
  | case4 total count counted total' large => simp [expansion, counts]; omega
  | case5 total count shift rest negative => simp [counts]; omega
  | case6 total count shift rest counted total' fits ih =>
    have sum : (total' : Int) = total + count.toInt + 1 := by omega
    rw [ih fits, expansion_cons_cons, counts, List.forall_mem_cons, sum]
    refine ⟨fun ⟨others, exact, small⟩ => ⟨⟨by omega, others⟩, by omega, small⟩, ?_⟩
    exact fun ⟨⟨_, others⟩, exact, small⟩ => ⟨others, by omega, small⟩
  | case7 total count shift rest counted total' large =>
    rw [expansion_cons_cons, counts, List.forall_mem_cons]
    refine iff_of_false (by simp) fun ⟨⟨_, others⟩, exact, small⟩ => ?_
    have := one_le_expansion others
    omega

/-- A sum of two words, unless it has more than 64 bits. -/
def addWords? (a b : UInt64) : Option UInt64 :=
  if a.toNat + b.toNat < UInt64.size then some (a + b) else none

/-- What a count and its shifts, of which there may be one, add to `total`, in words of 64 bits;
`none` if that overflows. -/
def addCount? (total : UInt64) (count : Int64) (shifts : UInt64) :
    Option (Except ShiftsError UInt64) :=
  if count < 0 then some (.error (.negativeCount count))
  else do
    let more ← addWords? count.toUInt64 shifts
    let total ← addWords? total more
    return if total ≤ UInt64.ofNat maxVectorSamples then .ok total else .error .tooLarge

/-- The number of samples as it is counted in words of 64 bits, `none` if an addition overflows. -/
def countInWords (total : UInt64) : List Int64 → Option (Except ShiftsError UInt64)
  | [] => some (.ok total)
  | [count] => addCount? total count 0
  | count :: _ :: rest => do
    match ← addCount? total count 1 with
    | .ok total => countInWords total rest
    | .error e => return .error e

theorem addWords?_ofNat {a b : Nat} (small : a + b < UInt64.size) :
    addWords? (.ofNat a) (.ofNat b) = some (.ofNat (a + b)) := by
  rw [addWords?, UInt64.toNat_ofNat_of_lt' (by omega), UInt64.toNat_ofNat_of_lt' (by omega),
    if_pos small, UInt64.ofNat_add]

theorem addCount?_of_negative {count : Int64} (negative : count.toInt < 0) (total shifts : UInt64) :
    addCount? total count shifts = some (.error (.negativeCount count)) :=
  if_pos (Int64.lt_iff_toInt_lt.mpr negative)

/-- A count has fewer than 64 bits, so that there is room for it and its shift. -/
theorem addCount?_ofNat (few : total ≤ maxVectorSamples) {count : Int64}
    (counted : ¬ count.toInt < 0) {shifts : Nat} (single : shifts ≤ 1) :
    addCount? (.ofNat total) count (.ofNat shifts) =
      some (if total + (count.toInt.toNat + shifts) ≤ maxVectorSamples then
          .ok (.ofNat (total + (count.toInt.toNat + shifts)))
        else .error .tooLarge) := by
  have upper := count.toInt_lt
  have bound : maxVectorSamples = 16777216 := rfl
  have size : UInt64.size = 18446744073709551616 := rfl
  have word : count.toUInt64 = UInt64.ofNat count.toInt.toNat := by
    rw [← UInt64.toNat_inj, UInt64.toNat_ofNat_of_lt' (by omega)]
    exact Int64.toNat_toUInt64_of_le (Int64.le_iff_toInt_le.mpr (Int.not_lt.mp counted))
  have sum : (UInt64.ofNat (total + (count.toInt.toNat + shifts))).toNat = _ :=
    UInt64.toNat_ofNat_of_lt' (by omega)
  have most : (UInt64.ofNat maxVectorSamples).toNat = maxVectorSamples :=
    UInt64.toNat_ofNat_of_lt' (by omega)
  rw [addCount?, if_neg (mt Int64.lt_iff_toInt_lt.mp counted), word, addWords?_ofNat (by omega)]
  dsimp only [Option.bind_eq_bind, Option.bind_some]
  rw [addWords?_ofNat (by omega)]
  simp only [Option.bind_some, UInt64.le_iff_toNat_le, sum, most, pure]

/-- Counting in words never overflows, whatever the entries are. -/
theorem countInWords_ofNat (few : total ≤ maxVectorSamples) (shifts : List Int64) :
    countInWords (.ofNat total) shifts = some ((countSamples total shifts).map .ofNat) := by
  fun_induction countSamples total shifts with
  | case1 total => rfl
  | case2 total count negative => exact addCount?_of_negative negative _ _
  | case3 total count counted total' fits =>
    exact (addCount?_ofNat few counted (Nat.zero_le 1)).trans (congrArg some (if_pos fits))
  | case4 total count counted total' large =>
    exact (addCount?_ofNat few counted (Nat.zero_le 1)).trans (congrArg some (if_neg large))
  | case5 total count shift rest negative =>
    exact congrArg (Option.bind · _) (addCount?_of_negative negative _ _)
  | case6 total count shift rest counted total' fits ih =>
    have added := (addCount?_ofNat few counted (Nat.le_refl 1)).trans (congrArg some (if_pos fits))
    exact (congrArg (Option.bind · _) added).trans (ih fits)
  | case7 total count shift rest counted total' large =>
    have added := (addCount?_ofNat few counted (Nat.le_refl 1)).trans (congrArg some (if_neg large))
    exact congrArg (Option.bind · _) added

/-- A list of shifts describes a vector when its counts are not negative and it does not ask for too
many samples. -/
theorem exists_ofShifts_iff (period start : Number) (shifts : List Int64) :
    (∃ v, ofShifts period start shifts = .ok v) ↔
      (∀ count ∈ counts shifts, 0 ≤ count.toInt) ∧ expansion shifts ≤ maxVectorSamples := by
  have counted : (∃ v, ofShifts period start shifts = .ok v) ↔
      ∃ size, countSamples 1 shifts = .ok size := by
    unfold ofShifts
    split <;> simp_all
  rw [counted]
  constructor
  · rintro ⟨size, counted⟩
    obtain ⟨natural, exact, small⟩ := (countSamples_eq_ok_iff (by decide)).mp counted
    exact ⟨natural, by omega⟩
  · rintro ⟨natural, small⟩
    have some := one_le_expansion natural
    exact ⟨(expansion shifts).toNat,
      (countSamples_eq_ok_iff (by decide)).mpr ⟨natural, by omega, by omega⟩⟩

theorem fields_of_ofShifts {period start : Number} {v : QuasiPeriodicVector}
    (made : ofShifts period start shifts = .ok v) :
    v.period = period ∧ v.start = start ∧ v.shifts = shifts := by
  unfold ofShifts at made
  split at made
  · cases made
    exact ⟨rfl, rfl, rfl⟩
  · cases made

/-- The size of a vector is what its shifts ask for. -/
theorem size_spec (v : QuasiPeriodicVector) :
    (∀ count ∈ counts v.shifts, 0 ≤ count.toInt) ∧ (v.size : Int) = expansion v.shifts := by
  have ok := v.size_ok
  unfold size
  split
  · rename_i size counted
    obtain ⟨natural, exact, -⟩ := (countSamples_eq_ok_iff (by decide)).mp counted
    exact ⟨natural, by omega⟩
  · rename_i counted
    rw [counted] at ok
    cases ok

/-! ### What the samples are -/

/-- The steps that are left when there are `count` regular ones before the next shift. -/
def stridesAfter (count : Nat) : List Int64 → List (Option Int64)
  | [] => List.replicate count none
  | shift :: rest => List.replicate count none ++ some shift :: strides rest

theorem strides_cons (count : Int64) (shifts : List Int64) :
    strides (count :: shifts) = stridesAfter count.toInt.toNat shifts := by
  cases shifts <;> rfl

theorem stridesAfter_succ (count : Nat) (shifts : List Int64) :
    stridesAfter (count + 1) shifts = none :: stridesAfter count shifts := by
  cases shifts <;> rfl

/-- There is a sample behind every step. -/
theorem length_strides (natural : ∀ count ∈ counts shifts, 0 ≤ count.toInt) :
    ((strides shifts).length : Int) + 1 = expansion shifts := by
  fun_induction strides shifts with
  | case1 => rfl
  | case2 count =>
    have counted : 0 ≤ count.toInt := by simpa [counts] using natural
    simp only [expansion, counts, List.length_replicate, List.map_cons, List.map_nil,
      List.sum_cons, List.sum_nil, List.length_cons, List.length_nil]
    omega
  | case3 count shift rest ih =>
    obtain ⟨first, others⟩ := List.forall_mem_cons.mp natural
    rw [expansion_cons_cons, ← ih others, List.length_append, List.length_replicate,
      List.length_cons]
    omega

theorem cons_samplesAfter (period : Number) (limit : Nat) (last : Number) (count : Nat)
    (shifts : List Int64) : last :: samplesAfter period limit last count shifts =
      (((stridesAfter count shifts).map (step period)).scanl (· + ·) last).take (limit + 1) := by
  fun_induction samplesAfter period limit last count shifts with
  | case1 last count shifts => rw [List.take_scanl, List.take_zero]; rfl
  | case2 limit last count shifts next ih =>
    rw [ih, stridesAfter_succ, List.map_cons, List.scanl_cons, List.take_succ_cons]
    rfl
  | case3 limit last => rfl
  | case4 limit last shift next =>
    rw [stridesAfter, strides, List.replicate_zero, List.nil_append, List.map_cons, List.map_nil,
      List.scanl_cons, List.scanl_nil, List.take_of_length_le (by simp)]
    rfl
  | case5 limit last shift next count shifts ih =>
    rw [ih, stridesAfter, List.replicate_zero, List.nil_append, List.map_cons, List.scanl_cons,
      List.take_succ_cons, strides_cons]
    rfl

theorem take_eq (n : Nat) (v : QuasiPeriodicVector) : v.take n =
    (((strides v.shifts).map (step v.period)).scanl (· + ·) v.start).take n := by
  unfold QuasiPeriodicVector.take
  cases n with
  | zero => rfl
  | succ n =>
    cases v.shifts with
    | nil => rw [strides, List.map_nil, List.scanl_nil, List.take_of_length_le (by simp)]
    | cons count shifts => exact (strides_cons count shifts).symm ▸ cons_samplesAfter ..

theorem size_eq (v : QuasiPeriodicVector) : v.size = (strides v.shifts).length + 1 := by
  obtain ⟨natural, size⟩ := v.size_spec
  have steps := length_strides natural
  omega

/-- The samples are a running sum of the steps: what was counted cuts none of them off. -/
theorem samples_eq_scanl (v : QuasiPeriodicVector) :
    v.samples = ((strides v.shifts).map (step v.period)).scanl (· + ·) v.start := by
  rw [samples, take_eq]
  refine List.take_of_length_le ?_
  rw [List.length_scanl, List.length_map, size_eq]

@[simp] theorem length_samples (v : QuasiPeriodicVector) : v.samples.length = v.size := by
  rw [samples_eq_scanl, List.length_scanl, List.length_map, size_eq]

/-! ### Where the shifts are -/

theorem lt_of_mem_shiftedFrom {last : Nat} {shifted : Nat × Int64}
    (member : shifted ∈ shiftedFrom last shifts) : last < shifted.1 := by
  fun_induction shiftedFrom last shifts with
  | case1 | case2 => cases member
  | case3 last count shift rest index ih =>
    rcases List.mem_cons.mp member with rfl | later
    · omega
    · have := ih later
      omega

/-- How much longer than a regular one a step is. -/
def excess (stride : Option Int64) : Int := (stride.map Int64.toInt).getD 0

theorem sum_excess_replicate (count : Nat) : ((List.replicate count none).map excess).sum = 0 := by
  rw [List.map_replicate, List.sum_replicate_int]
  exact Int.mul_zero _

/-- The first `k` steps behind the sample `last` are longer than regular ones by the shifts of the
samples that they lead to. -/
theorem sum_excess_take (last k : Nat) (shifts : List Int64) :
    (((strides shifts).take k).map excess).sum =
      (((shiftedFrom last shifts).filter fun shifted => shifted.1 ≤ last + k).map fun shifted =>
        shifted.2.toInt).sum := by
  fun_induction shiftedFrom last shifts generalizing k with
  | case1 last =>
    rw [strides, List.take_nil]
    rfl
  | case2 last count =>
    rw [strides, List.take_replicate, sum_excess_replicate]
    rfl
  | case3 last count shift rest index ih =>
    rw [strides, List.take_append, List.take_replicate, List.map_append, List.sum_append,
      sum_excess_replicate, List.length_replicate, Int.zero_add]
    by_cases before : k ≤ count.toInt.toNat
    · -- neither this shift nor a later one has been reached
      rw [Nat.sub_eq_zero_of_le before, List.take_zero, List.filter_eq_nil_iff.mpr]
      · rfl
      · intro shifted member
        rcases List.mem_cons.mp member with rfl | later
        · simp; omega
        · have := lt_of_mem_shiftedFrom later
          simp; omega
    · -- this shift has been reached, and `more` samples behind it
      obtain ⟨more, rfl⟩ : ∃ more, k = count.toInt.toNat + 1 + more :=
        ⟨k - (count.toInt.toNat + 1), by omega⟩
      have reached : index ≤ last + (count.toInt.toNat + 1 + more) := by omega
      have here : last + (count.toInt.toNat + 1 + more) = index + more := by omega
      rw [show count.toInt.toNat + 1 + more - count.toInt.toNat = more + 1 by omega,
        List.take_succ_cons, List.map_cons, List.sum_cons, ih more,
        List.filter_cons_of_pos (by simpa using reached), List.map_cons, List.sum_cons, here]
      rfl

theorem step_int (period : Int64) (stride : Option Int64) :
    step (.int period) stride = .wrap (period.toInt + excess stride) := by
  cases stride with
  | none => rw [step, Number.int_eq_wrap]; exact congrArg Number.wrap (Int.add_zero _).symm
  | some shift =>
    rw [step, Number.int_eq_wrap, Number.int_eq_wrap shift, Number.wrap_add_wrap]
    rfl

theorem sum_map_add_excess (period : Int) (strides : List (Option Int64)) :
    (strides.map fun stride => period + excess stride).sum =
      strides.length * period + (strides.map excess).sum := by
  rw [List.sum_map_add, List.map_const', List.sum_replicate_int]

/-- A sample of integers is as many periods behind the start as its index says, moved by the shifts
up to it. -/
theorem getElem?_samples {v : QuasiPeriodicVector} {period start : Int64}
    (periods : v.period = .int period) (starts : v.start = .int start) {k : Nat}
    (inside : k < v.size) : v.samples[k]? =
      some (.wrap (start.toInt + k * period.toInt + shiftSum v.shifts k)) := by
  have few : k ≤ (strides v.shifts).length := by
    rw [size_eq] at inside
    omega
  have steps : (strides v.shifts).map (step v.period) =
      ((strides v.shifts).map fun stride => period.toInt + excess stride).map .wrap := by
    rw [List.map_map, periods]
    exact List.map_congr_left fun stride _ => step_int period stride
  have moved := sum_excess_take 0 k v.shifts
  rw [Nat.zero_add] at moved
  rw [samples_eq_scanl, steps, starts, Number.int_eq_wrap,
    Number.getElem?_scanl_wrap _ _ (by rwa [List.length_map]), ← List.map_take, sum_map_add_excess,
    List.length_take_of_le few, moved, Int.add_assoc]
  rfl

/-- A list of shifts describes a vector exactly if none of its counts is negative and it does not
ask for too many samples; counting them in words of 64 bits never overflows. Such a vector has as many
samples as its shifts ask for, one behind every step. Where its period and its start are integers,
every sample has a closed form. -/
theorem ofShifts_expands (period start : Number) (shifts : List Int64) :
    ((∃ v, ofShifts period start shifts = .ok v) ↔
      (∀ i count, shifts[2 * i]? = some count → 0 ≤ count.toInt) ∧
        expansion shifts ≤ maxVectorSamples) ∧
    countInWords 1 shifts = some ((countSamples 1 shifts).map .ofNat) ∧
    ∀ v, ofShifts period start shifts = .ok v →
      v.samples = ((strides shifts).map (step period)).scanl (· + ·) start ∧
      (∀ n, v.take n = v.samples.take n) ∧
      (v.size : Int) = expansion shifts ∧ v.samples.length = v.size ∧
      ∀ p s, period = .int p → start = .int s → ∀ k < v.size,
        v.samples[k]? = some (.wrap (s.toInt + k * p.toInt + shiftSum shifts k)) := by
  refine ⟨?_, countInWords_ofNat (by decide) shifts, fun v made => ?_⟩
  · have places : (∀ i count, shifts[2 * i]? = some count → 0 ≤ count.toInt) ↔
        ∀ count ∈ counts shifts, 0 ≤ count.toInt := by
      simp only [List.mem_iff_getElem?, getElem?_counts, forall_exists_index]
      exact forall_comm
    rw [places]
    exact exists_ofShifts_iff period start shifts
  · obtain ⟨rfl, rfl, rfl⟩ := fields_of_ofShifts made
    refine ⟨v.samples_eq_scanl, fun n => ?_, v.size_spec.2, v.length_samples, ?_⟩
    · rw [take_eq, samples_eq_scanl]
    · exact fun p s periods starts k inside => getElem?_samples periods starts inside

/-- Shifts of three samples among six. -/
def wideShifts : List Int64 := [0, -5, 1, Int64.minValue, 2]

/-- The last sample has run over the 64 bits three times. -/
theorem ofShifts_expands_wideShifts :
    ∃ v, ofShifts (.int Int64.maxValue) (.int 1) wideShifts = .ok v ∧ 5 < v.size ∧
      v.samples[5]? = some (.int (-9)) := by
  have natural : ∀ i count, wideShifts[2 * i]? = some count → 0 ≤ count.toInt := by
    have all : ∀ count ∈ counts wideShifts, 0 ≤ count.toInt := by simp [counts, wideShifts]
    exact fun i count place =>
      all count (List.mem_of_getElem? ((getElem?_counts wideShifts i).trans place))
  obtain ⟨made, -, expands⟩ := ofShifts_expands (.int Int64.maxValue) (.int 1) wideShifts
  obtain ⟨v, is⟩ := made.mpr ⟨natural, by decide⟩
  obtain ⟨-, -, size, -, values⟩ := expands v is
  have six : expansion wideShifts = 6 := by decide
  have inside : 5 < v.size := by omega
  exact ⟨v, is, inside, values _ _ rfl rfl 5 inside⟩

end QuasiPeriodicVector

end Telemetry.Bysant
