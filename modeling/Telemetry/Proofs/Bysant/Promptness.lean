import Telemetry.Proofs.Bysant.Descent
import Telemetry.Proofs.Bysant.Plain
import Telemetry.Proofs.Bysant.RoundTrip
import Telemetry.Proofs.Gateway.Segmentation
/-!
# Values are given out with their last byte

An encoding that breaks off anywhere holds some whole values and the start of one more. A decoder
that is fed these bytes gives out the whole values, keeps the start, and waits for the rest. It
could not have given out the last value any earlier: if the start of an encoding completed a value,
then bytes would be left over behind the whole encoding.
-/

namespace Telemetry.Bysant

variable {v : Value} {vs : List Value} {front back p : Bytes}

/-! ## Encodings that break off -/

theorem encodeAll_append (vs others : List Value) :
    encodeAll (vs ++ others) = encodeAll vs ++ encodeAll others := by
  induction vs with
  | nil => rfl
  | cons v rest ih => rw [List.cons_append, encodeAll, ih, encodeAll, List.append_assoc]

/-- The bytes are the start of the encodings of some values, but not the whole of the first one. -/
def IsStart (front : Bytes) (others : List Value) : Prop :=
  match others with
  | [] => front = []
  | v :: _ => ∃ back, back ≠ [] ∧ encode v = front ++ back

/-- Where the encoding of some values breaks off, whole values are in front of the start of one. -/
theorem exists_cut (begins : p <+: encodeAll vs) : ∃ whole others front, vs = whole ++ others ∧
    p = encodeAll whole ++ front ∧ IsStart front others := by
  induction vs generalizing p with
  | nil =>
    obtain rfl := List.prefix_nil.mp begins
    exact ⟨[], [], [], rfl, rfl, rfl⟩
  | cons v rest ih =>
    rw [encodeAll] at begins
    by_cases whole : encode v <+: p
    · obtain ⟨behind, rfl⟩ := whole
      obtain ⟨whole, others, front, rfl, rfl, start⟩ :=
        ih ((List.prefix_append_right_inj _).mp begins)
      exact ⟨v :: whole, others, front, rfl, by rw [encodeAll, List.append_assoc], start⟩
    · have shorter : p <+: encode v :=
        (List.prefix_or_prefix_of_prefix begins (List.prefix_append _ _)).resolve_right whole
      obtain ⟨back, parts⟩ := shorter
      refine ⟨[], v :: rest, p, rfl, rfl, back, ?_, parts.symm⟩
      rintro rfl
      exact whole ⟨[], by rw [List.append_nil, ← parts, List.append_nil]⟩

/-- More values take more bytes than the ones in front of them and the start of the next one. -/
theorem IsStart.length_lt {others more : List Value} (start : IsStart front (others ++ more))
    (some : others ≠ []) : front.length < (encodeAll others).length := by
  cases others with
  | nil => exact absurd rfl some
  | cons v rest =>
    obtain ⟨back, more, parts⟩ := start
    have := List.length_pos_iff.mpr more
    rw [encodeAll, parts, List.length_append, List.length_append]
    omega

/-- Where the encoding breaks off, no more values fit than the whole ones. -/
theorem IsStart.le_length {whole others : List Value} {j : Nat} (start : IsStart front others)
    (fits : j ≤ (whole ++ others).length)
    (short : (encodeAll ((whole ++ others).take j)).length ≤ (encodeAll whole ++ front).length) :
    j ≤ whole.length := by
  by_contra more
  rw [List.length_append] at fits
  have taken : (whole ++ others).take j = whole ++ others.take (j - whole.length) := by
    rw [List.take_append, List.take_of_length_le (by omega)]
  have some : others.take (j - whole.length) ≠ [] := by
    rw [← List.length_pos_iff, List.length_take]
    omega
  rw [← List.take_append_drop (j - whole.length) others] at start
  have longer := start.length_lt some
  rw [taken, encodeAll_append, List.length_append, List.length_append] at short
  omega

/-- The encoding breaks off between two values only if nothing of the next one is there. -/
theorem IsStart.eq_nil_iff {whole others : List Value} (start : IsStart front others) :
    front = [] ↔ ∃ j, encodeAll whole ++ front = encodeAll ((whole ++ others).take j) := by
  constructor
  · rintro rfl
    exact ⟨whole.length, by rw [List.take_left, List.append_nil]⟩
  · rintro ⟨j, boundary⟩
    obtain ⟨i, few, same⟩ : ∃ i ≤ (whole ++ others).length,
        (whole ++ others).take j = (whole ++ others).take i := by
      by_cases few : j ≤ (whole ++ others).length
      · exact ⟨j, few, rfl⟩
      · exact ⟨_, Nat.le_refl _, by rw [List.take_length, List.take_of_length_le (by omega)]⟩
    rw [same] at boundary
    have within := start.le_length few (Nat.le_of_eq (congrArg List.length boundary).symm)
    rw [List.take_append_of_le_length within] at boundary
    have parts := congrArg encodeAll (List.take_append_drop i whole)
    rw [encodeAll_append] at parts
    have lengths := congrArg List.length boundary
    rw [← parts, List.length_append, List.length_append] at lengths
    exact List.length_eq_zero_iff.mp (by omega)

namespace Decoder

variable {d : Decoder} {items : List Item}

/-! ## Bytes that complete nothing -/

/-- Whoever reads on without completing a value keeps all bytes. -/
theorem pending_drain_of_nothing (nothing : (d.drain items).2 = items) :
    (d.drain items).1.pending = d.pending := by
  fun_induction Decoder.drain d items with
  | case1 d items starved => rfl
  | case2 d items starved missing step => rfl
  | case3 d items starved e step => rfl
  | case4 d items starved progress rest step ih =>
    cases progress with
    | inside stack => exact (ih nothing).trans (pending_inside step)
    | emitted item =>
      -- the value that the token completes is among those given out
      obtain ⟨-, found, -, given, -⟩ :=
        pending_drain (d.advance rest (.emitted item)) (item :: items)
      have lengths := congrArg List.length (given.symm.trans nothing)
      simp only [List.length_append, List.length_cons] at lengths
      omega

theorem AtRest.pending_feed (h : d.AtRest) {chunk : Bytes} (nothing : (d.feed chunk).2.1 = []) :
    (d.feed chunk).1.pending = d.pending ++ chunk := by
  rw [h.feed_eq] at nothing ⊢
  have nothing : ((d.append chunk).drain []).2 = [] := List.reverse_eq_nil_iff.mp nothing
  exact (pending_drain_of_nothing nothing).trans (pending_append d chunk)

/-! ## The start of a value -/

/-- A new decoder that is fed these bytes keeps all of them: they complete no value, and they are
not malformed. -/
structure Pends (front : Bytes) : Prop where
  nothing : (new.feed front).2.1 = []
  alive : (new.feed front).1.failure = none
  pending : (new.feed front).1.pending = front

/-- The start of a value that keeps to the limits pends until the rest is there. -/
theorem pends_of_encode (sound : v.Sound maxDepth) (parts : encode v = front ++ back)
    (more : back ≠ []) : Pends front := by
  obtain ⟨items, are, fed⟩ := feed_encodeAll (by simpa using sound : ∀ w ∈ [v], w.Sound maxDepth)
  have encoded : encodeAll [v] = front ++ back := (List.append_nil _).trans parts
  have one : items.length = 1 := by simpa using congrArg List.length are
  rw [encoded] at fed
  have alive : (new.feed front).1.failure = none := by
    cases failure : (new.feed front).1.failure with
    | none => rfl
    | some e =>
      have failed := (atRest_new.feed_append_of_failure (b := back) failure).1
      rw [fed] at failed
      cases failed
  have nothing : (new.feed front).2.1 = [] := by
    obtain ⟨alike, found⟩ := atRest_new.feed_append_of_alive (b := back) alive
    have pending := alike.pending
    rw [fed] at found pending
    by_contra early
    -- then the rest would complete nothing, and be pending behind the whole encoding
    have later : ((new.feed front).1.feed back).2.1 = [] := by
      have lengths : items.length = _ := congrArg List.length found
      have := List.length_pos_iff.mpr early
      rw [List.length_append, one] at lengths
      exact List.length_eq_zero_iff.mp (by omega)
    rw [(atRest_new.feed alive).pending_feed later] at pending
    exact more (List.append_eq_nil_iff.mp pending.symm).2
  exact ⟨nothing, alive, atRest_new.pending_feed nothing⟩

theorem pends_of_isStart {others : List Value} (sound : ∀ v ∈ others, v.Sound maxDepth)
    (start : IsStart front others) : Pends front := by
  cases others with
  | nil =>
    obtain rfl : front = [] := start
    exact ⟨by rw [atRest_new.feed_nil], by rw [atRest_new.feed_nil]; rfl,
      by rw [atRest_new.feed_nil]; rfl⟩
  | cons v rest =>
    obtain ⟨back, more, parts⟩ := start
    exact pends_of_encode (sound v List.mem_cons_self) parts more

/-- Behind whole values, bytes pend as they do in front of a new decoder. -/
theorem feed_cut {whole : List Value} (sound : ∀ v ∈ whole, v.Sound maxDepth)
    (pends : Pends front) :
    let fed := new.feed (encodeAll whole ++ front)
    fed.2.1.map Item.value = whole ∧ fed.1.failure = none ∧ fed.1.pending = front := by
  intro fed
  obtain ⟨items, are, read⟩ := feed_encodeAll sound
  have alive : (new.feed (encodeAll whole)).1.failure = none := by rw [read]; rfl
  obtain ⟨same, found⟩ := atRest_new.feed_append_of_alive (b := front) alive
  -- behind the whole values the decoder is alike to a new one
  have rest := atRest_new.feed alive
  rw [read] at same found rest
  have new_alike : Alike (encodeAll whole).length new (infront (encodeAll whole).length []) :=
    ⟨rfl, rfl, (Nat.zero_add _).symm, rfl, rfl, rfl, atRest_new.honest, rest.honest⟩
  obtain ⟨alike, later⟩ := new_alike.feed atRest_new rest front
  rw [pends.nothing] at later
  refine ⟨?_, ?_, ?_⟩
  · show (new.feed (encodeAll whole ++ front)).2.1.map Item.value = whole
    rw [found, later]
    simpa using are
  · have failure := (alike.trans same).failure
    rwa [pends.alive] at failure
  · exact (alike.trans same).pending.trans pends.pending

/-! ## Any chunks -/

/-- A decoder that has been fed the front of an encoding, in any chunks, has given out the values
whose last byte was there, and no others. `k` is how many these are: the largest number of values
whose encoding is not longer than what was fed. The bytes behind them are pending, without an error,
and the end of the input is accepted only between two values. -/
theorem feedAll_of_prefix (representable : ∀ v ∈ vs, v.Representable)
    (wellFormed : ∀ v ∈ vs, v.WellFormed) (chunks : List Bytes)
    (begins : chunks.flatten <+: encodeAll vs) :
    let fed := feedAll chunks new
    ∃ k ≤ vs.length, (encodeAll (vs.take k)).length ≤ chunks.flatten.length ∧
      (∀ j ≤ vs.length, (encodeAll (vs.take j)).length ≤ chunks.flatten.length → j ≤ k) ∧
      fed.2.1.flatten.map Item.value = vs.take k ∧ fed.2.2 = .ok () ∧
      fed.1.pending = chunks.flatten.drop (encodeAll (vs.take k)).length ∧
      (fed.1.hasPending = false ↔ ∃ j, chunks.flatten = encodeAll (vs.take j)) ∧
      fed.1.finish.2 =
        if fed.1.hasPending then
          .error (.trailingBytes (chunks.flatten.length - (encodeAll (vs.take k)).length))
        else .ok () := by
  intro fed
  obtain ⟨whole, others, front, rfl, cut, start⟩ := exists_cut begins
  have sound (v : Value) (member : v ∈ whole ++ others) : v.Sound maxDepth :=
    sound_iff.mpr ⟨representable v member, wellFormed v member⟩
  have pends := pends_of_isStart (fun v member => sound v (List.mem_append_right _ member)) start
  obtain ⟨values, alive, pending⟩ :=
    feed_cut (fun v member => sound v (List.mem_append_left _ member)) pends
  -- the chunks come to what the bytes come to at once
  obtain ⟨found, result, failure, alike⟩ := feedAll_alike chunks atRest_new
  rw [cut] at found failure alike ⊢
  have alike : Alike 0 fed.1 (new.feed (encodeAll whole ++ front)).1 := alike (failure.trans alive)
  have unfinished : fed.1.finished = false :=
    alike.finished.symm.trans (atRest_new.feed alive).unfinished
  have alive : fed.1.failure = none := failure.trans alive
  have pending : fed.1.pending = front := alike.pending.symm.trans pending
  have behind : (encodeAll whole ++ front).length - (encodeAll whole).length = front.length := by
    rw [List.length_append, Nat.add_sub_cancel_left]
  have hasPending : fed.1.hasPending = !front.isEmpty := by rw [hasPending_eq, pending]
  refine ⟨whole.length, by simp, ?_, fun j fits short => start.le_length fits short, ?_, ?_, ?_,
    ?_, ?_⟩
  all_goals try rw [List.take_left]
  · rw [List.length_append]
    exact Nat.le_add_right _ _
  · rw [← values]
    exact congrArg (List.map Item.value) found
  · exact result.trans (status_eq_ok_iff.mpr alive)
  · rw [pending, List.drop_left]
  · rw [← start.eq_nil_iff, hasPending]
    simp
  · rw [finish_of_alive alive, unfinished, if_neg Bool.false_ne_true, pending, behind]

/-- A list with an envelope in it, and the first bytes of the message behind it. -/
def brokenOff : List Bytes :=
  let b := encodeAll mixedValues
  [b.take 3, [], (b.drop 3).take 32]

/-- The list is given out, and the message is not. -/
theorem feedAll_brokenOff : ((∀ v ∈ mixedValues, v.Representable) ∧
      (∀ v ∈ mixedValues, v.WellFormed) ∧ brokenOff.flatten <+: encodeAll mixedValues) ∧
    (feedAll brokenOff new).2.1.flatten.map Item.value = mixedValues.take 1 ∧
    (feedAll brokenOff new).2.2 = .ok () ∧
    (feedAll brokenOff new).1.pending = brokenOff.flatten.drop 20 := by
  have representable : ∀ v ∈ mixedValues, v.Representable := by decide +kernel
  have wellFormed : ∀ v ∈ mixedValues, v.WellFormed := by decide +kernel
  have begins : brokenOff.flatten <+: encodeAll mixedValues := by decide +kernel
  have list : (encodeAll (mixedValues.take 1)).length = 20 := by decide +kernel
  have both : (encodeAll (mixedValues.take 2)).length = 56 := by decide +kernel
  have fed : brokenOff.flatten.length = 35 := by decide +kernel
  obtain ⟨k, few, short, most, found, result, pending, -⟩ :=
    feedAll_of_prefix representable wellFormed brokenOff begins
  obtain rfl : k = 1 := by
    have some := most 1 (by decide) (by omega)
    have few : k ≤ 2 := few
    by_contra different
    obtain rfl : k = 2 := by omega
    omega
  rw [list] at pending
  exact ⟨⟨representable, wellFormed, begins⟩, found, result, pending⟩

end Decoder

end Telemetry.Bysant
