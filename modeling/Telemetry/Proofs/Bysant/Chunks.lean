import Telemetry.Proofs.Bysant.Locality
/-!
# Input in chunks

The decoder may be interrupted between any two bytes, inside a token or inside open containers.
However its input is cut into chunks, it gives out the same values and stops at the same error.

The argument compares decoders that are alike: they differ in how many bytes they wait for, and one
of them may have read `k` bytes more. What carries it is that a decoder never waits for bytes that
it does not need (`Honest`), so that reading earlier would have led nowhere.
-/

namespace Telemetry.Bysant.Decoder

/-! ## Steps of a decoder -/

theorem isStarved_iff (d : Decoder) :
    d.isStarved = true ↔ d.unread = [] ∨ d.unread.length < d.needed := by
  simp only [isStarved, List.isEmpty_iff, List.drop_eq_nil_iff]
  rw [← List.length_eq_zero_iff]
  omega

variable {d d' : Decoder} {items : List Item}

theorem drain_starved (starved : d.isStarved = true) : d.drain items = (d, items) := by
  rw [drain, if_pos starved]

theorem drain_more {missing : Nat} (fed : d.isStarved = false)
    (step : readStep d.stack ⟨d.offset, d.unread⟩ = .more missing) :
    d.drain items = ({ d with needed := d.unread.length + missing }, items) := by
  rw [drain, if_neg (by simp [fed])]
  split <;> simp_all

theorem drain_fail {e : DecodeError} (fed : d.isStarved = false)
    (step : readStep d.stack ⟨d.offset, d.unread⟩ = .fail e) :
    d.drain items = ({ d with failure := some e }, items) := by
  rw [drain, if_neg (by simp [fed])]
  split <;> simp_all

theorem drain_done {progress : Progress} {rest : Place} (fed : d.isStarved = false)
    (step : readStep d.stack ⟨d.offset, d.unread⟩ = .done progress rest) :
    d.drain items = (d.advance rest progress).drain (progress.item?.toList ++ items) := by
  rw [drain, if_neg (by simp [fed])]
  split <;> simp_all

/-- Values that were given out before stay behind those that are found. -/
theorem drain_append (d : Decoder) (found items : List Item) :
    d.drain (found ++ items) = ((d.drain found).1, (d.drain found).2 ++ items) := by
  fun_induction drain d found with
  | case1 d found starved => rw [drain_starved starved]
  | case2 d found starved missing step => rw [drain_more (by simpa using starved) step]
  | case3 d found starved e step => rw [drain_fail (by simpa using starved) step]
  | case4 d found starved progress rest step ih =>
    rw [drain_done (by simpa using starved) step, ← List.append_assoc, ih]

/-! ## Decoders that are alike -/

/-- The decoder waits for no byte that the next token does not need. -/
def Honest (d : Decoder) : Prop :=
  ∀ more, (d.append more).isStarved = true → d.unread ++ more ≠ [] →
    ∃ missing, readStep d.stack ⟨d.offset, d.unread ++ more⟩ = .more missing

/-- The decoder `d'` stands where `d` stands, in an input with `k` bytes more in front. -/
structure Alike (k : Nat) (d d' : Decoder) : Prop where
  taken : d'.taken = d.taken
  unread : d'.unread = d.unread
  offset : d'.offset = d.offset + k
  stack : d'.stack = d.stack.map (Frame.shift k)
  failure : d'.failure = d.failure.map (DecodeError.shift k)
  finished : d'.finished = d.finished
  honest : d.Honest
  honest' : d'.Honest

variable {k : Nat}

theorem honest_of_needed_eq_zero (all : d.needed = 0) : d.Honest := by
  intro more starved some
  rw [isStarved_iff] at starved
  have all : (d.append more).needed = 0 := all
  rcases starved with none | short
  · exact absurd none some
  · omega

theorem Honest.append (h : d.Honest) (chunk : Bytes) : (d.append chunk).Honest := by
  intro more starved some
  simp only [Decoder.append, List.append_assoc] at starved some ⊢
  exact h (chunk ++ more) starved some

/-- The step of a decoder in another input. -/
theorem agrees_step (d : Decoder) (k : Nat) (more : Bytes) :
    (readStep d.stack ⟨d.offset, d.unread⟩).Agrees k more
      (fun progress progress' => progress' = progress.shift k)
      (readStep (d.stack.map (Frame.shift k)) ⟨d.offset + k, d.unread ++ more⟩) :=
  agrees_readStep d.stack more ⟨d.offset, d.unread⟩

/-- A token that asked for more bytes asks again while they are not there. -/
theorem honest_of_more {missing : Nat}
    (step : readStep d.stack ⟨d.offset, d.unread⟩ = .more missing) :
    Honest { d with needed := d.unread.length + missing } := by
  intro more starved some
  rw [isStarved_iff] at starved
  simp only [Decoder.append] at starved some ⊢
  have short : more.length < missing := by
    rcases starved with none | short
    · exact absurd none some
    · rw [List.length_append] at short
      omega
  have h := agrees_step d 0 more
  rw [step] at h
  simp only [Frame.shift_zero, List.map_id, Nat.add_zero] at h
  generalize readStep d.stack ⟨d.offset, d.unread ++ more⟩ = reading at h
  cases h with
  | starved => exact ⟨_, rfl⟩
  | supplied _ enough => omega

theorem Alike.step (h : Alike k d d') :
    (readStep d.stack ⟨d.offset, d.unread⟩).Agrees k []
      (fun progress progress' => progress' = progress.shift k)
      (readStep d'.stack ⟨d'.offset, d'.unread⟩) := by
  rw [h.stack, h.offset, h.unread]
  simpa using agrees_step d k []

/-- Decoders that are alike advance alike. -/
theorem Alike.advance (h : Alike k d d') (rest : Place) (progress : Progress) :
    Alike k (d.advance rest progress) (d'.advance (rest.shift k []) (progress.shift k)) := by
  have honest : (d.advance rest progress).Honest :=
    honest_of_needed_eq_zero (by cases progress <;> rfl)
  have honest' : (d'.advance (rest.shift k []) (progress.shift k)).Honest :=
    honest_of_needed_eq_zero (by cases progress <;> rfl)
  cases progress with
  | inside stack =>
    have used : rest.offset + k - d'.offset = rest.offset - d.offset := by
      rw [h.offset]
      omega
    exact ⟨by simp [Decoder.advance, Progress.shift, Place.shift, used, h.taken, h.unread],
      List.append_nil _, rfl, rfl, h.failure, h.finished, honest, honest'⟩
  | emitted item =>
    exact ⟨rfl, List.append_nil _, rfl, rfl, h.failure, h.finished, honest, honest'⟩

/-- A decoder that waits although it has bytes would ask for more. -/
theorem Honest.step (h : d.Honest) (starved : d.isStarved = true) (some : d.unread ≠ []) :
    ∃ missing, readStep d.stack ⟨d.offset, d.unread⟩ = .more missing := by
  have := h [] (by simpa [Decoder.append] using starved) (by simpa using some)
  simpa using this

theorem unread_ne_nil (fed : d.isStarved = false) : d.unread ≠ [] := by
  intro none
  have : d.isStarved = true := (isStarved_iff d).mpr (.inl none)
  simp [this] at fed

/-- If one of two decoders that are alike gets beyond its next token or stops at it, then so does
the other. -/
theorem Alike.fed (h : Alike k d d') (fed : d.isStarved = false)
    (step : ∀ missing, readStep d.stack ⟨d.offset, d.unread⟩ ≠ .more missing) :
    d'.isStarved = false := by
  rw [Bool.eq_false_iff]
  intro starved
  have some : d'.unread ≠ [] := by
    rw [h.unread]
    exact unread_ne_nil fed
  obtain ⟨missing, asks⟩ := h.honest'.step starved some
  have agrees := h.step
  rw [asks] at agrees
  generalize read : readStep d.stack ⟨d.offset, d.unread⟩ = reading at agrees
  cases agrees with
  | starved => exact step _ read
  | supplied => exact step _ read

/-- If one of two decoders that are alike asks for more bytes, then so does the other. -/
theorem Alike.more (h : Alike k d d') {missing : Nat}
    (step : readStep d.stack ⟨d.offset, d.unread⟩ = .more missing) :
    ∃ missing', readStep d'.stack ⟨d'.offset, d'.unread⟩ = .more missing' := by
  have agrees := h.step
  rw [step] at agrees
  generalize readStep d'.stack ⟨d'.offset, d'.unread⟩ = reading at agrees
  cases agrees with
  | starved => exact ⟨_, rfl⟩
  | supplied some none => exact absurd some (Nat.not_lt_of_le none)

/-- Decoders that are alike give out the same values and end up alike. -/
theorem Alike.drain (h : Alike k d d') (items : List Item) :
    Alike k (d.drain items).1 (d'.drain (items.map (Item.shift k))).1 ∧
      (d'.drain (items.map (Item.shift k))).2 = (d.drain items).2.map (Item.shift k) := by
  -- `d` and `d'` may disagree on whether they wait for bytes, but not on what they would read
  fun_induction Decoder.drain d items generalizing d' with
  | case1 d items starved =>
    cases starved' : d'.isStarved with
    | true =>
      rw [drain_starved starved']
      exact ⟨h, rfl⟩
    | false =>
      -- `d'` tries, and is left waiting like `d`
      have some : d.unread ≠ [] := by
        rw [← h.unread]
        exact unread_ne_nil starved'
      obtain ⟨missing, step⟩ := h.honest.step starved some
      obtain ⟨missing', step'⟩ := h.more step
      rw [drain_more starved' step']
      exact ⟨{ h with honest' := honest_of_more step' }, rfl⟩
  | case2 d items starved missing step =>
    cases starved' : d'.isStarved with
    | true =>
      rw [drain_starved starved']
      exact ⟨{ h with honest := honest_of_more step }, rfl⟩
    | false =>
      obtain ⟨missing', step'⟩ := h.more step
      rw [drain_more starved' step']
      exact ⟨{ h with honest := honest_of_more step, honest' := honest_of_more step' }, rfl⟩
  | case3 d items starved e step =>
    have fed := h.fed (by simpa using starved) (by simp [step])
    have agrees := h.step
    rw [step] at agrees
    generalize step' : readStep d'.stack ⟨d'.offset, d'.unread⟩ = reading at agrees
    cases agrees
    rw [drain_fail fed step']
    exact ⟨{ h with failure := rfl }, rfl⟩
  | case4 d items starved progress rest step ih =>
    have fed := h.fed (by simpa using starved) (by simp [step])
    have agrees := h.step
    rw [step] at agrees
    generalize step' : readStep d'.stack ⟨d'.offset, d'.unread⟩ = reading at agrees
    cases agrees with
    | done same =>
      subst same
      rw [drain_done fed step']
      have found : (progress.shift k).item?.toList = progress.item?.toList.map (Item.shift k) := by
        cases progress <;> rfl
      rw [found, ← List.map_append]
      exact ih (h.advance rest progress)

/-! ## More bytes behind -/

/-- Further bytes do not feed a decoder less. -/
theorem isStarved_append (chunk : Bytes) (fed : d.isStarved = false) :
    (d.append chunk).isStarved = false := by
  rw [Bool.eq_false_iff]
  intro starved
  rw [isStarved_iff] at starved
  simp only [Decoder.append, List.append_eq_nil_iff, List.length_append] at starved
  have : d.isStarved = true := by
    rw [isStarved_iff]
    rcases starved with ⟨none, -⟩ | short
    · exact .inl none
    · exact .inr (by omega)
  simp [this] at fed

theorem advance_append (d : Decoder) (rest : Place) (progress : Progress) (chunk : Bytes)
    (inside : rest.offset - d.offset ≤ d.unread.length) :
    (d.append chunk).advance (rest.shift 0 chunk) progress =
      (d.advance rest progress).append chunk := by
  cases progress with
  | inside stack =>
    simp [Decoder.advance, Decoder.append, Place.shift, List.take_append_of_le_length inside]
  | emitted item => rfl

theorem Alike.refl (h : d.Honest) : Alike 0 d d := by
  refine ⟨rfl, rfl, rfl, ?_, ?_, rfl, h, h⟩
  · simp
  · cases d.failure <;> simp

theorem Alike.trans {j : Nat} {d'' : Decoder} (h : Alike j d d') (h' : Alike k d' d'') :
    Alike (j + k) d d'' := by
  refine ⟨h'.taken.trans h.taken, h'.unread.trans h.unread, ?_, ?_, ?_,
    h'.finished.trans h.finished, h.honest, h'.honest'⟩
  · rw [h'.offset, h.offset, Nat.add_assoc]
  · rw [h'.stack, h.stack]
    simp [Function.comp_def]
  · rw [h'.failure, h.failure]
    cases d.failure <;> simp

theorem Alike.append (h : Alike k d d') (chunk : Bytes) :
    Alike k (d.append chunk) (d'.append chunk) :=
  ⟨h.taken, congrArg (· ++ chunk) h.unread, h.offset, h.stack, h.failure, h.finished,
    h.honest.append chunk, h.honest'.append chunk⟩

theorem honest_advance (d : Decoder) (rest : Place) (progress : Progress) :
    (d.advance rest progress).Honest :=
  honest_of_needed_eq_zero (by cases progress <;> rfl)

theorem honest_drain (h : d.Honest) (items : List Item) : (d.drain items).1.Honest :=
  ((Alike.refl h).drain items).1.honest

/-- A token that is read is read also when more bytes stand behind it. -/
theorem drain_append_of_done {progress : Progress} {rest : Place} (chunk : Bytes)
    (fed : d.isStarved = false)
    (step : readStep d.stack ⟨d.offset, d.unread⟩ = .done progress rest) :
    (d.append chunk).drain items =
      ((d.advance rest progress).append chunk).drain (progress.item?.toList ++ items) := by
  have agrees := agrees_step d 0 chunk
  rw [step, Frame.shift_zero, List.map_id] at agrees
  generalize step' : readStep d.stack ⟨d.offset + 0, d.unread ++ chunk⟩ = reading at agrees
  cases agrees with
  | done same =>
    rw [Progress.shift_zero] at same
    subst same
    obtain ⟨used, bytes, offset, -⟩ := uses_readStep _ _ _ _ step
    have inside : rest.offset - d.offset ≤ d.unread.length := by
      have length := congrArg List.length bytes
      rw [List.length_append] at length
      have offset : rest.offset = d.offset + used.length := offset
      have length : d.unread.length = used.length + rest.bytes.length := length
      omega
    rw [← advance_append d rest _ chunk inside]
    exact drain_done (isStarved_append chunk fed) step'

/-- A malformed token is malformed also when more bytes stand behind it. -/
theorem drain_append_of_fail {e : DecodeError} (chunk : Bytes) (fed : d.isStarved = false)
    (step : readStep d.stack ⟨d.offset, d.unread⟩ = .fail e) :
    (d.append chunk).drain items = ({ d.append chunk with failure := some e }, items) := by
  have agrees := agrees_step d 0 chunk
  rw [step, Frame.shift_zero, List.map_id] at agrees
  generalize step' : readStep d.stack ⟨d.offset + 0, d.unread ++ chunk⟩ = reading at agrees
  cases agrees
  rw [DecodeError.shift_zero] at step'
  exact drain_fail (isStarved_append chunk fed) step'

/-- Bytes behind a failure change nothing. -/
theorem drain_append_of_failure (chunk : Bytes) (alive : d.failure = none) {e : DecodeError}
    (failed : (d.drain items).1.failure = some e) :
    ((d.append chunk).drain items).1.failure = some e ∧
      ((d.append chunk).drain items).2 = (d.drain items).2 := by
  fun_induction Decoder.drain d items with
  | case1 d items starved => simp [alive] at failed
  | case2 d items starved missing step => simp [alive] at failed
  | case3 d items starved e step =>
    rw [drain_append_of_fail chunk (by simpa using starved) step]
    exact ⟨failed, rfl⟩
  | case4 d items starved progress rest step ih =>
    rw [drain_append_of_done chunk (by simpa using starved) step]
    exact ih (by cases progress <;> exact alive) failed

/-- A decoder that has read as far as it can goes on like one that has all bytes at once. -/
theorem drain_append_of_alive (h : d.Honest) (chunk : Bytes)
    (alive : (d.drain items).1.failure = none) :
    Alike 0 (((d.drain items).1.append chunk).drain (d.drain items).2).1
        ((d.append chunk).drain items).1 ∧
      (((d.drain items).1.append chunk).drain (d.drain items).2).2 =
        ((d.append chunk).drain items).2 := by
  fun_induction Decoder.drain d items with
  | case1 d items starved => exact ⟨Alike.refl (honest_drain (h.append chunk) items), rfl⟩
  | case2 d items starved missing step =>
    have waits : Alike 0 { d with needed := d.unread.length + missing } d :=
      { Alike.refl h with honest := honest_of_more step }
    obtain ⟨alike, found⟩ := (waits.append chunk).drain items
    simp only [Item.shift_zero, List.map_id] at alike found
    exact ⟨alike, found.symm⟩
  | case3 d items starved e step => simp at alive
  | case4 d items starved progress rest step ih =>
    rw [drain_append_of_done chunk (by simpa using starved) step]
    exact ih (honest_advance d rest progress) alive

/-- Whoever has read as far as possible without a failure waits for more bytes. -/
theorem isStarved_drain (alive : (d.drain items).1.failure = none) :
    (d.drain items).1.isStarved = true := by
  fun_induction Decoder.drain d items with
  | case1 d items starved => exact starved
  | case2 d items starved missing step =>
    have some : 0 < missing := by
      have agrees := agrees_step d 0 []
      rw [step] at agrees
      generalize readStep (d.stack.map (Frame.shift 0)) _ = reading at agrees
      cases agrees <;> assumption
    rw [isStarved_iff]
    right
    change d.unread.length < d.unread.length + missing
    omega
  | case3 d items starved e step => simp at alive
  | case4 d items starved progress rest step ih => exact ih alive

/-! ## Chunks -/

/-- A decoder between two chunks, neither failed nor told of the end of its input. -/
structure AtRest (d : Decoder) : Prop where
  honest : d.Honest
  starved : d.isStarved = true
  alive : d.failure = none
  unfinished : d.finished = false

theorem atRest_new : new.AtRest :=
  ⟨honest_of_needed_eq_zero rfl, rfl, rfl, rfl⟩

theorem finished_drain (d : Decoder) (items : List Item) :
    (d.drain items).1.finished = d.finished := by
  fun_induction Decoder.drain d items with
  | case1 d items starved => rfl
  | case2 d items starved missing step => rfl
  | case3 d items starved e step => rfl
  | case4 d items starved progress rest step ih =>
    rw [ih]
    cases progress <;> rfl

theorem AtRest.feed_eq (h : d.AtRest) (chunk : Bytes) :
    d.feed chunk = (((d.append chunk).drain []).1, ((d.append chunk).drain []).2.reverse,
      ((d.append chunk).drain []).1.status) := by
  simp [feed, h.alive, h.unfinished]

theorem feed_of_failure {e : DecodeError} (failed : d.failure = some e) (chunk : Bytes) :
    d.feed chunk = (d, [], .error e) := by
  simp [feed, failed]

theorem AtRest.feed_result (h : d.AtRest) (chunk : Bytes) :
    (d.feed chunk).2.2 = (d.feed chunk).1.status := by
  rw [h.feed_eq]

/-- Between two chunks a decoder that has not failed is at rest. -/
theorem AtRest.feed (h : d.AtRest) {chunk : Bytes} (alive : (d.feed chunk).1.failure = none) :
    (d.feed chunk).1.AtRest := by
  rw [h.feed_eq] at alive ⊢
  refine ⟨honest_drain (h.honest.append chunk) [], isStarved_drain alive, alive, ?_⟩
  rw [finished_drain]
  exact h.unfinished

/-- Bytes behind a failure are not looked at. -/
theorem AtRest.feed_append_of_failure (h : d.AtRest) {a b : Bytes} {e : DecodeError}
    (failed : (d.feed a).1.failure = some e) :
    (d.feed (a ++ b)).1.failure = some e ∧ (d.feed (a ++ b)).2.1 = (d.feed a).2.1 := by
  have joined : d.append (a ++ b) = (d.append a).append b := by
    simp [Decoder.append]
  simp only [h.feed_eq, joined] at failed ⊢
  obtain ⟨failed, found⟩ := drain_append_of_failure (d := d.append a) b h.alive failed
  exact ⟨failed, congrArg List.reverse found⟩

/-- Two chunks lead where they lead at once. -/
theorem AtRest.feed_append_of_alive (h : d.AtRest) {a b : Bytes}
    (alive : (d.feed a).1.failure = none) :
    Alike 0 ((d.feed a).1.feed b).1 (d.feed (a ++ b)).1 ∧
      (d.feed (a ++ b)).2.1 = (d.feed a).2.1 ++ ((d.feed a).1.feed b).2.1 := by
  have joined : d.append (a ++ b) = (d.append a).append b := by
    simp [Decoder.append]
  rw [(h.feed alive).feed_eq b]
  simp only [h.feed_eq, joined] at alive ⊢
  obtain ⟨alike, found⟩ := drain_append_of_alive (h.honest.append a) b alive
  have split := drain_append (((d.append a).drain []).1.append b) [] ((d.append a).drain []).2
  rw [List.nil_append] at split
  rw [split] at alike found
  refine ⟨alike, ?_⟩
  rw [← found, List.reverse_append]

/-- Behind a chunk that is taken without an error come the others. -/
theorem feedAll_of_ok {chunk : Bytes} (taken : d.feed chunk = (d', items, .ok ()))
    (rest : List Bytes) : feedAll (chunk :: rest) d =
      ((feedAll rest d').1, items :: (feedAll rest d').2.1, (feedAll rest d').2.2) := by
  rw [feedAll, taken]

/-- Behind a chunk that fails nothing is fed. -/
theorem feedAll_of_error {chunk : Bytes} {e : DecodeError}
    (failed : d.feed chunk = (d', items, .error e)) (rest : List Bytes) :
    feedAll (chunk :: rest) d = (d', [items], .error e) := by
  rw [feedAll, failed]

/-- Chunks fed one after the other give out what they give out at once, and lead to the same
failure or to a decoder that is alike. -/
theorem feedAll_alike (chunks : List Bytes) (h : d.AtRest) :
    (feedAll chunks d).2.1.flatten = (d.feed chunks.flatten).2.1 ∧
      (feedAll chunks d).2.2 = (feedAll chunks d).1.status ∧
      (feedAll chunks d).1.failure = (d.feed chunks.flatten).1.failure ∧
      ((feedAll chunks d).1.failure = none →
        Alike 0 (feedAll chunks d).1 (d.feed chunks.flatten).1) := by
  -- `h` is kept from chunk to chunk as long as nothing fails
  induction chunks generalizing d with
  | nil =>
    have nothing : d.append [] = d := by
      simp [Decoder.append]
    rw [List.flatten_nil, h.feed_eq, nothing, drain_starved h.starved]
    refine ⟨rfl, ?_, rfl, fun _ => Alike.refl h.honest⟩
    simp [feedAll, status, h.alive]
  | cons chunk rest ih =>
    have result := h.feed_result chunk
    rw [List.flatten_cons]
    cases state : (d.feed chunk).1.failure with
    | some e =>
      have result : (d.feed chunk).2.2 = .error e := by
        rw [result, status, state]
      have cut := feedAll_of_error (Prod.ext rfl (Prod.ext rfl result) :
        d.feed chunk = ((d.feed chunk).1, (d.feed chunk).2.1, .error e)) rest
      obtain ⟨failed, found⟩ := h.feed_append_of_failure (b := rest.flatten) state
      rw [cut, failed, found]
      refine ⟨by simp, ?_, state, fun alive => ?_⟩
      · simp [status, state]
      · simp [state] at alive
    | none =>
      have result : (d.feed chunk).2.2 = .ok () := by
        rw [result, status, state]
      have cut := feedAll_of_ok (Prod.ext rfl (Prod.ext rfl result) :
        d.feed chunk = ((d.feed chunk).1, (d.feed chunk).2.1, .ok ())) rest
      obtain ⟨found, status, failure, alike⟩ := ih (h.feed state)
      obtain ⟨alike', found'⟩ := h.feed_append_of_alive (b := rest.flatten) state
      have failure' : (d.feed (chunk ++ rest.flatten)).1.failure =
          ((d.feed chunk).1.feed rest.flatten).1.failure := by
        rw [alike'.failure]
        cases ((d.feed chunk).1.feed rest.flatten).1.failure <;> simp
      rw [cut, found', failure']
      refine ⟨?_, status, failure, fun alive => (alike alive).trans alike'⟩
      rw [List.flatten_cons, found]

theorem Alike.pending (h : Alike k d d') : d'.pending = d.pending := by
  rw [Decoder.pending, h.taken, h.unread, Decoder.pending]

theorem Alike.hasPending (h : Alike k d d') : d'.hasPending = d.hasPending := by
  rw [Decoder.hasPending, h.taken, h.unread, Decoder.hasPending]

theorem finish_of_alive (alive : d.failure = none) :
    d.finish.2 = if d.finished then .error .finished
      else if d.hasPending then .error (.trailingBytes d.pending.length) else .ok () := by
  rw [finish, alive]
  dsimp only
  split <;> rfl

theorem finish_of_failure {e : DecodeError} (failed : d.failure = some e) :
    d.finish = (d, .error e) := by
  rw [finish, failed]

/-- However the input is cut into chunks, empty ones included, a new decoder gives out the same
values with the same offsets, and fails with the same error or not at all. After a failure every
call answers with that error, gives out nothing and changes nothing. Without one the same bytes
stay pending, and the end of the input is judged the same. -/
theorem feedAll_eq_feed_flatten (chunks : List Bytes) :
    let cut := feedAll chunks new
    let whole := new.feed chunks.flatten
    cut.2.1.flatten = whole.2.1 ∧ cut.2.2 = whole.2.2 ∧
      match cut.2.2 with
      | .error e =>
        (∀ chunk, cut.1.feed chunk = (cut.1, [], .error e) ∧
          whole.1.feed chunk = (whole.1, [], .error e)) ∧
        cut.1.finish = (cut.1, .error e) ∧ whole.1.finish = (whole.1, .error e)
      | .ok () =>
        cut.1.hasPending = whole.1.hasPending ∧ cut.1.pending = whole.1.pending ∧
          cut.1.finish.2 = whole.1.finish.2 := by
  intro cut whole
  obtain ⟨found, result, failure, alike⟩ := feedAll_alike chunks atRest_new
  have result : cut.2.2 = cut.1.status := result
  have failure : cut.1.failure = whole.1.failure := failure
  have result' : whole.2.2 = whole.1.status := atRest_new.feed_result _
  refine ⟨found, ?_, ?_⟩
  · rw [result, result', status, status, failure]
  · rw [result, status]
    cases state : cut.1.failure with
    | some e =>
      have state' : whole.1.failure = some e := failure ▸ state
      exact ⟨fun chunk => ⟨feed_of_failure state chunk, feed_of_failure state' chunk⟩,
        finish_of_failure state, finish_of_failure state'⟩
    | none =>
      have alike : Alike 0 cut.1 whole.1 := alike state
      refine ⟨alike.hasPending.symm, alike.pending.symm, ?_⟩
      rw [finish_of_alive state, finish_of_alive (failure ▸ state), alike.finished,
        alike.hasPending, alike.pending]

end Telemetry.Bysant.Decoder
