import Telemetry.Proofs.Bysant.Chunks
/-!
# Starting over in the middle of a value

The bytes of an unfinished value are enough to get a new decoder to where the old one stands: it
gives out nothing on the way, and goes on alike. This is why a decoder that is spent may be replaced
by a new one that is fed the bytes still pending.
-/

namespace Telemetry.Bysant.Decoder

variable {d d' : Decoder} {k : Nat}

/-- A new decoder that is fed the pending bytes, and more behind them, comes to a decoder that is
alike, with these bytes behind. -/
def Rewinds (d : Decoder) : Prop :=
  ∃ k d', Alike k d' d ∧
    ∀ more items, (new.append (d.pending ++ more)).drain items = (d'.append more).drain items

theorem rewinds_new_append (chunk : Bytes) : (new.append chunk).Rewinds := by
  have honest : (new.append chunk).Honest := atRest_new.honest.append chunk
  refine ⟨0, new.append chunk, Alike.refl honest, fun more items => ?_⟩
  rw [pending_append]
  simp [Decoder.append, pending, new]

theorem Rewinds.append (h : d.Rewinds) (chunk : Bytes) : (d.append chunk).Rewinds := by
  obtain ⟨k, d', alike, same⟩ := h
  refine ⟨k, d'.append chunk, alike.append chunk, fun more items => ?_⟩
  rw [pending_append, List.append_assoc, same]
  simp [Decoder.append]

/-- Whoever is alike reads the same token, shifted. -/
theorem Alike.step_done (h : Alike k d d') {progress : Progress} {rest : Place}
    (step : readStep d'.stack ⟨d'.offset, d'.unread⟩ = .done progress rest) :
    ∃ progress' rest', readStep d.stack ⟨d.offset, d.unread⟩ = .done progress' rest' ∧
      progress = progress'.shift k ∧ rest = rest'.shift k [] := by
  have agrees := h.step
  rw [step] at agrees
  generalize read : readStep d.stack ⟨d.offset, d.unread⟩ = reading at agrees
  cases agrees with
  | done same => exact ⟨_, _, rfl, same, rfl⟩
  | supplied some none => exact absurd some (Nat.not_lt_of_le none)

theorem Honest.fed (h : d.Honest) {progress : Progress} {rest : Place}
    (step : readStep d.stack ⟨d.offset, d.unread⟩ = .done progress rest) : d.isStarved = false := by
  rw [Bool.eq_false_iff]
  intro starved
  obtain ⟨used, bytes, -, some⟩ := uses_readStep _ _ _ _ step
  have some : d.unread ≠ [] := by
    intro none
    have bytes : d.unread = used ++ rest.bytes := bytes
    rw [none] at bytes
    obtain ⟨rfl, -⟩ := List.append_eq_nil_iff.mp bytes.symm
    exact absurd some (by decide)
  obtain ⟨missing, asks⟩ := h.step starved some
  rw [step] at asks
  cases asks

theorem pending_inside {stack : List Frame} {rest : Place}
    (step : readStep d.stack ⟨d.offset, d.unread⟩ = .done (.inside stack) rest) :
    (d.advance rest (.inside stack)).pending = d.pending := by
  obtain ⟨used, bytes, offset, -⟩ := uses_readStep _ _ _ _ step
  have bytes : d.unread = used ++ rest.bytes := bytes
  have length : rest.offset - d.offset = used.length := by
    rw [offset]
    exact Nat.add_sub_cancel_left ..
  simp [pending, advance, bytes, length]

/-- Reading a token keeps the way back, or starts it anew where it completes a value. -/
theorem Rewinds.advance (h : d.Rewinds) (alive : d.failure = none) (unfinished : d.finished = false)
    {progress : Progress} {rest : Place}
    (step : readStep d.stack ⟨d.offset, d.unread⟩ = .done progress rest) :
    (d.advance rest progress).Rewinds := by
  cases progress with
  | emitted item =>
    have start : Alike rest.offset (new.append rest.bytes) (d.advance rest (.emitted item)) :=
      ⟨rfl, rfl, (Nat.zero_add _).symm, rfl, alive, unfinished, atRest_new.honest.append _,
        honest_advance d rest _⟩
    refine ⟨rest.offset, new.append rest.bytes, start, fun more items => ?_⟩
    simp [Decoder.append, Decoder.advance, pending, new]
  | inside stack =>
    obtain ⟨k, d', alike, same⟩ := h
    obtain ⟨progress', rest', step', shifted, shifted'⟩ := alike.step_done step
    have kept := pending_inside step
    cases progress' with
    | emitted item => cases shifted
    | inside stack' =>
      rw [shifted, shifted'] at kept ⊢
      refine ⟨k, _, alike.advance rest' (.inside stack'), fun more items => ?_⟩
      rw [kept, same, drain_append_of_done more (alike.honest.fed step') step']
      rfl

/-- Whatever was read, there is a way back as long as nothing was malformed. -/
theorem Rewinds.drain {items : List Item} (h : d.Rewinds) (unfinished : d.finished = false)
    (alive : d.failure = none) (alive' : (d.drain items).1.failure = none) :
    (d.drain items).1.Rewinds := by
  fun_induction Decoder.drain d items with
  | case1 d items starved => exact h
  | case2 d items starved missing step =>
    obtain ⟨k, d', alike, same⟩ := h
    exact ⟨k, d', { alike with honest' := honest_of_more step }, same⟩
  | case3 d items starved e step => simp at alive'
  | case4 d items starved progress rest step ih =>
    have kept := h.advance alive unfinished step
    cases progress with
    | inside stack => exact ih kept unfinished alive alive'
    | emitted item => exact ih kept unfinished alive alive'

theorem rewinds_new : new.Rewinds := rewinds_new_append []

theorem AtRest.feed_rewinds (h : d.AtRest) (back : d.Rewinds) {chunk : Bytes}
    (alive : (d.feed chunk).1.failure = none) : (d.feed chunk).1.Rewinds := by
  rw [h.feed_eq] at alive ⊢
  exact (back.append chunk).drain h.unfinished h.alive alive

/-- A new decoder that is fed the pending bytes of one at rest gives out nothing and goes on like
that one. -/
theorem AtRest.feed_pending (h : d.AtRest) (back : d.Rewinds) :
    ∃ k fresh, new.feed d.pending = (fresh, [], .ok ()) ∧ Alike k fresh d := by
  obtain ⟨k, d', alike, same⟩ := back
  have same : (new.append d.pending).drain [] = d'.drain [] := by
    simpa [Decoder.append] using same [] []
  obtain ⟨alike, found⟩ := alike.drain []
  have waits : d.drain ([].map (Item.shift k)) = (d, []) := drain_starved h.starved
  rw [waits] at alike found
  have nothing : (d'.drain []).2 = [] := List.map_eq_nil_iff.mp found.symm
  have alive : (d'.drain []).1.failure = none := by
    have := alike.failure
    rw [h.alive] at this
    exact Option.map_eq_none_iff.mp this.symm
  refine ⟨k, (d'.drain []).1, ?_, alike⟩
  rw [atRest_new.feed_eq, same, nothing, status, alive]
  rfl

end Telemetry.Bysant.Decoder
