import Telemetry.Proofs.Bysant.Poisoning
import Telemetry.Proofs.Bysant.Promptness
/-!
# A new decoder takes over

A decoder that has given out envelopes is spent, and the bytes behind them go to a new one. These
bytes complete no envelope and are not malformed, so that one new decoder is enough. It reads on
like a decoder that has read the whole stream, up to the next chunk that completes a value. Only
the offsets in its errors count from a later byte.
-/

namespace Telemetry.Bysant

namespace Decoder

variable {d d' : Decoder} {k : Nat} {items : List Item}

/-! ## How far a decoder was fed -/

/-- Where the bytes that the decoder was fed end in the input. -/
def fedTo (d : Decoder) : Nat := d.offset + d.unread.length

theorem fedTo_append (d : Decoder) (chunk : Bytes) :
    (d.append chunk).fedTo = d.fedTo + chunk.length := by
  rw [fedTo, fedTo, append, List.length_append, Nat.add_assoc]

/-- Reading a token does not change how far a decoder was fed. -/
theorem fedTo_advance {progress : Progress} {rest : Place}
    (step : readStep d.stack ⟨d.offset, d.unread⟩ = .done progress rest) :
    (d.advance rest progress).fedTo = d.fedTo := by
  obtain ⟨used, bytes, offset, -⟩ := uses_readStep _ _ _ _ step
  have bytes : d.unread = used ++ rest.bytes := bytes
  have offset : rest.offset = d.offset + used.length := offset
  have same : (d.advance rest progress).fedTo = rest.offset + rest.bytes.length := by
    cases progress <;> rfl
  rw [same, fedTo, bytes, offset, List.length_append, Nat.add_assoc]

theorem fedTo_drain (d : Decoder) (items : List Item) : (d.drain items).1.fedTo = d.fedTo := by
  fun_induction Decoder.drain d items with
  | case1 d items starved => rfl
  | case2 d items starved missing step => rfl
  | case3 d items starved e step => rfl
  | case4 d items starved progress rest step ih => exact ih.trans (fedTo_advance step)

theorem AtRest.fedTo_feed (h : d.AtRest) (chunk : Bytes) :
    (d.feed chunk).1.fedTo = d.fedTo + chunk.length := by
  rw [h.feed_eq]
  exact (fedTo_drain _ _).trans (fedTo_append d chunk)

/-- Decoders that are alike were fed equally far, but for the bytes in front. -/
theorem Alike.fedTo (h : Alike k d d') : d'.fedTo = d.fedTo + k := by
  rw [Decoder.fedTo, Decoder.fedTo, h.offset, h.unread]
  omega

/-! ## Chunks without an error -/

/-- A decoder that was fed so many bytes without an error, and could start over. -/
structure Sane (d : Decoder) (n : Nat) : Prop where
  rest : d.AtRest
  back : d.Rewinds
  fedTo : d.fedTo = n

theorem Sane.feed {n : Nat} (h : d.Sane n) {chunk : Bytes} (ok : (d.feed chunk).2.2 = .ok ()) :
    (d.feed chunk).1.Sane (n + chunk.length) := by
  have alive : (d.feed chunk).1.failure = none := by
    rwa [h.rest.feed_result, status_eq_ok_iff] at ok
  exact ⟨h.rest.feed alive, h.rest.feed_rewinds h.back alive, by rw [h.rest.fedTo_feed, h.fedTo]⟩

end Decoder

namespace EnvelopeDecoder

variable {d before after : EnvelopeDecoder} {chunk : Bytes} {chunks : List Bytes}
  {envelopes : List Envelope} {outs : List (List Envelope)}

theorem feedAll_of_ok (taken : d.feed chunk = (after, envelopes, .ok ())) (rest : List Bytes) :
    feedAll (chunk :: rest) d = ((feedAll rest after).1, envelopes :: (feedAll rest after).2.1,
      (feedAll rest after).2.2) := by
  rw [feedAll, taken]

theorem feedAll_of_error {e : DecodeError} (failed : d.feed chunk = (after, envelopes, .error e))
    (rest : List Bytes) : feedAll (chunk :: rest) d = (after, [envelopes], .error e) := by
  rw [feedAll, failed]

section Alike

variable {reader values : Decoder} {k : Nat}

/-- An envelope decoder makes of a chunk what any decoder makes of it that is alike to the one
underneath. -/
theorem feed_of_alike (alike : Decoder.Alike k values reader) (rest : values.AtRest)
    (rest' : reader.AtRest) (units : AreUnits (reader.feed chunk).2.1) :
    feed ⟨values, false⟩ chunk =
      (⟨(values.feed chunk).1, !(unitsOf (reader.feed chunk).2.1).isEmpty⟩,
        unitsOf (reader.feed chunk).2.1, (values.feed chunk).1.status) ∧
    (reader.feed chunk).2.2 = shiftResult k id (values.feed chunk).1.status := by
  obtain ⟨alike', found⟩ := alike.feed rest rest' chunk
  rw [found] at units ⊢
  rw [unitsOf_shift]
  refine ⟨?_, ?_⟩
  · rw [← rest.feed_result]
    exact feed_of_units rfl (areUnits_shift units)
  · rw [rest'.feed_result, Decoder.status, alike'.failure, Decoder.status]
    cases (values.feed chunk).1.failure <;> rfl

end Alike

end EnvelopeDecoder

end Telemetry.Bysant
