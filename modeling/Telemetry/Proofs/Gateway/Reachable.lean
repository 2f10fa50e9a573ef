import Telemetry.Proofs.Bysant.EnvelopeDecoder
/-!
# Open connections

A connection stays open as long as whatever it is fed is made of envelopes and messages, and none of
them makes it close. Its decoder then always stands where it could be replaced by a new one, so that
between two envelopes it reads like a new one.
-/

namespace Telemetry

open Bysant

namespace Bysant

variable {items : List Item} {envelopes : List Envelope}

theorem areUnits_of_envelopesOf (read : EnvelopeDecoder.envelopesOf items = .ok envelopes) :
    AreUnits items := by
  induction items generalizing envelopes with
  | nil => exact fun item member => by cases member
  | cons item rest ih =>
    obtain ⟨offset, value⟩ := item
    have others {f : List Envelope → List Envelope}
        (read : (EnvelopeDecoder.envelopesOf rest).map f = .ok envelopes) : AreUnits rest := by
      cases parts : EnvelopeDecoder.envelopesOf rest with
      | error e => rw [parts] at read; cases read
      | ok more => exact ih parts
    cases value with
    | envelope e => exact List.forall_mem_cons.mpr ⟨rfl, others read⟩
    | message m => exact List.forall_mem_cons.mpr ⟨rfl, others read⟩
    | _ => cases read

/-- A decoder that follows another one stands where it could start over by itself. -/
theorem EnvelopeDecoder.Follows.self {d : EnvelopeDecoder} {reader : Decoder} (h : d.Follows reader) :
    d.Follows d.values :=
  ⟨h.fresh, h.rest, h.back, 0, Decoder.Alike.refl h.rest.honest⟩

end Bysant

namespace Connection

variable {c : Connection} {d : EnvelopeDecoder} {chunk : Bytes}

/-- Only envelopes and messages are decoded without an error. -/
theorem areUnits_of_decode (h : d.Follows d.values) (decoded : (decode d chunk).2.2 = .ok ()) :
    AreUnits (d.values.feed chunk).2.1 := by
  obtain ⟨values, spent⟩ := d
  obtain rfl : spent = false := h.fresh
  cases read : EnvelopeDecoder.envelopesOf (values.feed chunk).2.1 with
  | ok envelopes => exact areUnits_of_envelopesOf read
  | error e =>
    exfalso
    have fed : EnvelopeDecoder.feed ⟨values, false⟩ chunk =
        (⟨(values.feed chunk).1, false⟩, [], .error e) := by
      simp [EnvelopeDecoder.feed, read]
    rw [decode, fed] at decoded
    cases decoded

/-- A connection that stays open has decoded its input without an error. -/
theorem decode_of_open {g : Gateway} (stays : (c.onBytes chunk g).1.close = false) :
    (decode c.decoder chunk).2.2 = .ok () := by
  unfold onBytes at stays
  cases result : (decode c.decoder chunk).2.2 with
  | ok => rfl
  | error e => simp [result] at stays

/-- A connection that was created, was fed any chunks, each while the gateway was in any state, and
has stayed open. -/
inductive Reachable : Connection → Prop where
  | created : Reachable {}
  | fed {c : Connection} (reachable : Reachable c) (chunk : Bytes) (g : Gateway)
      (stays : (c.onBytes chunk g).1.close = false) : Reachable (c.onBytes chunk g).2.1

/-- The decoder of an open connection could always be replaced by a new one. -/
theorem Reachable.follows (h : c.Reachable) : c.decoder.Follows c.decoder.values := by
  -- a chunk that leaves the connection open is made of units and does not fail
  induction h with
  | created => exact EnvelopeDecoder.follows_new
  | @fed c reachable chunk g stays ih =>
    have decoded := decode_of_open stays
    have after := (decode_of_follows ih ih.rest chunk (areUnits_of_decode ih decoded)).2
    cases failure : (c.decoder.values.feed chunk).1.failure with
    | none =>
      rw [failure] at after
      exact after.2.self
    | some e =>
      rw [failure] at after
      obtain ⟨e', failed⟩ := after
      rw [failed] at decoded
      cases decoded

/-- Between two envelopes, the decoder of an open connection gives out the envelopes whose encoding
it is fed, and nothing is left. -/
theorem decode_encodeAll (h : d.Follows d.values) (whole : d.hasPending = false) {vs : List Value}
    (sound : ∀ v ∈ vs, v.Sound maxDepth) (units : ∀ v ∈ vs, v.unit?.isSome) :
    ∃ after : EnvelopeDecoder, decode d (encodeAll vs) = (after, vs.filterMap Value.unit?, .ok ()) ∧
      after.hasPending = false := by
  obtain ⟨k, items, are, -, -, none⟩ := h.rest.feed_encodeAll h.back whole sound
  have finds := h.rest.finds_encodeAll h.back whole sound units
  obtain ⟨envelopes, result⟩ := decode_of_follows h h.rest (encodeAll vs) finds.units
  rw [finds.alive] at result
  obtain ⟨decoded, follows⟩ := result
  rw [finds.found] at envelopes
  refine ⟨(decode d (encodeAll vs)).1, ?_, ?_⟩
  · rw [← envelopes, ← decoded]
  · obtain ⟨j, alike⟩ := follows.alike
    exact alike.hasPending.symm.trans none

end Connection

end Telemetry
