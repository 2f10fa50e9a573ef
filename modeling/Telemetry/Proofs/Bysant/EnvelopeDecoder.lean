import Telemetry.Proofs.Bysant.Descent
import Telemetry.Proofs.Bysant.Soundness
import Telemetry.Proofs.Gateway.Segmentation
/-!
# What an envelope decoder makes of the encoding of an envelope

An envelope that keeps to the limits is read from its encoding. Whatever else is read from bytes that
start like an envelope is an envelope that keeps to the limits.
-/

namespace Telemetry.Bysant

variable {e : Envelope} {b : Bytes} {room : Nat} {item : Item} {place rest : Place}

/-! ## The tag of an envelope -/

theorem gives_envelope (inside : Option (Reader Item)) (start : Nat) :
    Reader.Gives (fun v => ∃ e, v = .envelope e) (Form.envelope.value inside start) := by
  refine (Reader.gives_true _).bind fun item _ => ?_
  refine (Reader.gives_true _).bind fun header _ => ?_
  refine (Reader.gives_true _).bind fun payload _ => ?_
  refine (Reader.gives_true _).bind fun footer _ => ?_
  cases made : envelopeOf header payload footer with
  | error error => exact Reader.gives_fail error
  | ok v =>
    refine Reader.gives_pure ?_
    unfold envelopeOf at made
    obtain ⟨_, _, made⟩ := of_bind_eq_ok made
    obtain ⟨_, _, made⟩ := of_bind_eq_ok made
    obtain ⟨_, _, made⟩ := of_bind_eq_ok made
    obtain ⟨_, _, made⟩ := of_bind_eq_ok made
    exact ⟨_, (Except.ok.inj made).symm⟩

/-- What is read behind the tag of an envelope is one. -/
theorem envelope_of_tag (read : Bysant.item (room + 1) ⟨0, 0x6F :: b⟩ = .done item rest) :
    ∃ e, item.value = .envelope e := by
  have tagged : Reader.Gives (fun item : Item => ∃ e, item.value = .envelope e)
      (Form.envelope.value (some (Bysant.item room)) 0 >>= fun v => Pure.pure ⟨0, v⟩) := by
    refine (gives_envelope _ _).bind fun v is => Reader.gives_pure ?_
    exact is
  refine tagged ⟨1, b⟩ item rest ?_
  rw [← read]
  rfl

/-! ## Whole envelopes -/

/-- Behind what a decoder has read, these bytes hold these envelopes and nothing else. -/
structure Decoder.Finds (reader : Decoder) (b : Bytes) (envelopes : List Envelope) : Prop where
  rest : reader.AtRest
  units : AreUnits (reader.feed b).2.1
  found : unitsOf (reader.feed b).2.1 = envelopes
  alive : (reader.feed b).1.failure = none

/-- A decoder at rest for which no bytes wait reads values from their encoding as a new one does, at
some other offset, and no bytes wait for it then either. -/
theorem Decoder.AtRest.feed_encodeAll {reader : Decoder} (rest : reader.AtRest)
    (back : reader.Rewinds) (whole : reader.hasPending = false) {vs : List Value}
    (sound : ∀ v ∈ vs, v.Sound maxDepth) : ∃ (k : Nat) (items : List Item),
      items.map Item.value = vs ∧ (reader.feed (encodeAll vs)).2.1 = items.map (Item.shift k) ∧
        (reader.feed (encodeAll vs)).1.failure = none ∧
          (reader.feed (encodeAll vs)).1.hasPending = false := by
  -- a new decoder is alike, as no bytes are pending
  obtain ⟨k, fresh, started, alike⟩ := rest.feed_pending back
  rw [Decoder.pending_of_hasPending whole, Decoder.atRest_new.feed_nil] at started
  obtain rfl : Decoder.new = fresh := congrArg Prod.fst started
  obtain ⟨items, are, fed⟩ := Decoder.feed_encodeAll sound
  obtain ⟨alike, found⟩ := alike.feed Decoder.atRest_new rest (encodeAll vs)
  rw [fed] at alike found
  exact ⟨k, items, are, found, alike.failure.trans rfl, alike.hasPending.trans rfl⟩

/-- Units that keep to the limits are found in their encoding. -/
theorem Decoder.AtRest.finds_encodeAll {reader : Decoder} (rest : reader.AtRest)
    (back : reader.Rewinds) (whole : reader.hasPending = false) {vs : List Value}
    (sound : ∀ v ∈ vs, v.Sound maxDepth) (units : ∀ v ∈ vs, v.unit?.isSome) :
    reader.Finds (encodeAll vs) (vs.filterMap Value.unit?) := by
  obtain ⟨k, items, are, found, alive, -⟩ := rest.feed_encodeAll back whole sound
  have values : (reader.feed (encodeAll vs)).2.1.map Item.value = vs := by
    rw [found, List.map_map]
    exact are
  refine ⟨rest, areUnits_of_values ?_, ?_, alive⟩
  · rwa [values]
  · rw [unitsOf_eq, values]

theorem Decoder.AtRest.finds_encode {reader : Decoder} (rest : reader.AtRest)
    (back : reader.Rewinds) (whole : reader.hasPending = false)
    (sound : (Value.envelope e).Sound maxDepth) : reader.Finds e.encode [e] := by
  have encoded : encodeAll [.envelope e] = e.encode := List.append_nil _
  rw [← encoded]
  exact rest.finds_encodeAll back whole (by simpa using sound) (by simp [Value.unit?])

/-- An envelope that keeps to the limits is found in its encoding. -/
theorem Decoder.finds_encode (sound : (Value.envelope e).Sound maxDepth) :
    Decoder.new.Finds e.encode [e] := Decoder.atRest_new.finds_encode Decoder.rewinds_new rfl sound

/-- What is found in some bytes is found in their parts, one after the other. -/
theorem Decoder.Finds.split {reader : Decoder} {a : Bytes} {envelopes : List Envelope}
    (h : reader.Finds (a ++ b) envelopes) : ∃ front back, envelopes = front ++ back ∧
      reader.Finds a front ∧ (reader.feed a).1.Finds b back := by
  cases failure : (reader.feed a).1.failure with
  | some error =>
    have failed := (h.rest.feed_append_of_failure (b := b) failure).1
    rw [h.alive] at failed
    cases failed
  | none =>
    obtain ⟨alike, joined⟩ := h.rest.feed_append_of_alive (b := b) failure
    have units := h.units
    have alive := alike.failure
    rw [joined] at units
    rw [h.alive] at alive
    have parts := h.found
    rw [joined, unitsOf_append] at parts
    refine ⟨_, _, parts.symm, ⟨h.rest, ?_, rfl, failure⟩, ⟨h.rest.feed failure, ?_, rfl, ?_⟩⟩
    · exact fun item member => units item (List.mem_append_left _ member)
    · exact fun item member => units item (List.mem_append_right _ member)
    · exact Option.map_eq_none_iff.mp alive.symm

/-- An envelope decoder that has given out nothing yet gives out what is found. -/
theorem Decoder.Finds.feed {reader : Decoder} {envelopes : List Envelope}
    (h : reader.Finds b envelopes) : EnvelopeDecoder.feed ⟨reader, false⟩ b =
      (⟨(reader.feed b).1, !envelopes.isEmpty⟩, envelopes, .ok ()) := by
  have alive : (reader.feed b).2.2 = .ok () := by
    rw [h.rest.feed_result, Decoder.status_eq_ok_iff.mpr h.alive]
  rw [← h.found, ← alive]
  exact EnvelopeDecoder.feed_of_units rfl h.units

/-- An envelope that keeps to the limits is read from its encoding. -/
theorem EnvelopeDecoder.feed_encode (sound : (Value.envelope e).Sound maxDepth) :
    ∃ d, new.feed e.encode = (d, [e], .ok ()) :=
  ⟨_, (Decoder.finds_encode sound).feed⟩

/-- The payload of an envelope that was read from bytes which start like one is not too long. -/
theorem EnvelopeDecoder.length_payload_of_feed {d : EnvelopeDecoder} {others : List Envelope}
    (fed : new.feed (0x6F :: b) = (d, e :: others, .ok ())) : e.payload.length ≤ maxLength := by
  -- the first value that the decoder finds, if it finds any
  have reads := Decoder.readsOn_item ⟨0, 0x6F :: b⟩ []
  have start : Decoder.new.append (0x6F :: b) = Decoder.infront 0 (0x6F :: b) := rfl
  simp only [feed, new, Bool.false_eq_true, if_false, Decoder.atRest_new.feed_eq, start] at fed
  cases read : Bysant.item maxDepth ⟨0, 0x6F :: b⟩ with
  | more missing =>
    rw [read] at reads
    obtain ⟨-, -, -, none⟩ := reads
    rw [none] at fed
    cases fed
  | fail error =>
    rw [read] at reads
    have failed : ((Decoder.infront 0 (0x6F :: b)).drain []).1.failure = some error := reads
    rw [Decoder.status, failed] at fed
    split at fed <;> cases fed
  | done item rest =>
    rw [read] at reads
    have drained : (Decoder.infront 0 (0x6F :: b)).drain [] =
        (Decoder.infront rest.offset rest.bytes).drain [item] := reads
    obtain ⟨-, found, -, more, -⟩ := (Decoder.infront rest.offset rest.bytes).pending_drain [item]
    have outside : SoundStack (Decoder.infront 0 (0x6F :: b)).stack := trivial
    have sound : ∀ item ∈ ((Decoder.infront 0 (0x6F :: b)).drain []).2,
        item.value.Sound maxDepth := (Decoder.drain_sound outside (by simp)).2
    rw [drained, more] at sound
    obtain ⟨first, is⟩ := envelope_of_tag read
    have short := (sound item (by simp)).isShort
    rw [drained, more, List.reverse_append, List.reverse_singleton, List.singleton_append] at fed
    obtain ⟨offset, value⟩ := item
    obtain rfl : value = .envelope first := is
    simp only [envelopesOf] at fed
    simp only [Value.isShort, decide_eq_true_eq] at short
    cases others' : envelopesOf found.reverse with
    | error error =>
      rw [others'] at fed
      cases fed
    | ok later =>
      rw [others'] at fed
      obtain rfl : first = e :=
        (List.cons.inj (congrArg (fun parts => parts.2.1) fed)).1
      exact short.2.2.1

end Telemetry.Bysant
