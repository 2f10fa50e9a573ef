import Telemetry.Proofs.Bysant.Blame
import Telemetry.Proofs.Bysant.Poisoning
/-!
# Offsets of errors

A decoder reads its input in chunks and keeps offsets in open containers, to tell them when the
container closes. However the input is cut, an error with an offset points to a byte that was fed,
inside the value that comes behind the whole ones, and to what it is about.
-/

namespace Telemetry.Bysant

variable {b : Bytes} {o : Nat} {e : DecodeError} {item : Item} {rest : Place}

/-! ## Whole values in front -/

/-- So many bytes are made up of whole values. -/
def Reached (b : Bytes) (o : Nat) : Prop :=
  ∃ parts : List Bytes, parts.flatten <+: b ∧ parts.flatten.length = o ∧
    ∀ part ∈ parts, ∃ v, decode part = .ok [v]

theorem reached_zero : Reached b 0 := ⟨[], List.nil_prefix, rfl, nofun⟩

theorem Reached.inside (h : Reached b o) : o ≤ b.length := by
  obtain ⟨parts, front, rfl, -⟩ := h
  exact front.length_le

/-- A value behind whole ones is one more of them. -/
theorem Reached.next (h : Reached b o) (read : Bysant.item maxDepth (placeAt b o) = .done item rest) :
    Reached b rest.offset := by
  obtain ⟨part, bytes, offset, decoded⟩ := decode_of_done read
  obtain ⟨parts, front, length, whole⟩ := h
  refine ⟨parts ++ [part], ?_, ?_, ?_⟩
  · obtain ⟨back, rfl⟩ := front
    have bytes : (parts.flatten ++ back).drop o = part ++ rest.bytes := bytes
    rw [List.drop_left' length] at bytes
    rw [bytes, List.flatten_append, List.flatten_singleton, ← List.append_assoc]
    exact List.prefix_append ..
  · have offset : rest.offset = o + part.length := offset
    simp [offset, ← length]
  · intro part' member
    rcases List.mem_append.mp member with member | member
    · exact whole part' member
    · exact ⟨item.value, by rw [List.mem_singleton.mp member, decoded]⟩

/-- A value that stands behind whole ones. -/
def IsFound (b : Bytes) (item : Item) : Prop :=
  Reached b item.offset ∧ ∃ rest, Bysant.item maxDepth (placeAt b item.offset) = .done item rest

namespace Decoder

variable {d : Decoder}

/-- Nothing is given out of a value that is malformed. -/
theorem found_of_readOut (fresh : d.needed = 0)
    (fails : readOut d.stack ⟨d.offset, d.unread⟩ = .fail e) (items : List Item) :
    (d.drain items).2 = items := by
  generalize inside : d.stack = stack at fails
  generalize at_ : (⟨d.offset, d.unread⟩ : Place) = place at fails
  -- along the steps, none of which completes a value
  induction stack, place using readOutAt.induct generalizing d with
  | case1 stack place item rest step =>
    rw [readOut_eq, Reader.bind_apply, step] at fails
    cases fails
  | case2 stack place stack' rest step ih =>
    subst inside at_
    rw [readOut_eq, Reader.bind_apply, step] at fails
    rw [drain_done (isStarved_of_step fresh step) step]
    exact ih (d := d.advance rest (.inside stack')) rfl rfl rfl fails
  | case3 stack place missing step =>
    rw [readOut_eq, Reader.bind_apply, step] at fails
    cases fails
  | case4 stack place error step =>
    subst inside at_
    have some : d.unread ≠ [] := by
      intro none
      rw [none, readStep_nil] at step
      cases step
    rw [drain_fail (isStarved_of_fresh fresh some) step]

/-- What a decoder finds behind whole values is found there by the parser, and it fails where the
parser fails. -/
theorem drain_of_reached {place : Place} (here : placeAt b place.offset = place)
    (reached : Reached b place.offset) (items : List Item) :
    (∀ item ∈ ((infront place.offset place.bytes).drain items).2, item ∈ items ∨ IsFound b item) ∧
      ∀ e, ((infront place.offset place.bytes).drain items).1.failure = some e →
        ∃ start, Reached b start ∧ Bysant.item maxDepth (placeAt b start) = .fail e := by
  have reads := readsOn_item place items
  -- along the whole values, up to one that is cut short or malformed
  induction place using parseFrom.induct generalizing items with
  | case1 place none =>
    have starved : (infront place.offset place.bytes).isStarved = true := by
      simp [isStarved, infront, none]
    rw [drain_starved starved]
    refine ⟨fun item member => .inl member, fun e failed => ?_⟩
    cases failed
  | case2 place some item rest read ih =>
    rw [read] at reads
    rw [← here] at read
    obtain ⟨same, -⟩ := (uses_item maxDepth).placeAt read reached.inside
    have offset : item.offset = (placeAt b place.offset).offset := offset_of_item read
    have found : IsFound b item := by
      rw [IsFound, offset]
      exact ⟨reached, rest, read⟩
    have drained : (infront place.offset place.bytes).drain items =
        (infront rest.offset rest.bytes).drain (item :: items) := reads
    obtain ⟨others, fails⟩ := ih same.symm (reached.next read) (item :: items) (readsOn_item rest _)
    rw [drained]
    refine ⟨fun item' member => ?_, fails⟩
    rcases others item' member with member | found'
    · rcases List.mem_cons.mp member with rfl | member
      · exact .inr found
      · exact .inl member
    · exact .inr found'
  | case3 place some missing read =>
    rw [read] at reads
    obtain ⟨failure, -, -, same⟩ := reads
    rw [same, failure]
    refine ⟨fun item member => .inl member, fun e failed => ?_⟩
    cases failed
  | case4 place some error read =>
    rw [read] at reads
    have failure : ((infront place.offset place.bytes).drain items).1.failure = .some error := reads
    have fails : readOut (infront place.offset place.bytes).stack place = .fail error :=
      (congrFun readOut_nil place).trans read
    rw [found_of_readOut rfl fails, failure]
    refine ⟨fun item member => .inl member, fun e same => ⟨place.offset, reached, ?_⟩⟩
    rw [here, read, Option.some.inj same]

/-- What a new decoder gives out stands behind whole values, and it fails with an error about the
value behind them. -/
theorem feed_new_spec (b : Bytes) : (∀ item ∈ (new.feed b).2.1, IsFound b item) ∧
    ∀ e, (new.feed b).1.failure = some e → ∃ start, Reached b start ∧ Blames b start e := by
  have reached : Reached b (Place.mk 0 b).offset := reached_zero
  obtain ⟨found, fails⟩ := drain_of_reached rfl reached []
  have start : new.append b = infront 0 b := rfl
  rw [atRest_new.feed_eq, start]
  refine ⟨fun item member => ?_, fun e failed => ?_⟩
  · rcases found item (List.mem_reverse.mp member) with none | found
    · cases none
    · exact found
  · obtain ⟨start, reached, fails⟩ := fails e failed
    exact ⟨start, reached, blames_of_item reached.inside .outermost fails⟩

end Decoder

/-! ## Arrivals -/

/-- What a decoder is told: a chunk of its input, or that the input ends. -/
inductive Arrival where
  | chunk (bytes : Bytes)
  | ending

def Arrival.bytes : Arrival → Bytes
  | chunk bytes => bytes
  | ending => []

namespace Decoder

variable {d : Decoder} {fed : Bytes}

/-- The decoder behind an arrival, and what it answers. -/
def take (d : Decoder) : Arrival → Decoder × Except DecodeError Unit
  | .chunk bytes => ((d.feed bytes).1, (d.feed bytes).2.2)
  | .ending => d.finish

/-- A new decoder behind some arrivals, whatever it answered to each. -/
def behind (arrivals : List Arrival) : Decoder :=
  arrivals.foldl (fun d arrival => (d.take arrival).1) new

/-- A decoder that was fed these bytes, in whatever chunks: it stands where a new decoder stands that
is fed them at once, or takes no more input. -/
inductive HasRead (d : Decoder) (fed : Bytes) : Prop
  | alive : d.AtRest → Alike 0 d (new.feed fed).1 → HasRead d fed
  | failed {e : DecodeError} : d.failure = some e → (new.feed fed).1.failure = some e → HasRead d fed
  | finished : d.failure = none → d.finished = true → HasRead d fed

theorem hasRead_new : new.HasRead [] := by
  refine .alive atRest_new ?_
  rw [atRest_new.feed_nil]
  exact Alike.refl atRest_new.honest

theorem HasRead.failure (h : d.HasRead fed) (failed : d.failure = some e) :
    (new.feed fed).1.failure = some e := by
  cases h with
  | alive rest _ =>
    rw [rest.alive] at failed
    cases failed
  | failed same failed' =>
    rw [same] at failed
    rwa [← Option.some.inj failed]
  | finished alive _ =>
    rw [alive] at failed
    cases failed

theorem feed_of_finished (alive : d.failure = none) (finished : d.finished = true) (chunk : Bytes) :
    d.feed chunk = (d, [], .error .finished) := by
  simp [feed, alive, finished]

/-- A decoder that has read some bytes of the input reads on like one that has all of them at once. -/
theorem AtRest.feed_of_alike (rest : d.AtRest) (alike : Alike 0 d (new.feed fed).1) (chunk : Bytes) :
    Alike 0 (d.feed chunk).1 (new.feed (fed ++ chunk)).1 ∧
      (new.feed (fed ++ chunk)).2.1 = (new.feed fed).2.1 ++ (d.feed chunk).2.1 := by
  have alive : (new.feed fed).1.failure = none := by rw [alike.failure, rest.alive, Option.map_none]
  obtain ⟨first, found⟩ := alike.feed rest (atRest_new.feed alive) chunk
  obtain ⟨second, found'⟩ := atRest_new.feed_append_of_alive (b := chunk) alive
  rw [Item.shift_zero, List.map_id] at found
  exact ⟨first.trans second, by rw [found', found]⟩

theorem HasRead.feed (h : d.HasRead fed) (chunk : Bytes) : (d.feed chunk).1.HasRead (fed ++ chunk) := by
  cases h with
  | alive rest alike =>
    have alike' := (rest.feed_of_alike alike chunk).1
    cases failure : (d.feed chunk).1.failure with
    | some e =>
      refine .failed failure ?_
      rw [alike'.failure, failure, Option.map_some, DecodeError.shift_zero]
    | none => exact .alive (rest.feed failure) alike'
  | failed failed failed' =>
    rw [feed_of_failure failed]
    exact .failed failed (atRest_new.feed_append_of_failure failed').1
  | finished alive finished =>
    rw [feed_of_finished alive finished]
    exact .finished alive finished

theorem HasRead.finish (h : d.HasRead fed) : d.finish.1.HasRead fed := by
  cases failure : d.failure with
  | some e =>
    rw [finish_of_failure failure]
    exact h
  | none =>
    simp only [Decoder.finish, failure]
    split
    · exact h
    · exact .finished rfl rfl

theorem HasRead.take (h : d.HasRead fed) (arrival : Arrival) :
    (d.take arrival).1.HasRead (fed ++ arrival.bytes) := by
  cases arrival with
  | chunk bytes => exact h.feed bytes
  | ending =>
    rw [Arrival.bytes, List.append_nil]
    exact h.finish

/-- What is given out of a chunk stands behind whole values. -/
theorem HasRead.isFound (h : d.HasRead fed) (chunk : Bytes) :
    ∀ item ∈ (d.feed chunk).2.1, IsFound (fed ++ chunk) item := by
  intro item member
  cases h with
  | alive rest alike =>
    refine (feed_new_spec (fed ++ chunk)).1 item ?_
    rw [(rest.feed_of_alike alike chunk).2]
    exact List.mem_append_right _ member
  | failed failed _ =>
    rw [feed_of_failure failed] at member
    cases member
  | finished alive finished =>
    rw [feed_of_finished alive finished] at member
    cases member

theorem failure_of_status (failed : d.status = .error e) : d.failure = some e := by
  unfold status at failed
  split at failed
  · rename_i failure
    rw [failure, Except.error.inj failed]
  · cases failed

theorem failure_of_feed {chunk : Bytes} (failed : (d.feed chunk).2.2 = .error e)
    (points : e.offset? = some o) : (d.feed chunk).1.failure = some e := by
  cases failure : d.failure with
  | some e' =>
    rw [feed_of_failure failure] at failed ⊢
    rw [failure, Except.error.inj failed]
  | none =>
    cases finished : d.finished with
    | true =>
      rw [feed_of_finished failure finished] at failed
      cases failed
      cases points
    | false =>
      simp only [feed, failure, finished, Bool.false_eq_true, if_false] at failed ⊢
      exact failure_of_status failed

theorem failure_of_finish (failed : d.finish.2 = .error e) (points : e.offset? = some o) :
    d.finish.1.failure = some e := by
  cases failure : d.failure with
  | some e' =>
    rw [finish_of_failure failure] at failed ⊢
    rw [failure, Except.error.inj failed]
  | none =>
    -- only the end of the input is complained about, without an offset
    rw [finish_of_alive failure] at failed
    split at failed
    · cases failed
      cases points
    · split at failed <;> cases failed
      cases points

/-- A decoder that answers with an error that has an offset keeps to this error. -/
theorem failure_of_take {arrival : Arrival} (failed : (d.take arrival).2 = .error e)
    (points : e.offset? = some o) : (d.take arrival).1.failure = some e := by
  cases arrival with
  | chunk bytes => exact failure_of_feed failed points
  | ending => exact failure_of_finish failed points

theorem hasRead_behind (arrivals : List Arrival) :
    (behind arrivals).HasRead (arrivals.flatMap Arrival.bytes) := by
  -- from the last arrival back to the first
  induction arrivals using List.reverseRecOn with
  | nil => exact hasRead_new
  | append_singleton arrivals arrival ih =>
    rw [behind, List.foldl_append, List.flatMap_append, List.flatMap_singleton]
    exact ih.take arrival

/-- The error that a decoder answers with is the one that a new decoder fails with when it is fed all
bytes at once. -/
theorem HasRead.failure_of_take {arrival : Arrival} (h : d.HasRead fed)
    (failed : (d.take arrival).2 = .error e) (points : e.offset? = some o) :
    (new.feed (fed ++ arrival.bytes)).1.failure = some e :=
  (h.take arrival).failure (Decoder.failure_of_take failed points)

end Decoder

namespace EnvelopeDecoder

variable {d : EnvelopeDecoder} {fed : Bytes}

/-- The decoder behind an arrival, and what it answers. -/
def take (d : EnvelopeDecoder) : Arrival → EnvelopeDecoder × Except DecodeError Unit
  | .chunk bytes => ((d.feed bytes).1, (d.feed bytes).2.2)
  | .ending => d.finish

/-- A new decoder behind some arrivals, whatever it answered to each. -/
def behind (arrivals : List Arrival) : EnvelopeDecoder :=
  arrivals.foldl (fun d arrival => (d.take arrival).1) new

/-- The values underneath have read what the decoder was fed before it was spent. -/
def HasRead (d : EnvelopeDecoder) (fed : Bytes) : Prop :=
  ∃ front, front <+: fed ∧ d.values.HasRead front ∧ (d.spent = false → front = fed)

theorem feed_of_spent (spent : d.spent = true) (chunk : Bytes) :
    d.feed chunk = (d, [], .error .decoderReused) := if_pos spent

theorem HasRead.take (h : d.HasRead fed) (arrival : Arrival) :
    (d.take arrival).1.HasRead (fed ++ arrival.bytes) := by
  obtain ⟨front, begins, read, all⟩ := h
  cases arrival with
  | chunk bytes =>
    show (d.feed bytes).1.HasRead (fed ++ bytes)
    cases spent : d.spent with
    | true =>
      rw [feed_of_spent spent]
      exact ⟨front, begins.trans (List.prefix_append ..), read, by simp [spent]⟩
    | false =>
      obtain rfl := all spent
      refine ⟨front ++ bytes, List.prefix_rfl, ?_, fun _ => rfl⟩
      rw [values_feed spent]
      exact read.feed bytes
  | ending =>
    rw [Arrival.bytes, List.append_nil]
    exact ⟨front, begins, read.finish, all⟩

theorem hasRead_behind (arrivals : List Arrival) :
    (behind arrivals).HasRead (arrivals.flatMap Arrival.bytes) := by
  induction arrivals using List.reverseRecOn with
  | nil => exact ⟨[], List.prefix_rfl, Decoder.hasRead_new, fun _ => rfl⟩
  | append_singleton arrivals arrival ih =>
    rw [behind, List.foldl_append, List.flatMap_append, List.flatMap_singleton]
    exact ih.take arrival

/-- A decoder that is not spent fails with the values underneath, or for a value that it was given
out of the chunk. -/
theorem blames_of_feed {chunk : Bytes} (fresh : d.spent = false) (read : d.values.HasRead fed)
    (failed : (d.feed chunk).2.2 = .error e) (points : e.offset? = some o) :
    ∃ start, Reached (fed ++ chunk) start ∧ Blames (fed ++ chunk) start e := by
  obtain ⟨values, spent⟩ := d
  obtain rfl : spent = false := fresh
  have read : values.HasRead fed := read
  cases made : envelopesOf (values.feed chunk).2.1 with
  | error error =>
    have same : (feed ⟨values, false⟩ chunk).2.2 = .error error := by simp [feed, made]
    rw [same] at failed
    obtain ⟨item, member, noEnvelope, noMessage, rfl⟩ := outsider_of_envelopesOf made
    obtain ⟨reached, rest, is⟩ := read.isFound chunk item member
    rw [← Except.error.inj failed]
    exact ⟨item.offset, reached, .parasite is noEnvelope noMessage⟩
  | ok envelopes =>
    have same : (feed ⟨values, false⟩ chunk).2.2 = (values.feed chunk).2.2 := by simp [feed, made]
    rw [same] at failed
    have failure := (read.feed chunk).failure (Decoder.failure_of_feed failed points)
    exact (Decoder.feed_new_spec _).2 e failure

theorem HasRead.blames_of_take {arrival : Arrival} (h : d.HasRead fed)
    (failed : (d.take arrival).2 = .error e) (points : e.offset? = some o) :
    ∃ start, Reached (fed ++ arrival.bytes) start ∧ Blames (fed ++ arrival.bytes) start e := by
  obtain ⟨front, begins, read, all⟩ := h
  cases arrival with
  | chunk bytes =>
    cases spent : d.spent with
    | true =>
      rw [EnvelopeDecoder.take, feed_of_spent spent] at failed
      cases failed
      cases points
    | false =>
      obtain rfl := all spent
      exact blames_of_feed spent read failed points
  | ending =>
    rw [Arrival.bytes, List.append_nil]
    have failure := read.finish.failure (Decoder.failure_of_finish failed points)
    -- what was fed to the decoder when it was spent stands behind the failure
    obtain ⟨back, rfl⟩ := begins
    exact (Decoder.feed_new_spec _).2 e (Decoder.atRest_new.feed_append_of_failure failure).1

end EnvelopeDecoder

/-! ## Both decoders -/

/-- Whatever is fed to a decoder of values or of envelopes, in whatever chunks, before or behind other
errors and the end of the input: an error with an offset points to a byte that was fed. The bytes
in front of the value that is malformed decode to whole values, one by one; the offset does not lie
in front of that value, and the tag, length, width, characters or value that begins at the offset is
what the error is about. -/
theorem error_points_into_input {arrivals : List Arrival} {last : Arrival} {e : DecodeError} {o : Nat}
    (failed : ((Decoder.behind arrivals).take last).2 = .error e ∨
      ((EnvelopeDecoder.behind arrivals).take last).2 = .error e)
    (points : e.offset? = some o) :
    let fed := (arrivals ++ [last]).flatMap Arrival.bytes
    ∃ parts : List Bytes, parts.flatten <+: fed ∧ (∀ part ∈ parts, ∃ v, decode part = .ok [v]) ∧
      parts.flatten.length ≤ o ∧ o < fed.length ∧ Blames fed parts.flatten.length e := by
  intro fed
  have all : arrivals.flatMap Arrival.bytes ++ last.bytes = fed := by simp [fed]
  have blamed : ∃ start, Reached fed start ∧ Blames fed start e := by
    rw [← all]
    rcases failed with failed | failed
    · have failure := (Decoder.hasRead_behind arrivals).failure_of_take failed points
      exact (Decoder.feed_new_spec _).2 e failure
    · exact (EnvelopeDecoder.hasRead_behind arrivals).blames_of_take failed points
  obtain ⟨start, reached, blames⟩ := blamed
  obtain ⟨o', points', behind, inside⟩ := blames.bounds reached.inside
  obtain rfl : o' = o := Option.some.inj (points'.symm.trans points)
  obtain ⟨parts, front, rfl, whole⟩ := reached
  exact ⟨parts, front, whole, behind, inside, blames⟩

/-- Behind a value that is refused, the payload of an envelope is a number. That is told when the
envelope closes, a chunk later, at the offset of the number. -/
theorem error_points_into_input_payload :
    let arrivals : List Arrival := [.chunk [0x01, 0x6F], .chunk [0x56, 0xC1]]
    let e := DecodeError.wrongType "bytes" "integer" 3
    ((EnvelopeDecoder.behind arrivals).take (.chunk [0x56])).2 = .error e ∧ e.offset? = some 3 ∧
      ∃ parts : List Bytes, parts.flatten <+: [0x01, 0x6F, 0x56, 0xC1, 0x56] ∧
        (∀ part ∈ parts, ∃ v, decode part = .ok [v]) ∧ parts.flatten.length ≤ 3 ∧
        Blames [0x01, 0x6F, 0x56, 0xC1, 0x56] parts.flatten.length e := by
  intro arrivals e
  have failed : ((EnvelopeDecoder.behind arrivals).take (.chunk [0x56])).2 = .error e := by
    decide +kernel
  obtain ⟨parts, front, whole, behind, -, blames⟩ := error_points_into_input (.inr failed) rfl
  exact ⟨failed, rfl, parts, front, whole, behind, blames⟩

end Telemetry.Bysant
