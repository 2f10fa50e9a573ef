import Telemetry.Proofs.Bysant.EnvelopeDecoder
/-!
# Envelope decoders after an error

An envelope decoder that has met malformed bytes or was used once too often is dead: whatever it is
fed, it answers with an error and gives out nothing. A value that is neither an envelope nor a
message makes a single call fail. Unless there are malformed bytes behind it, the decoder then goes
on as if the chunk had completed nothing, and reads the next envelope.
-/

namespace Telemetry.Bysant.EnvelopeDecoder

variable {d after : EnvelopeDecoder} {chunk : Bytes} {chunks : List Bytes}
  {envelopes : List Envelope} {error : DecodeError}

/-- The decoder behind some chunks, whatever came of each of them. -/
def feedOn : List Bytes → EnvelopeDecoder → EnvelopeDecoder
  | [], d => d
  | chunk :: rest, d => feedOn rest (d.feed chunk).1

/-- Every later chunk is answered with an error and gives out nothing. -/
def Dead (d : EnvelopeDecoder) : Prop :=
  ∀ chunks chunk, ∃ error, ((feedOn chunks d).feed chunk).2 = ([], .error error)

/-- The error that the decoder answers with, whatever it is fed. -/
def poison? (d : EnvelopeDecoder) : Option DecodeError :=
  if d.spent then some .decoderReused else d.values.failure

/-! ## One chunk -/

theorem feed_of_poison (poisoned : d.poison? = some error) (chunk : Bytes) :
    d.feed chunk = (d, [], .error error) := by
  obtain ⟨values, spent⟩ := d
  unfold poison? at poisoned
  cases spent with
  | true =>
    obtain rfl : DecodeError.decoderReused = error := Option.some.inj poisoned
    rfl
  | false =>
    have failed : values.failure = some error := poisoned
    simp [feed, Decoder.feed_of_failure failed, envelopesOf]

theorem isSome_poison? (failed : d.values.failure.isSome) : d.poison?.isSome := by
  unfold poison?
  split
  · rfl
  · exact failed

/-- What a decoder answers with for good is not about a value outside the envelopes, unless it is an
error of the values underneath. -/
theorem reason_of_poison (poisoned : d.poison? = some error) :
    (∀ kind offset, error ≠ .parasiteData kind offset) ∨ d.values.failure.isSome := by
  unfold poison? at poisoned
  split at poisoned
  · obtain rfl := Option.some.inj poisoned
    exact .inl nofun
  · exact .inr (by rw [poisoned, Option.isSome_some])

/-- The values under the envelopes have failed for good, or they are read on from where they are. -/
def Regular (d : EnvelopeDecoder) : Prop :=
  d.values.failure.isSome ∨ d.values.AtRest ∧ d.values.Rewinds

theorem Regular.follows (h : d.Regular) (clean : d.poison? = none) : d.Follows d.values := by
  obtain ⟨values, spent⟩ := d
  unfold poison? at clean
  cases spent with
  | true => cases clean
  | false =>
    have alive : values.failure = none := clean
    rcases h with failed | ⟨rest, back⟩
    · rw [show (EnvelopeDecoder.mk values false).values.failure = none from alive] at failed
      cases failed
    · exact ⟨rfl, rest, back, 0, Decoder.Alike.refl rest.honest⟩

/-- What is refused is refused for a value that stands for no envelope. -/
theorem outsider_of_envelopesOf {items : List Item} (refused : envelopesOf items = .error error) :
    ∃ item ∈ items, (∀ e, item.value ≠ .envelope e) ∧ (∀ m, item.value ≠ .message m) ∧
      error = .parasiteData item.value.kind item.offset := by
  induction items with
  | nil => cases refused
  | cons item rest ih =>
    obtain ⟨offset, value⟩ := item
    have others {f : List Envelope → List Envelope}
        (refused : (envelopesOf rest).map f = .error error) :
        ∃ item ∈ Item.mk offset value :: rest, (∀ e, item.value ≠ .envelope e) ∧
          (∀ m, item.value ≠ .message m) ∧ error = .parasiteData item.value.kind item.offset := by
      cases read : envelopesOf rest with
      | ok envelopes =>
        rw [read] at refused
        cases refused
      | error error' =>
        rw [read] at refused
        obtain rfl : error' = error := Except.error.inj refused
        obtain ⟨item, member, outsider⟩ := ih read
        exact ⟨item, List.mem_cons_of_mem _ member, outsider⟩
    cases value with
    | envelope e => exact others refused
    | message m => exact others refused
    | _ => exact ⟨_, List.mem_cons_self, nofun, nofun, (Except.error.inj refused).symm⟩

/-- Only the kind of a value and its place are told of what stands for no envelope. -/
theorem parasite_of_envelopesOf {items : List Item} (refused : envelopesOf items = .error error) :
    ∃ kind offset, error = .parasiteData kind offset := by
  obtain ⟨item, -, -, -, same⟩ := outsider_of_envelopesOf refused
  exact ⟨_, _, same⟩

/-- What comes of a chunk that a decoder which is not spent is fed. -/
theorem feed_of_fresh (fresh : d.spent = false) (chunk : Bytes) :
    (∃ kind offset, d.feed chunk =
      (⟨(d.values.feed chunk).1, false⟩, [], .error (.parasiteData kind offset))) ∨
    ∃ envelopes, d.feed chunk =
      (⟨(d.values.feed chunk).1, !envelopes.isEmpty⟩, envelopes, (d.values.feed chunk).2.2) := by
  obtain ⟨values, spent⟩ := d
  obtain rfl : spent = false := fresh
  cases read : envelopesOf (values.feed chunk).2.1 with
  | error error =>
    obtain ⟨kind, offset, rfl⟩ := parasite_of_envelopesOf read
    refine .inl ⟨kind, offset, ?_⟩
    simp [feed, read]
  | ok envelopes =>
    refine .inr ⟨envelopes, ?_⟩
    simp [feed, read]

/-- A chunk is taken in by the values underneath, unless the decoder is spent. -/
theorem values_feed (fresh : d.spent = false) (chunk : Bytes) :
    (d.feed chunk).1.values = (d.values.feed chunk).1 := by
  obtain ⟨kind, offset, fed⟩ | ⟨envelopes, fed⟩ := feed_of_fresh fresh chunk <;> rw [fed]

theorem Regular.feed (h : d.Regular) (chunk : Bytes) : (d.feed chunk).1.Regular := by
  cases poisoned : d.poison? with
  | some error =>
    rw [feed_of_poison poisoned]
    exact h
  | none =>
    have follows := h.follows poisoned
    unfold Regular
    rw [values_feed follows.fresh]
    cases failure : (d.values.feed chunk).1.failure with
    | some error => exact .inl rfl
    | none => exact .inr ⟨follows.rest.feed failure, follows.rest.feed_rewinds follows.back failure⟩

/-! ## Any chunks -/

theorem regular_new : new.Regular := .inr ⟨Decoder.atRest_new, Decoder.rewinds_new⟩

theorem Regular.feedOn (h : d.Regular) (chunks : List Bytes) : (feedOn chunks d).Regular := by
  induction chunks generalizing d with
  | nil => exact h
  | cons chunk rest ih => exact ih (h.feed chunk)

theorem feedOn_of_poison (poisoned : d.poison? = some error) (chunks : List Bytes) :
    feedOn chunks d = d := by
  induction chunks with
  | nil => rfl
  | cons chunk rest ih => rw [EnvelopeDecoder.feedOn, feed_of_poison poisoned, ih]

/-- A decoder dies of what it was fed only if it answers with one error from then on: as long as it
does not, it takes an empty chunk. -/
theorem Regular.dead_iff (h : d.Regular) : d.Dead ↔ d.poison?.isSome := by
  constructor
  · intro dead
    cases poisoned : d.poison? with
    | some error => rfl
    | none =>
      have follows := h.follows poisoned
      obtain ⟨error, failed⟩ := dead [] []
      have taken : d.feed [] = (⟨d.values, false⟩, [], .ok ()) := by
        obtain ⟨values, spent⟩ := d
        obtain rfl : spent = false := follows.fresh
        exact feed_of_units follows.rest.feed_nil (by simp [AreUnits])
      rw [EnvelopeDecoder.feedOn, taken] at failed
      cases failed
  · intro poisoned chunks chunk
    obtain ⟨error, poisoned⟩ := Option.isSome_iff_exists.mp poisoned
    rw [feedOn_of_poison poisoned, feed_of_poison poisoned]
    exact ⟨error, rfl⟩

/-- Between two envelopes, a decoder without an error to repeat reads an envelope from its encoding. -/
theorem Regular.feed_encode (h : d.Regular) (clean : d.poison? = none) (whole : d.hasPending = false)
    {e : Envelope} (sound : (Value.envelope e).Sound maxDepth) :
    (d.feed e.encode).2 = ([e], .ok ()) := by
  have follows := h.follows clean
  have finds := follows.rest.finds_encode follows.back whole sound
  obtain ⟨values, spent⟩ := d
  obtain rfl : spent = false := follows.fresh
  exact congrArg Prod.snd finds.feed

/-- What an error leaves behind: the decoder is dead, or a value outside the envelopes made this one
call fail and nothing else. -/
theorem Regular.after_error (h : d.Regular)
    (failed : d.feed chunk = (after, envelopes, .error error)) :
    after.poison?.isSome ∧
        ((∀ kind offset, error ≠ .parasiteData kind offset) ∨ after.values.failure.isSome) ∨
      (∃ kind offset, error = .parasiteData kind offset) ∧ envelopes = [] ∧
        after.values.failure = none ∧ after.poison? = none := by
  cases poisoned : d.poison? with
  | some error' =>
    rw [feed_of_poison poisoned] at failed
    cases failed
    exact .inl ⟨by rw [poisoned, Option.isSome_some], reason_of_poison poisoned⟩
  | none =>
    have follows := h.follows poisoned
    obtain ⟨kind, offset, fed⟩ | ⟨found, fed⟩ := feed_of_fresh follows.fresh chunk
    · rw [fed] at failed
      cases failed
      cases failure : (d.values.feed chunk).1.failure with
      | some error => exact .inl ⟨isSome_poison? (by rw [failure, Option.isSome_some]), .inr rfl⟩
      | none => exact .inr ⟨⟨kind, offset, rfl⟩, rfl, rfl, by simp [poison?, failure]⟩
    · -- the error is that of the values, which keep it
      rw [fed, follows.rest.feed_result] at failed
      obtain ⟨rfl, failed⟩ := Prod.mk.inj failed
      have status := (Prod.mk.inj failed).2
      cases failure : (d.values.feed chunk).1.failure with
      | none =>
        rw [Decoder.status_eq_ok_iff.mpr failure] at status
        cases status
      | some error => exact .inl ⟨isSome_poison? (by rw [failure, Option.isSome_some]), .inr rfl⟩

/-- A decoder that has answered with an error is dead, unless the error is about a value outside the
envelopes and there were no malformed bytes behind it. Such a decoder has given out nothing, and the
next envelope is read from its encoding as if no error had been. -/
theorem dead_iff_of_error
    (failed : (feedOn chunks new).feed chunk = (after, envelopes, .error error)) :
    (after.Dead ↔
        (∀ kind offset, error ≠ .parasiteData kind offset) ∨ after.values.failure.isSome) ∧
      (¬ after.Dead → envelopes = [] ∧ (after.hasPending = false →
        ∀ e : Envelope, (Value.envelope e).Sound maxDepth →
          (after.feed e.encode).2 = ([e], .ok ()))) := by
  have regular := regular_new.feedOn chunks
  have regular' : after.Regular := by
    have := regular.feed chunk
    rwa [failed] at this
  rw [regular'.dead_iff]
  obtain ⟨poisoned, reason⟩ | ⟨⟨kind, offset, rfl⟩, rfl, alive, clean⟩ := regular.after_error failed
  · exact ⟨iff_of_true poisoned reason, fun clean => absurd poisoned clean⟩
  · refine ⟨iff_of_false (by simp [clean]) ?_, fun _ => ⟨rfl, fun whole e sound => regular'.feed_encode clean whole sound⟩⟩
    rintro (other | failure)
    · exact other kind offset rfl
    · rw [alive] at failure
      cases failure

/-! ## A number in front of an envelope -/

def five : Value := .int 5

def probe : Envelope := ⟨⟨[(.id, .text "dev")]⟩, [], []⟩

theorem sound_five : five.Sound maxDepth := sound_iff.mpr (by decide +kernel)

theorem sound_probe : (Value.envelope probe).Sound maxDepth := sound_iff.mpr (by decide +kernel)

/-- One value is read from its encoding, and nothing is left of it. -/
theorem feed_five : new.feed (encodeAll [five]) =
    (⟨Decoder.infront 1 [], false⟩, [], .error (.parasiteData "integer" 0)) := by
  have read : Decoder.new.feed (encodeAll [five]) =
      (Decoder.infront 1 [], [⟨0, five⟩], .ok ()) := by
    have reads := isRead_of_sound sound_five [] 0 [] (.emitted ⟨0, five⟩) rfl (Nat.le_refl _) rfl
    have drained := Decoder.drain_of_reads (d := Decoder.infront 0 (encodeAll [five])) [] reads rfl
    rw [Decoder.atRest_new.feed_eq]
    rw [show Decoder.new.append (encodeAll [five]) = Decoder.infront 0 (encodeAll [five]) from rfl]
    rw [drained, Decoder.drain_starved rfl]
    rfl
  rw [feed, new, if_neg Bool.false_ne_true, read]
  rfl

/-- The number makes the call fail, and the decoder reads the envelope behind it. -/
theorem probe_behind_five :
    (new.feed (encodeAll [five])).2 = ([], .error (.parasiteData "integer" 0)) ∧
      ((new.feed (encodeAll [five])).1.feed probe.encode).2 = ([probe], .ok ()) := by
  refine ⟨by rw [feed_five], (regular_new.feed _).feed_encode ?_ ?_ sound_probe⟩
  · rw [feed_five]
    rfl
  · rw [feed_five]
    rfl

/-- The decoder that the number leaves behind is not dead. -/
theorem five_spares : ∃ after : EnvelopeDecoder,
    (feedOn [] new).feed (encodeAll [five]) = (after, [], .error (.parasiteData "integer" 0)) ∧
      ¬ after.Dead := by
  refine ⟨⟨.infront 1 [], false⟩, feed_five, fun dead => ?_⟩
  have failed : (feedOn [] new).feed (encodeAll [five]) = _ := feed_five
  obtain other | failure := (dead_iff_of_error failed).1.mp dead
  · exact other "integer" 0 rfl
  · cases failure

end Telemetry.Bysant.EnvelopeDecoder
