import Telemetry.Gateway.Connection
import Telemetry.Proofs.Bysant.Completeness
import Telemetry.Proofs.Bysant.Rewind
/-!
# Connections do not see where their input is cut

A connection renews its decoder behind every envelope, also in the middle of the next one. Its
decoder nevertheless stays alike to one decoder that reads the whole stream, so that the connection
handles the same envelopes in the same order, however the stream is cut into chunks.
-/

namespace Telemetry

open Bysant

namespace Bysant

/-! ## Envelopes and messages -/

/-- The envelope that a value stands for outside all envelopes. -/
def Value.unit? : Value → Option Envelope
  | .envelope e => some e
  | .message m => some (.wrap m)
  | _ => none

def unitsOf (items : List Item) : List Envelope := items.filterMap fun item => item.value.unit?

/-- Only envelopes and messages are among some items. -/
def AreUnits (items : List Item) : Prop := ∀ item ∈ items, item.value.unit?.isSome

variable {items : List Item}

theorem envelopesOf_eq (units : AreUnits items) :
    EnvelopeDecoder.envelopesOf items = .ok (unitsOf items) := by
  induction items with
  | nil => rfl
  | cons item rest ih =>
    obtain ⟨first, others⟩ := List.forall_mem_cons.mp units
    obtain ⟨offset, value⟩ := item
    have read := ih others
    cases value with
    | envelope e =>
      rw [EnvelopeDecoder.envelopesOf, read]
      rfl
    | message m =>
      rw [EnvelopeDecoder.envelopesOf, read]
      rfl
    | _ => cases first

theorem unitsOf_shift (k : Nat) (items : List Item) :
    unitsOf (items.map (Item.shift k)) = unitsOf items := by
  simp [unitsOf, List.filterMap_map, Function.comp_def, Item.shift]

theorem areUnits_shift {k : Nat} (units : AreUnits (items.map (Item.shift k))) : AreUnits items :=
  fun item member => units (item.shift k) (List.mem_map_of_mem member)

theorem unitsOf_eq (items : List Item) :
    unitsOf items = (items.map Item.value).filterMap Value.unit? := by
  rw [List.filterMap_map]
  rfl

theorem areUnits_of_values (units : ∀ v ∈ items.map Item.value, v.unit?.isSome) : AreUnits items :=
  fun _ member => units _ (List.mem_map_of_mem member)

theorem unitsOf_append (front back : List Item) :
    unitsOf (front ++ back) = unitsOf front ++ unitsOf back := List.filterMap_append

/-- Decoders that are alike give out alike values. -/
theorem Decoder.Alike.feed {k : Nat} {d d' : Decoder} (h : Alike k d d') (rest : d.AtRest)
    (rest' : d'.AtRest) (chunk : Bytes) :
    Alike k (d.feed chunk).1 (d'.feed chunk).1 ∧
      (d'.feed chunk).2.1 = (d.feed chunk).2.1.map (Item.shift k) := by
  obtain ⟨alike, found⟩ := (h.append chunk).drain []
  rw [rest.feed_eq, rest'.feed_eq]
  refine ⟨alike, ?_⟩
  rw [List.map_reverse, ← found]
  rfl

theorem Decoder.pending_of_hasPending {d : Decoder} (none : d.hasPending = false) :
    d.pending = [] := by
  simpa [Decoder.hasPending, Decoder.pending] using none

theorem Decoder.status_eq_ok_iff {d : Decoder} : d.status = .ok () ↔ d.failure = none := by
  unfold Decoder.status
  cases d.failure <;> simp

theorem Decoder.AtRest.feed_nil {d : Decoder} (h : d.AtRest) : d.feed [] = (d, [], .ok ()) := by
  have same : d.append [] = d := by simp [Decoder.append]
  rw [h.feed_eq, same, Decoder.drain_starved h.starved, Decoder.status_eq_ok_iff.mpr h.alive]
  rfl

namespace EnvelopeDecoder

theorem feed_of_units {values after : Decoder} {chunk : Bytes} {items : List Item}
    {result : Except DecodeError Unit} (fed : values.feed chunk = (after, items, result))
    (units : AreUnits items) : feed ⟨values, false⟩ chunk =
      (⟨after, !(unitsOf items).isEmpty⟩, unitsOf items, result) := by
  simp [feed, fed, envelopesOf_eq units]

/-- The decoder of a connection, not spent, stands where a decoder stands that has read the stream
from its beginning, and could be replaced once more. -/
structure Follows (d : EnvelopeDecoder) (reader : Decoder) : Prop where
  fresh : d.spent = false
  rest : d.values.AtRest
  back : d.values.Rewinds
  alike : ∃ k, Decoder.Alike k d.values reader

theorem follows_new : new.Follows .new :=
  ⟨rfl, Decoder.atRest_new, Decoder.rewinds_new, 0, Decoder.Alike.refl Decoder.atRest_new.honest⟩

/-- A spent decoder is replaced once, if the bytes behind the last envelope complete no other one. -/
theorem renew_eq {d fresh : EnvelopeDecoder} (spent : d.spent = true)
    (fed : new.feed d.pending = (fresh, [], .ok ())) (unspent : fresh.spent = false)
    (envelopes : List Envelope) : d.renew envelopes = (fresh, envelopes, .ok ()) := by
  rw [renew, if_pos spent]
  split
  · split <;> rename_i read <;> rw [fed] at read <;> cases read
    rw [renew, if_neg (by simp [unspent]), List.append_nil]
  · rename_i none
    have none : d.pending = [] := Decoder.pending_of_hasPending (by
      simpa [EnvelopeDecoder.hasPending] using none)
    have again : new.feed [] = (new, [], .ok ()) :=
      feed_of_units Decoder.atRest_new.feed_nil (by simp [AreUnits])
    rw [none, again] at fed
    cases fed
    rfl

/-- A spent decoder is replaced once: the bytes behind the last envelope complete no other one, and
the new decoder goes on where the old one stands. -/
theorem renew_of_spent {values : Decoder} (rest : values.AtRest) (back : values.Rewinds)
    (envelopes : List Envelope) : ∃ d : EnvelopeDecoder,
      renew ⟨values, true⟩ envelopes = (d, envelopes, .ok ()) ∧ d.Follows values := by
  obtain ⟨k, fresh, fed, alike⟩ := rest.feed_pending back
  have alive : (Decoder.new.feed values.pending).1.failure = none := by
    rw [← Decoder.status_eq_ok_iff, ← Decoder.atRest_new.feed_result, fed]
  have rest' := Decoder.atRest_new.feed alive
  have back' := Decoder.atRest_new.feed_rewinds Decoder.rewinds_new alive
  rw [fed] at rest' back'
  have again : new.feed values.pending = (⟨fresh, false⟩, [], .ok ()) :=
    feed_of_units fed (by simp [AreUnits])
  have renewed := renew_eq (d := ⟨values, true⟩) rfl again rfl envelopes
  exact ⟨⟨fresh, false⟩, renewed, rfl, rest', back', k, alike⟩

theorem Follows.trans {d : EnvelopeDecoder} {values reader : Decoder} {j : Nat}
    (h : d.Follows values) (alike : Decoder.Alike j values reader) : d.Follows reader := by
  obtain ⟨k, alike'⟩ := h.alike
  exact ⟨h.fresh, h.rest, h.back, k + j, alike'.trans alike⟩

end EnvelopeDecoder

end Bysant

namespace Connection

variable {d : EnvelopeDecoder} {reader : Decoder}

/-- A chunk gives a connection the envelopes that it completes in the whole stream. -/
theorem decode_of_follows (h : d.Follows reader) (rest : reader.AtRest) (chunk : Bytes)
    (units : AreUnits (reader.feed chunk).2.1) :
    (decode d chunk).2.1 = unitsOf (reader.feed chunk).2.1 ∧
      match (reader.feed chunk).1.failure with
      | some _ => ∃ e, (decode d chunk).2.2 = .error e
      | none => (decode d chunk).2.2 = .ok () ∧ (decode d chunk).1.Follows (reader.feed chunk).1 := by
  obtain ⟨values, spent⟩ := d
  obtain ⟨rfl, rest', back, k, alike⟩ := h
  have rest' : values.AtRest := rest'
  obtain ⟨alike', found⟩ := Decoder.Alike.feed alike rest' rest chunk
  have fed : EnvelopeDecoder.feed ⟨values, false⟩ chunk =
      (⟨(values.feed chunk).1, !(unitsOf (values.feed chunk).2.1).isEmpty⟩,
        unitsOf (values.feed chunk).2.1, (values.feed chunk).1.status) := by
    rw [← rest'.feed_result]
    exact EnvelopeDecoder.feed_of_units rfl (areUnits_shift (found ▸ units))
  have failure : (reader.feed chunk).1.failure =
    (values.feed chunk).1.failure.map (DecodeError.shift k) := alike'.failure
  rw [found, unitsOf_shift, failure]
  unfold decode
  rw [fed, Decoder.status]
  cases state : (values.feed chunk).1.failure with
  | some e => exact ⟨rfl, e, rfl⟩
  | none =>
    have after := rest'.feed state
    have back' := rest'.feed_rewinds back state
    cases completed : unitsOf (values.feed chunk).2.1 with
    | nil =>
      simp only [List.isEmpty_nil, Bool.not_true]
      rw [EnvelopeDecoder.renew, if_neg (by simp)]
      exact ⟨rfl, rfl, rfl, after, back', k, alike'⟩
    | cons e others =>
      simp only [List.isEmpty_cons, Bool.not_false]
      obtain ⟨renewed, same, follows⟩ := EnvelopeDecoder.renew_of_spent after back' (e :: others)
      rw [same]
      exact ⟨rfl, rfl, follows.trans alike'⟩

/-- What comes of handling something when more is to be handled behind it, unless it closes. -/
def andThen (first : Handled) (next : Option Session → Gateway → Handled) : Handled :=
  if first.reaction.close then first
  else
    let others := next first.session first.gateway
    ⟨⟨first.reaction.writes ++ others.reaction.writes, others.reaction.close⟩, others.session,
      others.gateway⟩

theorem andThen_of_close {first : Handled} (closes : first.reaction.close = true)
    (next : Option Session → Gateway → Handled) : andThen first next = first := if_pos closes

theorem andThen_assoc (first : Handled) (next last : Option Session → Gateway → Handled) :
    andThen (andThen first next) last = andThen first fun session g => andThen (next session g) last := by
  unfold andThen
  by_cases closes : first.reaction.close = true
  · simp only [closes, if_true]
  · by_cases closes' : (next first.session first.gateway).reaction.close = true
    · simp [closes, closes']
    · simp [closes, closes', List.append_assoc]

theorem nothing_andThen (session : Option Session) (g : Gateway)
    (next : Option Session → Gateway → Handled) :
    andThen ⟨⟨[], false⟩, session, g⟩ next = next session g := by
  simp [andThen]

/-- Envelopes are handled in front of others, which are not handled behind one that closes. -/
theorem handleAll_append (front back : List Envelope) (session : Option Session) (g : Gateway) :
    handleAll (front ++ back) session g = andThen (handleAll front session g) (handleAll back) := by
  induction front generalizing session g with
  | nil => exact (nothing_andThen session g _).symm
  | cons e rest ih =>
    have first (envelopes : List Envelope) : handleAll (e :: envelopes) session g =
        andThen (handle e session g) (handleAll envelopes) := rfl
    have ih : handleAll (rest ++ back) =
        fun session g => andThen (handleAll rest session g) (handleAll back) := by
      funext session g
      exact ih session g
    rw [List.cons_append, first, first, andThen_assoc, ih]

theorem handleAll_singleton (e : Envelope) (session : Option Session) (g : Gateway) :
    handleAll [e] session g = handle e session g := by
  unfold handleAll
  generalize handle e session g = handled
  obtain ⟨⟨writes, closes⟩, session', gateway⟩ := handled
  cases closes <;> simp [handleAll]

/-- Handles nothing, and closes if the input is malformed. -/
def stop (failed : Bool) (session : Option Session) (g : Gateway) : Handled :=
  ⟨⟨[], failed⟩, session, g⟩

/-- What a connection has come to, apart from its decoder. -/
def outcome (after : Reaction × Connection × Gateway) : Handled :=
  ⟨after.1, after.2.1.session, after.2.2⟩

/-- A chunk is handled as the envelopes that it completes in the whole stream. -/
theorem outcome_onBytes {c : Connection} (h : c.decoder.Follows reader) (rest : reader.AtRest)
    (chunk : Bytes) (units : AreUnits (reader.feed chunk).2.1) (g : Gateway) :
    outcome (c.onBytes chunk g) =
      andThen (handleAll (unitsOf (reader.feed chunk).2.1) c.session g)
        (stop (reader.feed chunk).1.failure.isSome) := by
  obtain ⟨envelopes, result⟩ := decode_of_follows h rest chunk units
  unfold onBytes outcome
  simp only [envelopes]
  generalize handleAll _ c.session g = handled
  obtain ⟨⟨writes, closes⟩, session, gateway⟩ := handled
  cases failure : (reader.feed chunk).1.failure with
  | some e =>
    rw [failure] at result
    obtain ⟨e', result⟩ := result
    rw [result]
    cases closes <;> simp [andThen, stop]
  | none =>
    rw [failure] at result
    rw [result.1]
    cases closes <;> simp [andThen, stop]

theorem outcome_run_cons (chunk : Bytes) (rest : List Bytes) (c : Connection) (g : Gateway) :
    outcome (run (chunk :: rest) c g) = andThen (outcome (c.onBytes chunk g)) fun session g' =>
      outcome (run rest ⟨(c.onBytes chunk g).2.1.decoder, session⟩ g') := by
  rw [run]
  unfold andThen outcome
  by_cases closes : (c.onBytes chunk g).1.close = true
  · simp only [closes, if_true]
  · simp only [closes, Bool.false_eq_true, if_false]

theorem of_outcome_eq {after : Reaction × Connection × Gateway} {handled : Handled}
    (same : outcome after = handled) : after.1 = handled.reaction ∧
      after.2.1.session = handled.session ∧ after.2.2 = handled.gateway := by
  subst same
  exact ⟨rfl, rfl, rfl⟩

/-- From chunk to chunk, a connection comes to what handling the whole stream at once comes to. -/
theorem outcome_run (chunks : List Bytes) {c : Connection} {reader : Decoder}
    (h : c.decoder.Follows reader) (rest : reader.AtRest)
    (units : AreUnits (reader.feed chunks.flatten).2.1) (g : Gateway) :
    outcome (run chunks c g) =
      andThen (handleAll (unitsOf (reader.feed chunks.flatten).2.1) c.session g)
        (stop (reader.feed chunks.flatten).1.failure.isSome) := by
  -- `reader` has read the whole stream so far, and the connection's own decoder follows it
  induction chunks generalizing c reader g with
  | nil =>
    rw [List.flatten_nil, rest.feed_nil, rest.alive]
    rfl
  | cons chunk others ih =>
    rw [List.flatten_cons] at units ⊢
    rw [outcome_run_cons]
    cases failure : (reader.feed chunk).1.failure with
    | some e =>
      obtain ⟨failed, found⟩ := rest.feed_append_of_failure (b := others.flatten) failure
      rw [found] at units ⊢
      rw [outcome_onBytes h rest chunk units, failure, failed, andThen_assoc]
      rfl
    | none =>
      obtain ⟨alike, found⟩ := rest.feed_append_of_alive (b := others.flatten) failure
      rw [found] at units ⊢
      have first : AreUnits (reader.feed chunk).2.1 := fun item member =>
        units item (List.mem_append_left _ member)
      have second : AreUnits ((reader.feed chunk).1.feed others.flatten).2.1 := fun item member =>
        units item (List.mem_append_right _ member)
      have follows := (decode_of_follows h rest chunk first).2
      rw [failure] at follows
      have ended : (reader.feed (chunk ++ others.flatten)).1.failure.isSome =
          ((reader.feed chunk).1.feed others.flatten).1.failure.isSome := by
        rw [alike.failure, Option.isSome_map]
      rw [outcome_onBytes h rest chunk first, failure, ended, unitsOf_append, handleAll_append,
        andThen_assoc, andThen_assoc]
      congr 1
      funext session g'
      exact (nothing_andThen session g' _).trans (ih follows.2 (rest.feed failure) second g')

/-- A connection that has just been created handles a stream of envelopes and messages the same,
whether it comes at once or in chunks, empty ones included. It writes the same envelopes, closes
behind the same one or not at all, and leaves the same session and the same store, clock and source
of random bytes. The stream may end within a value or in malformed bytes. Of the envelopes in it,
those behind one that closes have no effect. -/
theorem run_eq_onBytes (chunks : List Bytes) (g : Gateway)
    (units : ∀ item ∈ (Decoder.new.feed chunks.flatten).2.1, item.value.unit?.isSome) :
    let cut := run chunks {} g
    let whole := onBytes {} chunks.flatten g
    cut.1 = whole.1 ∧ cut.2.1.session = whole.2.1.session ∧ cut.2.2 = whole.2.2 ∧
      ∀ front back, unitsOf (Decoder.new.feed chunks.flatten).2.1 = front ++ back →
        (handleAll front none g).reaction.close = true →
          whole.1 = (handleAll front none g).reaction ∧
          whole.2.1.session = (handleAll front none g).session ∧
          whole.2.2 = (handleAll front none g).gateway := by
  intro cut whole
  have follows : EnvelopeDecoder.Follows (Connection.decoder {}) .new := EnvelopeDecoder.follows_new
  have atOnce : outcome whole = _ := outcome_onBytes follows Decoder.atRest_new chunks.flatten units g
  have inChunks : outcome cut = outcome whole :=
    (outcome_run chunks follows Decoder.atRest_new units g).trans atOnce.symm
  obtain ⟨reaction, session, gateway⟩ := of_outcome_eq inChunks
  refine ⟨reaction, session, gateway, fun front back parts closes => ?_⟩
  rw [parts, handleAll_append, andThen_assoc, andThen_of_close closes] at atOnce
  exact of_outcome_eq atOnce

def twoMessages : List Value :=
  [.envelope ⟨⟨[(.id, .text "dev")]⟩, [], []⟩, .message ⟨"@sys", none, [("a", .int 1)]⟩]

def emptyGateway : Gateway := { store := { capacity := 4 }, entropy := { stream := fun _ => 0 }, clock := 0 }

theorem run_eq_onBytes_twoMessages :
    let chunks := [(encodeAll twoMessages).take 5, (encodeAll twoMessages).drop 5]
    (∀ item ∈ (Decoder.new.feed chunks.flatten).2.1, item.value.unit?.isSome) ∧
      (run chunks {} emptyGateway).1 = (onBytes {} chunks.flatten emptyGateway).1 := by
  intro chunks
  have joined : chunks.flatten = encodeAll twoMessages := by simp [chunks]
  have sound : ∀ v ∈ twoMessages, v.Sound maxDepth := fun v member =>
    sound_iff.mpr ⟨(by decide +kernel : ∀ v ∈ twoMessages, v.Representable) v member,
      (by decide +kernel : ∀ v ∈ twoMessages, v.WellFormed) v member⟩
  have units : ∀ item ∈ (Decoder.new.feed chunks.flatten).2.1, item.value.unit?.isSome := by
    obtain ⟨items, are, fed⟩ := Decoder.feed_encodeAll sound
    rw [joined, fed]
    intro item member
    have inside : item.value ∈ twoMessages := are ▸ List.mem_map_of_mem member
    exact (by decide : ∀ v ∈ twoMessages, v.unit?.isSome) item.value inside
  exact ⟨units, (run_eq_onBytes chunks emptyGateway units).1⟩

end Connection

end Telemetry
