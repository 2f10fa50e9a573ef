import Mathlib.Logic.Relation
import Telemetry.Gateway.Line
import Telemetry.Proofs.Bysant.EnvelopeDecoder
import Telemetry.Proofs.Bytes
/-!
# Requests over a line

A client sends each request over a new connection, which takes it in from chunks while others use
the gateway. The gateway nevertheless handles the request at one moment, and the client reads the
reply from whatever pieces it comes back in.
-/

namespace Telemetry

open Bysant

open Relation (ReflTransGen)

variable {others : Gateway → Gateway → Prop} {g g' final : Gateway} {c after : Connection}
  {chunk : Bytes} {chunks : List Bytes} {first reaction : Reaction} {e : Envelope} {reader : Decoder}
  {envelopes : List Envelope}

namespace Connection

/-- A connection takes in chunks, up to one behind which it closes, while others use the gateway. -/
inductive Serves (others : Gateway → Gateway → Prop) :
    Connection → List Bytes → Gateway → Reaction → Gateway → Prop where
  | ended {c : Connection} {g : Gateway} : Serves others c [] g ⟨[], false⟩ g
  | closed {c after : Connection} {chunk : Bytes} {rest : List Bytes} {g g' : Gateway}
      {reaction : Reaction} (fed : c.onBytes chunk g = (reaction, after, g'))
      (closes : reaction.close = true) : Serves others c (chunk :: rest) g reaction g'
  | fed {c after : Connection} {chunk : Bytes} {rest : List Bytes} {g g' final : Gateway}
      {first reaction : Reaction} (fed : c.onBytes chunk g = (first, after, g'))
      (stays : first.close = false) (served : Serves others after rest g' reaction final) :
      Serves others c (chunk :: rest) g ⟨first.writes ++ reaction.writes, reaction.close⟩ final
  /-- Others use the gateway before anything more comes in. -/
  | meanwhile {c : Connection} {chunks : List Bytes} {g g' final : Gateway} {reaction : Reaction}
      (used : others g g') (served : Serves others c chunks g' reaction final) :
      Serves others c chunks g reaction final
  /-- Others use the gateway before the client has heard everything. -/
  | afterwards {c : Connection} {chunks : List Bytes} {g g' final : Gateway} {reaction : Reaction}
      (served : Serves others c chunks g reaction g') (used : others g' final) :
      Serves others c chunks g reaction final

/-- Nobody else need use the gateway. -/
theorem serves_run (chunks : List Bytes) (c : Connection) (g : Gateway) :
    Serves others c chunks g (run chunks c g).1 (run chunks c g).2.2 := by
  induction chunks generalizing c g with
  | nil => exact .ended
  | cons chunk rest ih =>
    rw [run]
    dsimp only
    split
    · rename_i closes
      exact .closed rfl closes
    · rename_i stays
      exact .fed rfl (Bool.eq_false_iff.mpr stays) (ih _ _)

/-! ## One request -/

/-- These chunks bring a connection these envelopes and nothing else. -/
def Brought (c : Connection) (chunks : List Bytes) (envelopes : List Envelope) : Prop :=
  ∃ reader, c.decoder.Follows reader ∧ reader.Finds chunks.flatten envelopes

theorem brought_new (sound : (Value.envelope e).Sound maxDepth) (whole : chunks.flatten = e.encode) :
    Brought {} chunks [e] :=
  ⟨.new, EnvelopeDecoder.follows_new, whole ▸ Decoder.finds_encode sound⟩

/-- Each chunk brings some of the envelopes, which are handled, and the other chunks bring the
rest. -/
theorem Brought.onBytes (brought : c.Brought (chunk :: chunks) envelopes)
    (fed : c.onBytes chunk g = (first, after, g')) : ∃ front back, envelopes = front ++ back ∧
      handleAll front c.session g = ⟨first, after.session, g'⟩ ∧ after.Brought chunks back := by
  obtain ⟨reader, follows, finds⟩ := brought
  obtain ⟨front, back, parts, finds, others⟩ := finds.split
  refine ⟨front, back, parts, ?_, (reader.feed chunk).1, ?_, others⟩
  · have outcome := outcome_onBytes follows finds.rest chunk finds.units g
    rw [finds.found, finds.alive, fed] at outcome
    refine Eq.trans ?_ outcome.symm
    -- nothing stops behind the envelopes
    generalize handleAll front c.session g = handled
    obtain ⟨⟨writes, closes⟩, session, gateway⟩ := handled
    cases closes <;> simp [andThen, stop]
  · have decoded := (decode_of_follows follows finds.rest chunk finds.units).2
    rw [finds.alive] at decoded
    obtain rfl : (c.onBytes chunk g).2.1 = after := by rw [fed]
    exact decoded.2

/-- A connection that is brought nothing does nothing. -/
theorem Serves.of_nothing (served : Serves others c chunks g reaction final)
    (brought : c.Brought chunks []) : reaction = ⟨[], false⟩ ∧ ReflTransGen others g final := by
  induction served with
  | ended => exact ⟨rfl, .refl⟩
  | closed fed closes =>
    obtain ⟨front, back, parts, handled, -⟩ := brought.onBytes fed
    obtain ⟨rfl, rfl⟩ := List.append_eq_nil_iff.mp parts.symm
    obtain ⟨rfl, -, rfl⟩ := Handled.mk.inj handled
    cases closes
  | fed fed stays served ih =>
    obtain ⟨front, back, parts, handled, brought⟩ := brought.onBytes fed
    obtain ⟨rfl, rfl⟩ := List.append_eq_nil_iff.mp parts.symm
    obtain ⟨rfl, -, rfl⟩ := Handled.mk.inj handled
    obtain ⟨rfl, used⟩ := ih brought
    exact ⟨rfl, used⟩
  | meanwhile used served ih =>
    obtain ⟨nothing, more⟩ := ih brought
    exact ⟨nothing, .head used more⟩
  | afterwards served used ih =>
    obtain ⟨nothing, more⟩ := ih brought
    exact ⟨nothing, .tail more used⟩

/-- A connection that is brought one envelope handles it at one moment. All else that happens to the
gateway is done by others, before and after that. -/
theorem Serves.once (served : Serves others c chunks g reaction final)
    (brought : c.Brought chunks [e]) : ∃ before, ReflTransGen others g before ∧
      reaction = (handle e c.session before).reaction ∧
      ReflTransGen others (handle e c.session before).gateway final := by
  induction served with
  | ended =>
    obtain ⟨reader, -, finds⟩ := brought
    have none := finds.found
    rw [List.flatten_nil, finds.rest.feed_nil] at none
    cases none
  | @closed c after chunk rest g g' reaction fed closes =>
    obtain ⟨front, back, parts, handled, -⟩ := brought.onBytes fed
    rcases List.append_eq_singleton_iff.mp parts.symm with ⟨rfl, rfl⟩ | ⟨rfl, rfl⟩
    · obtain ⟨rfl, -, rfl⟩ := Handled.mk.inj handled
      cases closes
    · rw [handleAll_singleton] at handled
      refine ⟨g, .refl, ?_, ?_⟩
      · rw [handled]
      · rw [handled]
  | @fed c after chunk rest g g' final first reaction fed stays served ih =>
    obtain ⟨front, back, parts, handled, brought⟩ := brought.onBytes fed
    rcases List.append_eq_singleton_iff.mp parts.symm with ⟨rfl, rfl⟩ | ⟨rfl, rfl⟩
    · obtain ⟨rfl, same, rfl⟩ := Handled.mk.inj handled
      obtain ⟨before, more, answered, later⟩ := ih brought
      rw [← same] at answered later
      exact ⟨before, more, answered, later⟩
    · rw [handleAll_singleton] at handled
      obtain ⟨rfl, used⟩ := served.of_nothing brought
      refine ⟨g, .refl, ?_, ?_⟩
      · rw [handled, List.append_nil, ← stays]
      · rw [handled]
        exact used
  | meanwhile used served ih =>
    obtain ⟨before, more, same, later⟩ := ih brought
    exact ⟨before, .head used more, same, later⟩
  | afterwards served used ih =>
    obtain ⟨before, more, same, later⟩ := ih brought
    exact ⟨before, more, same, .tail later used⟩

end Connection

/-! ## Reliable lines -/

/-- Every request comes to a new connection in some chunks, and the client hears in some pieces
everything that the connection answers, while others use the gateway. -/
def Line.Carries (line : Line Gateway) (others : Gateway → Gateway → Prop) : Prop :=
  ∀ request g, ∃ chunks pieces reaction final, chunks.flatten = request ∧
    Connection.Serves others {} chunks g reaction final ∧
    pieces.flatten = (reaction.writes.map Envelope.encode).flatten ∧
    line request g = (.reply pieces reaction.close, final)

variable {line : Line Gateway}

theorem Gateway.carries_line (others : Gateway → Gateway → Prop) : Gateway.line.Carries others := by
  intro request g
  have whole : (request.chunks chunkSize).flatten = request := by
    refine Bytes.flatten_pieces ?_
    simp only [chunkSize]
    omega
  exact ⟨_, _, _, _, whole, Connection.serves_run _ _ g, rfl, rfl⟩

/-- A request that keeps to the limits is handled at one moment, and the client hears the answer. -/
theorem Line.Carries.request (carries : line.Carries others)
    (sound : (Value.envelope e).Sound maxDepth) (g : Gateway) : ∃ before pieces final,
      ReflTransGen others g before ∧
      pieces.flatten = ((Connection.handle e none before).reaction.writes.map Envelope.encode).flatten ∧
      line e.encode g = (.reply pieces (Connection.handle e none before).reaction.close, final) ∧
      ReflTransGen others (Connection.handle e none before).gateway final := by
  obtain ⟨chunks, pieces, reaction, final, whole, served, heard, carried⟩ := carries e.encode g
  obtain ⟨before, used, rfl, later⟩ := served.once (Connection.brought_new sound whole)
  exact ⟨before, pieces, final, used, heard, carried, later⟩

/-- A client reads an envelope from its encoding, in whatever pieces that comes. -/
theorem Client.firstEnvelope_of_finds {pieces : List Bytes}
    (finds : reader.Finds pieces.flatten [e]) (patience : Nat) (closed : Bool) :
    firstEnvelope patience closed ⟨reader, false⟩ pieces = .ok e := by
  induction pieces generalizing reader with
  | nil =>
    have none := finds.found
    rw [List.flatten_nil, finds.rest.feed_nil] at none
    cases none
  | cons piece rest ih =>
    obtain ⟨front, back, parts, first, others⟩ := Decoder.Finds.split finds
    rcases List.append_eq_singleton_iff.mp parts.symm with ⟨rfl, rfl⟩ | ⟨rfl, rfl⟩
    · rw [firstEnvelope, first.feed]
      exact ih others
    · rw [firstEnvelope, first.feed]

end Telemetry
