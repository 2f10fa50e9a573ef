import Telemetry.Bysant.Decoder
import Telemetry.Bysant.Encoder
/-!
# The envelope decoder

Reads envelopes from bytes that arrive in chunks. A message that was sent without an envelope is
wrapped in one; any other value outside an envelope is an error. A decoder serves one exchange: once
it has given out an envelope it takes no more input, and the bytes behind go to a new decoder.
-/

namespace Telemetry.Bysant

/-- A decoder of envelopes between two chunks. -/
structure EnvelopeDecoder where
  values : Decoder
  /-- An envelope was given out. -/
  spent : Bool

namespace EnvelopeDecoder

def new : EnvelopeDecoder := ⟨.new, false⟩

/-- The envelopes that values stand for, or the first value that stands for none. -/
def envelopesOf : List Item → Except DecodeError (List Envelope)
  | [] => .ok []
  | ⟨offset, value⟩ :: rest =>
    match value with
    | .envelope envelope => (envelopesOf rest).map (envelope :: ·)
    | .message message => (envelopesOf rest).map (Envelope.wrap message :: ·)
    | value => .error (.parasiteData value.kind offset)

/-- Takes in a chunk. Gives the envelopes that it completes, also those in front of malformed bytes,
but none if another value is among them. -/
def feed (d : EnvelopeDecoder) (chunk : Bytes) :
    EnvelopeDecoder × List Envelope × Except DecodeError Unit :=
  if d.spent then (d, [], .error .decoderReused)
  else
    let (values, items, result) := d.values.feed chunk
    match envelopesOf items with
    | .error e => ({ d with values }, [], .error e)
    | .ok envelopes => (⟨values, !envelopes.isEmpty⟩, envelopes, result)

/-- The bytes behind the last whole envelope. -/
def pending (d : EnvelopeDecoder) : Bytes := d.values.pending

def hasPending (d : EnvelopeDecoder) : Bool := d.values.hasPending

/-- A new decoder that gives out an envelope keeps fewer bytes than it was fed. -/
theorem pending_lt_of_feed {d : EnvelopeDecoder} {chunk : Bytes} {envelopes : List Envelope}
    {result : Except DecodeError Unit} (h : new.feed chunk = (d, envelopes, result))
    (spent : d.spent = true) : d.pending.length < chunk.length := by
  simp only [feed, new, Bool.false_eq_true, if_false] at h
  split at h
  · cases h
    simp at spent
  · rename_i envelopes found
    cases h
    have some : (Decoder.new.feed chunk).2.1 ≠ [] := by
      intro none
      rw [none] at found
      cases found
      simp at spent
    have := Decoder.pending_lt_of_feed (rfl : Decoder.new.feed chunk = _) some
    rwa [show Decoder.new.pending.length = 0 from rfl, Nat.zero_add] at this

/-- Replaces a decoder that has given out envelopes by a new one, which takes over the bytes behind
them; again, as long as these complete more envelopes, which are added behind those so far. -/
def renew (d : EnvelopeDecoder) (envelopes : List Envelope) :
    EnvelopeDecoder × List Envelope × Except DecodeError Unit :=
  if d.spent then
    if d.hasPending then
      match _ : new.feed d.pending with
      | (fresh, more, .error e) => (fresh, envelopes ++ more, .error e)
      | (fresh, more, .ok ()) => fresh.renew (envelopes ++ more)
    else (new, envelopes, .ok ())
  else (d, envelopes, .ok ())
termination_by if d.spent then d.pending.length + 1 else 0
decreasing_by
  rename_i spent _ fed
  rw [if_pos spent]
  split
  · have := pending_lt_of_feed fed ‹_›
    omega
  · exact Nat.succ_pos _

/-- Takes in chunks one after the other, up to an error. Gives what each of them completes. -/
def feedAll :
    List Bytes → EnvelopeDecoder → EnvelopeDecoder × List (List Envelope) × Except DecodeError Unit
  | [], d => (d, [], .ok ())
  | chunk :: rest, d =>
    match d.feed chunk with
    | (d, envelopes, .error e) => (d, [envelopes], .error e)
    | (d, envelopes, .ok ()) =>
      let (d, others, result) := feedAll rest d
      (d, envelopes :: others, result)

def finish (d : EnvelopeDecoder) : EnvelopeDecoder × Except DecodeError Unit :=
  let (values, result) := d.values.finish
  ({ d with values }, result)

end EnvelopeDecoder

end Telemetry.Bysant
