import Telemetry.Proofs.Bysant.Completeness
import Telemetry.Proofs.Bysant.Soundness
/-!
# The round trip of values

Which values come back from their encoding: exactly those that keep to the limits of the format.
One direction is that sound values are read to their end, the other that nothing else is ever read.
-/

namespace Telemetry.Bysant

/-- Values are what their encoding decodes to if and only if all of them are representable: nested
no deeper than `maxDepth`, with parts no longer than the format allows, and under canonical header
keys. So the narrow integers and floats, the short tags and the packed differences lose nothing. -/
theorem decode_encodeAll_iff {vs : List Value} (wellFormed : ∀ v ∈ vs, v.WellFormed) :
    decode (encodeAll vs) = .ok vs ↔ ∀ v ∈ vs, v.Representable := by
  constructor
  · intro decoded v member
    exact (sound_iff.mp (sound_of_decode decoded v member)).1
  · intro representable
    exact decode_encodeAll_of_sound fun v member =>
      sound_iff.mpr ⟨representable v member, wellFormed v member⟩

/-- An envelope with two headers and a footer, around it a list, and a message with a body of two
keys, a float and a delta vector in it. -/
def mixedValues : List Value :=
  [.list [.envelope ⟨⟨[(.id, .text "dev"), (.other "x", .int (-65))]⟩, [1, 2], [(.null, .bool true)]⟩],
    .message ⟨"@sys", some 7, [("a", .float (Float.ofBits 0x3FF8000000000000)),
      ("b", .delta ⟨.int 1, .int 1000, [1, -200, 40000]⟩)]⟩]

theorem decode_encodeAll_mixedValues : (∀ v ∈ mixedValues, v.WellFormed) ∧
    (∀ v ∈ mixedValues, v.Representable) ∧ decode (encodeAll mixedValues) = .ok mixedValues := by
  have wellFormed : ∀ v ∈ mixedValues, v.WellFormed := by decide +kernel
  have representable : ∀ v ∈ mixedValues, v.Representable := by decide +kernel
  exact ⟨wellFormed, representable, (decode_encodeAll_iff wellFormed).mpr representable⟩

end Telemetry.Bysant
