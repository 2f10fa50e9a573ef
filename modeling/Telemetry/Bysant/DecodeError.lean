import Telemetry.Bysant.Value
import Telemetry.Text.Hex
/-!
# Why bytes do not decode

An error about a place in the input carries its offset from the first byte ever fed to the decoder,
wherever the input was cut into chunks.
-/

namespace Telemetry.Bysant

/-- Why decoding stopped for good. -/
inductive DecodeError where
  /-- A tag that the format does not have. -/
  | invalidTag (tag : UInt8) (offset : Nat)
  /-- A length or count above what is accepted. -/
  | lengthOverflow (length limit offset : Nat)
  /-- A length or count of more than 64 bits. -/
  | varintOverflow (offset : Nat)
  /-- A well-formed value where one of another kind has to stand. -/
  | wrongType (expected found : String) (offset : Nat)
  /-- A text that is not UTF-8. -/
  | invalidUtf8 (offset : Nat)
  /-- Too many containers inside each other. -/
  | tooDeep (limit offset : Nat)
  /-- A compressed vector of too many samples. -/
  | vectorTooLarge (limit offset : Nat)
  /-- A value outside an envelope. -/
  | parasiteData (found : String) (offset : Nat)
  /-- The input ended inside a value. -/
  | trailingBytes (remaining : Nat)
  /-- An envelope decoder was fed after it had given out its envelope. -/
  | decoderReused
  /-- A decoder was used after the end of its input. -/
  | finished
  deriving Repr, DecidableEq, Inhabited

namespace DecodeError

/-- The place in the input, for errors that have one. -/
def offset? : DecodeError → Option Nat
  | invalidTag _ offset | lengthOverflow _ _ offset | varintOverflow offset
  | wrongType _ _ offset | invalidUtf8 offset | tooDeep _ offset | vectorTooLarge _ offset
  | parasiteData _ offset => some offset
  | trailingBytes _ | decoderReused | finished => none

def message : DecodeError → String
  | invalidTag tag offset => s!"invalid tag 0x{Text.hex [tag]} at offset {offset}"
  | lengthOverflow length limit offset =>
    s!"length {length} at offset {offset} exceeds limit {limit}"
  | varintOverflow offset => s!"varint overflow at offset {offset}"
  | wrongType expected found offset => s!"expected {expected} at offset {offset}, found {found}"
  | invalidUtf8 offset => s!"invalid UTF-8 string at offset {offset}"
  | tooDeep limit offset => s!"nesting deeper than {limit} at offset {offset}"
  | vectorTooLarge limit offset => s!"vector at offset {offset} expands past {limit} samples"
  | parasiteData found offset =>
    s!"parasite data at offset {offset}: expected an envelope, found {found}"
  | trailingBytes remaining => s!"{remaining} trailing bytes do not form a complete value"
  | decoderReused => "envelope decoder already emitted an envelope and cannot be reused"
  | finished => "decoder already finished"

end DecodeError

end Telemetry.Bysant
