import Telemetry.Bysant.Value
import Telemetry.Json.Basic
import Telemetry.Text.Base64
import Telemetry.Text.Quoted
/-!
# Values as JSON and as text

How values are shown to people and exchanged with programs that speak JSON. Compressed vectors are
expanded; byte strings become text where they are UTF-8 and base 64 elsewhere; a protocol unit is
shown by its kind only.
-/

namespace Telemetry.Bysant

/-- Floats have the fewest digits that read back, and halves go away from zero. They are always
written positionally and without an empty fraction. -/
def plainLayout : Decimal.Layout where
  tie := .awayFromZero
  positional _ := true
  integerEnd := ""
  notANumber := "NaN"
  infinity := "inf"

def Number.display : Number → String
  | .int value => toString value.toInt
  | .float value => Decimal.text plainLayout value

def Number.toJson : Number → Json
  | .int value => .int value.toInt
  | .float value => .ofFloat value

namespace Value

/-- The text of a scalar, or the kind of anything else. -/
def display : Value → String
  | null => "null"
  | bool value => if value then "true" else "false"
  | int value => toString value.toInt
  | float value => Decimal.text plainLayout value
  | text value => Text.quote value
  | bytes value => s!"<{value.length} bytes>"
  | value => s!"<{value.kind}>"

/-- The name of the JSON field for a key of a map. -/
def fieldName (key : Value) : String := key.text?.getD key.display

mutual

def toJson : Value → Json
  | null => .null
  | bool value => .bool value
  | int value => .int value.toInt
  | float value => .ofFloat value
  | text value => .text value
  | bytes value =>
    match Bytes.toString? value with
    | some value => .text value
    | none => .ofFields [("base64", .text (Text.base64 value))]
  | list items => .array (itemsToJson items)
  | map pairs => .ofFields (pairsToJson pairs)
  | delta vector => .array (vector.samples.map Number.toJson)
  | quasi vector => .array (vector.samples.map Number.toJson)
  | envelope _ => .text "envelope"
  | message _ => .text "message"
  | response _ => .text "response"
termination_by structural value => value

def itemsToJson : List Value → List Json
  | [] => []
  | item :: rest => toJson item :: itemsToJson rest
termination_by structural items => items

def pairsToJson : List (Value × Value) → List (String × Json)
  | [] => []
  | (key, value) :: rest => (fieldName key, toJson value) :: pairsToJson rest
termination_by structural pairs => pairs

end

mutual

/-- The value that JSON stands for. Strings become byte strings, as devices expect text settings;
an integer beyond 64 bits with sign becomes a float. -/
def ofJson : Json → Value
  | .null => null
  | .bool value => bool value
  | .int value =>
    if Int64.minValue.toInt ≤ value ∧ value ≤ Int64.maxValue.toInt then int (Int64.ofInt value)
    else float (Float.ofInt value)
  | .float value => float value
  | .text value => bytes (Bytes.ofString value)
  | .array items => list (ofItems items)
  | .object fields => map (ofFields fields)
termination_by structural json => json

def ofItems : List Json → List Value
  | [] => []
  | item :: rest => ofJson item :: ofItems rest
termination_by structural items => items

def ofFields : List (String × Json) → List (Value × Value)
  | [] => []
  | (name, value) :: rest => (text name, ofJson value) :: ofFields rest
termination_by structural fields => fields

end

end Value

end Telemetry.Bysant
