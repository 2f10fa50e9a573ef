import Telemetry.Proofs.Table
import Telemetry.Proofs.Bysant.Plain
import Telemetry.Proofs.Bysant.RoundTrip
/-!
# JSON through values

Values are made of JSON and shown as JSON by two recursions that are not written as inverses of each
other: strings become byte strings and come back as text, objects become pairs in order and come
back through a table, and a number goes to one of two kinds of number. What comes back is
what was given, exactly where numbers are ones that values hold and fields are a table.
-/

namespace Telemetry

namespace Json

mutual

/-- Whether a condition holds of a value and of every value inside it. -/
def everywhere (p : Json → Bool) : Json → Bool
  | array items => p (array items) && everywhereItems p items
  | object fields => p (object fields) && everywhereFields p fields
  | value => p value
termination_by structural value => value

def everywhereItems (p : Json → Bool) : List Json → Bool
  | [] => true
  | item :: rest => item.everywhere p && everywhereItems p rest
termination_by structural items => items

def everywhereFields (p : Json → Bool) : List (String × Json) → Bool
  | [] => true
  | (_, value) :: rest => value.everywhere p && everywhereFields p rest
termination_by structural fields => fields

end

/-- Whether this value itself is kept as it is: a number is an integer of 64 bits with sign or a
finite float, and the fields of an object stand in the order of their names, each name once. -/
def isKept : Json → Bool
  | int value => Int64.minValue.toInt ≤ value ∧ value ≤ Int64.maxValue.toInt
  | float value => (Binary.ofFloat? value).isSome
  | object fields => (Table.keys fields).Pairwise (· < ·)
  | _ => true

end Json

namespace Bysant

/-! ## There and back -/

theorem keys_pairsToJson_ofFields (fields : List (String × Json)) :
    Table.keys (Value.pairsToJson (Value.ofFields fields)) = Table.keys fields := by
  induction fields with
  | nil => rfl
  | cons field rest ih => exact congrArg (field.1 :: ·) ih

theorem toJson_ofJson_int_iff (value : Int) : (Value.ofJson (.int value)).toJson = .int value ↔
    Int64.minValue.toInt ≤ value ∧ value ≤ Int64.maxValue.toInt := by
  rw [Value.ofJson]
  split
  · rename_i fits
    rw [Value.toJson, Int64.toInt_ofInt_of_le fits.1 (Int.lt_of_le_of_lt fits.2 (by decide))]
    exact iff_of_true rfl fits
  · rename_i beyond
    rw [Value.toJson, Json.ofFloat]
    refine iff_of_false (fun same => ?_) beyond
    split at same <;> cases same

theorem toJson_ofJson_float_iff (value : Float) :
    (Value.ofJson (.float value)).toJson = .float value ↔ (Binary.ofFloat? value).isSome := by
  rw [Value.ofJson, Value.toJson, Json.ofFloat]
  split
  · rename_i finite
    exact iff_of_true rfl finite
  · rename_i infinite
    exact iff_of_false (fun same => by cases same) infinite

mutual

/-- JSON comes back from a value if and only if all of it is kept. -/
theorem toJson_ofJson_iff : (json : Json) →
    ((Value.ofJson json).toJson = json ↔ json.everywhere Json.isKept)
  | .null => iff_of_true rfl rfl
  | .bool _ => iff_of_true rfl rfl
  | .int value => (toJson_ofJson_int_iff value).trans decide_eq_true_iff.symm
  | .float value => toJson_ofJson_float_iff value
  | .text value => by
    rw [Value.ofJson, Value.toJson, Bytes.toString?_ofString]
    exact iff_of_true rfl rfl
  | .array items => by
    have self : (Json.array items).isKept = true := rfl
    rw [Value.ofJson, Value.toJson, Json.array.injEq, itemsToJson_ofItems_iff items,
      Json.everywhere, self, Bool.true_and]
  | .object fields => by
    have back := pairsToJson_ofFields_iff fields
    rw [Value.ofJson, Value.toJson, Json.ofFields, Json.object.injEq, Json.everywhere, Json.isKept,
      Bool.and_eq_true, decide_eq_true_eq]
    constructor
    · intro same
      -- What comes back is a table, and it has the names that were given.
      have ordered : (Table.keys fields).Pairwise (· < ·) :=
        same ▸ Table.ordered_ofList (Value.pairsToJson (Value.ofFields fields))
      have table : Table.Ordered (Value.pairsToJson (Value.ofFields fields)) := by
        rwa [Table.Ordered, keys_pairsToJson_ofFields]
      rw [table.ofList_eq] at same
      exact ⟨ordered, back.mp same⟩
    · rintro ⟨ordered, inside⟩
      rw [back.mpr inside]
      exact Table.Ordered.ofList_eq ordered

theorem itemsToJson_ofItems_iff : (items : List Json) →
    (Value.itemsToJson (Value.ofItems items) = items ↔ Json.everywhereItems Json.isKept items)
  | [] => iff_of_true rfl rfl
  | item :: rest => by
    rw [Value.ofItems, Value.itemsToJson, List.cons.injEq, toJson_ofJson_iff item,
      itemsToJson_ofItems_iff rest, Json.everywhereItems, Bool.and_eq_true]

theorem pairsToJson_ofFields_iff : (fields : List (String × Json)) →
    (Value.pairsToJson (Value.ofFields fields) = fields ↔
      Json.everywhereFields Json.isKept fields)
  | [] => iff_of_true rfl rfl
  | (name, value) :: rest => by
    have named : Value.fieldName (.text name) = name := rfl
    rw [Value.ofFields, Value.pairsToJson, List.cons.injEq, Prod.mk.injEq, named,
      toJson_ofJson_iff value, pairsToJson_ofFields_iff rest, Json.everywhereFields,
      Bool.and_eq_true]
    exact and_congr_left' (and_iff_right rfl)

end

/-! ## Over the wire -/

/-- What is made of JSON has no header, and so keeps to every limit but those of size. -/
theorem wellFormed_canonical_ofJson (json : Json) :
    (Value.ofJson json).WellFormed ∧ (Value.ofJson json).everywhere Value.isCanonical := by
  have parts : Value.isPlain = fun v => v.isPlain && (v.isCanonical && v.isTabular) := by
    funext v
    cases v <;> simp [Value.isPlain]
  have plain := plain_ofJson json
  rw [parts, everywhere_and, everywhere_and, Bool.and_eq_true, Bool.and_eq_true] at plain
  exact ⟨plain.2.2, plain.2.1⟩

/-- JSON survives the trip through the value model. It comes back from its value if and only if
every number in it is an integer of 64 bits with sign or a finite float and its objects are tables.
Its value is what the encoding of the value decodes to if and only if it is nested no deeper than
`maxDepth` and no part of it is too long; then the JSON comes back from over the wire. -/
theorem json_survives (json : Json) :
    ((Value.ofJson json).toJson = json ↔ json.everywhere Json.isKept) ∧
    (decode (encode (Value.ofJson json)) = .ok [Value.ofJson json] ↔
      (Value.ofJson json).depth ≤ maxDepth ∧ (Value.ofJson json).everywhere Value.isShort) ∧
    (json.everywhere Json.isKept → (Value.ofJson json).depth ≤ maxDepth →
      (Value.ofJson json).everywhere Value.isShort →
      (decode (encode (Value.ofJson json))).map (List.map Value.toJson) = .ok [json]) := by
  obtain ⟨wellFormed, canonical⟩ := wellFormed_canonical_ofJson json
  have alone : encodeAll [Value.ofJson json] = encode (Value.ofJson json) := List.append_nil _
  have travels : decode (encode (Value.ofJson json)) = .ok [Value.ofJson json] ↔
      (Value.ofJson json).depth ≤ maxDepth ∧ (Value.ofJson json).everywhere Value.isShort := by
    rw [← alone, decode_encodeAll_iff (by simpa using wellFormed), List.forall_mem_singleton]
    exact ⟨fun within => ⟨within.shallow, within.short⟩,
      fun ⟨shallow, short⟩ => ⟨shallow, short, canonical⟩⟩
  refine ⟨toJson_ofJson_iff json, travels, fun kept shallow short => ?_⟩
  have back := (toJson_ofJson_iff json).mpr kept
  rw [travels.mpr ⟨shallow, short⟩]
  exact congrArg (fun json => Except.ok [json]) back

/-- An object with the least integer, a float and a text in a list, and an empty object. -/
def nestedJson : Json :=
  .object [("a", .array [.int (-0x8000000000000000), .float (Float.ofBits 0x3FF8000000000000),
    .text "on", .null]), ("b", .object [])]

theorem json_survives_nested : (Value.ofJson nestedJson).toJson = nestedJson ∧
    (decode (encode (Value.ofJson nestedJson))).map (List.map Value.toJson) = .ok [nestedJson] := by
  have kept : nestedJson.everywhere Json.isKept := by decide +kernel
  have shallow : (Value.ofJson nestedJson).depth ≤ maxDepth := by decide +kernel
  have short : (Value.ofJson nestedJson).everywhere Value.isShort := by decide +kernel
  obtain ⟨back, -, overWire⟩ := json_survives nestedJson
  exact ⟨back.mpr kept, overWire kept shallow short⟩

end Bysant

end Telemetry
