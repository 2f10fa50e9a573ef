import Telemetry.Json.Source
/-!
# Values of a given shape

Reads a JSON text as a value of a known shape: a record with named fields, a list of records, a
name out of a fixed set. A record may also be written as the array of its fields in their order.
Fields that the record does not have are skipped. Where any value may stand, an object with a
reserved name stands for the value that its text holds. What goes wrong first decides the fault.
-/

namespace Telemetry.Json

/-- Why a text does not give a value of the wanted shape. -/
inductive Fault where
  /-- The text is no JSON, or holds a number or nesting beyond the limits. -/
  | malformed
  /-- The text is JSON of another shape. -/
  | wrongShape
  deriving Repr, DecidableEq

/-- A text may open one container less than this inside each other. -/
def maxNesting : Nat := 128

namespace Source

mutual

/-- Whether a part of a text is well-formed to its end. -/
def isWhole : Source → Bool
  | broken => false
  | array items => itemsWhole items
  | object fields => fieldsWhole fields
  | null | bool _ | number _ | text _ => true
termination_by structural source => source

/-- Whether items are well-formed. -/
def itemsWhole : List Source → Bool
  | [] => true
  | item :: rest => isWhole item && itemsWhole rest
termination_by structural items => items

/-- Whether fields are well-formed. -/
def fieldsWhole : List (Option String × Source) → Bool
  | [] => true
  | (_, value) :: rest => isWhole value && fieldsWhole rest
termination_by structural fields => fields

end

/-- The fault of a value that is not of the wanted shape. -/
def mismatch : Source → Fault
  | broken | text none => .malformed
  | number numeral => if numeral.toJson?.isSome then .wrongShape else .malformed
  | null | bool _ | text (some _) | array _ | object _ => .wrongShape

/-- The name of the field by which an object stands for a value that is written out as text. -/
def embeddedName : String := "$serde_json::private::RawValue"

/-- Whether an object stands for a value that is written out: its first field says so. -/
def isEmbedded : List (Option String × Source) → Bool
  | (some name, _) :: _ => name = embeddedName
  | _ => false

/-- The value that an object stands for. A text that `read?` does not take is of the wrong shape,
and no field may follow it. -/
def embeddedJson (read? : String → Option Json) :
    List (Option String × Source) → Except Fault Json
  | (_, text (some written)) :: rest =>
    match read? written with
    | none => .error .wrongShape
    | some value => if rest.isEmpty then .ok value else .error .malformed
  | (_, value) :: _ => .error value.mismatch
  | [] => .error .malformed

mutual

/-- The value that stands in a text, any value. `room` is the number of containers that may still
be opened, plus one; `read?` reads the values that are written out inside. -/
def toJsonWith (read? : String → Option Json) (room : Nat) : Source → Except Fault Json
  | null => .ok .null
  | bool value => .ok (.bool value)
  | text (some value) => .ok (.text value)
  | number numeral =>
    match numeral.toJson? with
    | some value => .ok value
    | none => .error .malformed
  | array items =>
    if room ≤ 1 then .error .malformed else (itemsToJson read? (room - 1) items).map .array
  | object fields =>
    if room ≤ 1 then .error .malformed
    else if isEmbedded fields then embeddedJson read? fields
    else (fieldsToJson read? (room - 1) fields).map Json.ofFields
  | broken | text none => .error .malformed
termination_by structural source => source

/-- The values of items. -/
def itemsToJson (read? : String → Option Json) (room : Nat) :
    List Source → Except Fault (List Json)
  | [] => .ok []
  | item :: rest => do
    let value ← toJsonWith read? room item
    return value :: (← itemsToJson read? room rest)
termination_by structural items => items

/-- The values of fields. -/
def fieldsToJson (read? : String → Option Json) (room : Nat) :
    List (Option String × Source) → Except Fault (List (String × Json))
  | [] => .ok []
  | (none, _) :: _ => .error .malformed
  | (some name, value) :: rest => do
    let value ← toJsonWith read? room value
    return (name, value) :: (← fieldsToJson read? room rest)
termination_by structural fields => fields

end

end Source

/-- The value that is all of a text, where values are written out less than `depth` times inside one
another. -/
def parseWithin? : (depth : Nat) → String → Option Json
  | 0, _ => none
  | depth + 1, s =>
    match Source.read s with
    | (_, none) => none
    | (source, some rest) =>
      if (Source.skipBlank rest).isEmpty then
        (source.toJsonWith (parseWithin? depth) maxNesting).toOption
      else none

/-- The JSON value of a text. A value that is written out in it takes up less of it than the quotes
around it leave, so that the depth taken here is never reached. -/
def parse? (s : String) : Option Json := parseWithin? (s.length + 1) s

/-- The value that stands in a text, any value. -/
def Source.toJson (room : Nat) (source : Source) : Except Fault Json :=
  source.toJsonWith parse? room

/-- Reads a value of some shape. `room` is the number of containers that may still be opened, plus
one. -/
abbrev Shape (α : Type) := (room : Nat) → Source → Except Fault α

namespace Shape

def any : Shape Json := fun room source => source.toJson room

def text : Shape String := fun _ source =>
  match source with
  | .text (some value) => .ok value
  | source => .error source.mismatch

/-- Null, or a value of a shape. -/
def optional {α : Type} (shape : Shape α) : Shape (Option α) := fun room source =>
  match source with
  | .null => .ok none
  | source => (shape room source).map some

/-- One of a set of names: a string, or an object whose only field has that name and is null. -/
def nameOf {α : Type} (ofName? : String → Option α) : Shape α := fun room source =>
  match source with
  | .text (some name) =>
    match ofName? name with
    | some a => .ok a
    | none => .error .wrongShape
  | .object ((some name, value) :: rest) =>
    if room ≤ 1 then .error .malformed
    else
      match ofName? name with
      | none => .error .wrongShape
      | some a =>
        match value, rest with
        | .null, [] => .ok a
        | .null, _ => .error .malformed
        | value, _ => .error value.mismatch
  | .object ((none, _) :: _) => .error .malformed
  | _ => .error .malformed

def list {α : Type} (shape : Shape α) : Shape (List α) := fun room source =>
  match source with
  | .array items => if room ≤ 1 then .error .malformed else items.mapM (shape (room - 1))
  | source => .error source.mismatch

/-- A field of a record that is built up in a `σ`. -/
structure Field (σ : Type) where
  name : String
  /-- Whether the field may be left out. -/
  optional : Bool
  read : (room : Nat) → Source → σ → Except Fault σ

/-- The field that takes a value of a shape in. -/
def Field.of {σ α : Type} (name : String) (optional : Bool) (shape : Shape α)
    (set : σ → α → σ) : Field σ :=
  ⟨name, optional, fun room source record => (shape room source).map (set record)⟩

/-- Takes in named fields in the order of the text. A field may come once. -/
def readNamed {σ : Type} (fields : List (Field σ)) (room : Nat) :
    (seen : List String) → List (Option String × Source) → σ → Except Fault (List String × σ)
  | seen, [], record => .ok (seen, record)
  | _, (none, _) :: _, _ => .error .malformed
  | seen, (some name, value) :: rest, record =>
    match fields.find? (·.name = name) with
    | none => if value.isWhole then readNamed fields room seen rest record else .error .malformed
    | some field =>
      if name ∈ seen then .error .wrongShape
      else
        match field.read room value record with
        | .ok record => readNamed fields room (name :: seen) rest record
        | .error fault => .error fault

/-- Takes in fields by their position. Optional fields may be missing at the end. -/
def readPositional {σ : Type} (room : Nat) :
    List (Field σ) → List Source → σ → Except Fault σ
  | [], [], record => .ok record
  | [], _ :: _, _ => .error .malformed
  | field :: fields, [], record =>
    if field.optional then readPositional room fields [] record else .error .wrongShape
  | field :: fields, item :: items, record =>
    match field.read room item record with
    | .ok record => readPositional room fields items record
    | .error fault => .error fault

/-- A record that starts out as `blank`. -/
def record {σ : Type} (fields : List (Field σ)) (blank : σ) : Shape σ := fun room source =>
  match source with
  | .object named =>
    if room ≤ 1 then .error .malformed
    else
      match readNamed fields (room - 1) [] named blank with
      | .ok (seen, record) =>
        if fields.all fun field => field.optional || seen.contains field.name then .ok record
        else .error .wrongShape
      | .error fault => .error fault
  | .array items =>
    if room ≤ 1 then .error .malformed else readPositional (room - 1) fields items blank
  | source => .error source.mismatch

/-- Reads the value that a text starts with, whatever follows it. -/
def readStart {α : Type} (shape : Shape α) (s : String) : Except Fault α :=
  shape maxNesting (Source.read s).1

def readAll {α : Type} (shape : Shape α) (s : String) : Except Fault α :=
  match Source.read s with
  | (source, rest?) =>
    match shape maxNesting source with
    | .error fault => .error fault
    | .ok value =>
      match rest? with
      | some rest => if (Source.skipBlank rest).isEmpty then .ok value else .error .malformed
      | none => .error .malformed

end Shape

end Telemetry.Json
