import Telemetry.Bysant.Header
import Telemetry.Number.Binary
/-!
# Received data

A message from a device becomes a table of samples, each with the time at which it was taken. A body
that holds a list or a compressed vector is a set of columns; then a column of times in seconds, if
there is one, gives the times of the rows, and rows behind its end follow one millisecond apart. Any
other body was taken when it was received. Times are signed words of 64 bits, and wrap around behind
the last one.
-/

namespace Telemetry.Store

open Bysant (Value Message Number)

/-- A value and when it was taken, in milliseconds since the epoch. -/
structure Sample where
  time : Int64
  value : Value
  deriving BEq, Inhabited

/-- What a message reported: samples by key. -/
structure ReceivedMessage where
  path : String
  data : Table String (List Sample)
  deriving BEq, Inhabited

/-- What an envelope reported, and when it was received, in milliseconds since the epoch. -/
structure ReceivedEnvelope where
  time : Int64
  messages : List ReceivedMessage
  deriving BEq, Inhabited

/-- A byte string that is UTF-8 as a text; any other value as it is. -/
def textify (value : Value) : Value :=
  match value with
  | .bytes b =>
    match Bytes.toString? b with
    | some s => .text s
    | none => value
  | value => value

/-- The rows of a column: the items of a list or vector, or a single value. -/
def rows (value : Value) : List Value :=
  match value with
  | .list items => items.map textify
  | .delta vector => vector.samples.map Value.ofNumber
  | .quasi vector => vector.samples.map Value.ofNumber
  | value => [textify value]

/-- Whether a value holds more than one row by its kind. -/
def isSeries : Value → Bool
  | .list _ | .delta _ | .quasi _ => true
  | _ => false

/-- The keys under which a body may hold a column of times, in order of preference. -/
def timeKeys : List String := ["timestamp", "timestamps"]

/-- A number of seconds in milliseconds, held at the ends of the 64-bit range. -/
def milliseconds : Number → Int64
  | .int seconds => .ofIntClamp (seconds.toInt * 1000)
  | .float seconds => Binary.truncate64 (seconds * 1000.0)

/-- The times of a column, of which entries that are no numbers are left out. -/
def timesOf (column : Value) : List Int64 :=
  ((rows column).filterMap Value.number?).map milliseconds

/-- Rows with their times; behind the last time each follows the one before by a millisecond, which
is `last` at the start. -/
def stamp (last : Int64) : List Int64 → List Value → List Sample
  | _, [] => []
  | [], value :: rest => ⟨last + 1, value⟩ :: stamp (last + 1) [] rest
  | time :: times, value :: rest => ⟨time, value⟩ :: stamp time times rest

/-- The column of times of a body that holds columns. -/
def timeColumn? (m : Message) : Option Value :=
  if m.body.any fun entry => isSeries entry.2 then
    timeKeys.findSome? fun key => Table.get? key m.body
  else none

/-- What a message that was received at `now` reported. -/
def ReceivedMessage.ofMessage (now : Int64) (m : Message) : ReceivedMessage :=
  match timeColumn? m with
  | some column =>
    let times := timesOf column
    ⟨m.path, (m.body.filter fun entry => entry.1 ∉ timeKeys).map fun entry =>
      (entry.1, stamp now times (rows entry.2))⟩
  | none =>
    ⟨m.path, m.body.map fun entry => (entry.1, (rows entry.2).map fun value => ⟨now, value⟩)⟩

end Telemetry.Store
