import Telemetry.Bysant.Json
import Telemetry.Gateway.Basic
/-!
# What administrators see and do

Received data is shown by name, `path.key`, newest sample first. Settings to be sent are given by
name, too, and become one message for each path. Security profiles are registered and shown without
their secrets.
-/

namespace Telemetry

open Bysant (Message Value)

open Security (Authentication Encryption Profile ProfileError)

namespace Admin

/-- The samples of a name: time and value. -/
abbrev Series := List (Int × Json)

/-- The name of a column of a message. -/
def nameOf (path key : String) : String := path ++ "." ++ key

/-- The columns of received envelopes, in order, by name. -/
def columnsOf (envelopes : List Store.ReceivedEnvelope) : List (String × Series) :=
  envelopes.flatMap fun envelope =>
    envelope.messages.flatMap fun message =>
      message.data.map fun (key, samples) =>
        (nameOf message.path key, samples.map fun sample => (sample.time.toInt, sample.value.toJson))

/-- Received data by name, newest sample first; samples of one time stay in the order in which they
came. -/
def groupReceived (envelopes : List Store.ReceivedEnvelope) : Table String Series :=
  let grouped := (columnsOf envelopes).foldl
    (fun table (name, series) => Table.alter name (fun old => old.getD [] ++ series) table) []
  grouped.map fun (name, series) => (name, series.mergeSort fun a b => b.1 ≤ a.1)

def sampleToJson (sample : Int × Json) : Json :=
  .object [("timestamp", .int sample.1), ("value", sample.2)]

def receivedToJson (envelopes : List Store.ReceivedEnvelope) : Json :=
  .object ((groupReceived envelopes).map fun (name, series) =>
    (name, .array (series.map sampleToJson)))

/-- A name split at its last dot, if it has one. -/
def splitName? (name : String) : Option (String × String) :=
  let reversed := name.toList.reverse
  match reversed.dropWhile (· != '.') with
  | [] => none
  | _ :: path =>
    some (String.ofList path.reverse, String.ofList (reversed.takeWhile (· != '.')).reverse)

/-- Adds a setting to the bodies of messages by path. A setting without a path is left out. -/
def addSetting (bodies : Table String (Table String Value)) (setting : String × Json) :
    Table String (Table String Value) :=
  match splitName? setting.1 with
  | some (path, key) =>
    Table.alter path (fun body => Table.put key (Value.ofJson setting.2) (body.getD [])) bodies
  | none => bodies

/-- The messages that bring settings to a device: one for each path, in order. -/
def messagesToSend (settings : List (String × Json)) : List Message :=
  (settings.foldl addSetting []).map fun (path, body) => ⟨path, none, body⟩

/-- An answer to an administrator: a status and a value. -/
structure Answer where
  status : Nat
  body : Json

def Answer.complaint (status : Nat) (text : String) : Answer :=
  ⟨status, .object [("error", .text text)]⟩

def version : String := "0.4.0"

/-- Says that the server runs. -/
def health : Answer := ⟨200, .object [("status", .text "ok"), ("version", .text version)]⟩

/-- Says that the server runs and how many clients are connected. -/
def status (connections : Nat) : Answer :=
  ⟨200, .object [("status", .text "ok"), ("version", .text version),
    ("active_connections", .int connections)]⟩

/-- Lists the clients that sent something and those that something was queued for. -/
def clients (g : Gateway) : Answer :=
  ⟨200, .object [("in", .array (g.store.senders.map .text)),
    ("out", .array (g.store.recipients.map .text))]⟩

/-- Shows the data received from a client. -/
def data (g : Gateway) (client : String) : Answer :=
  ⟨200, receivedToJson ((g.store.receivedFrom client).map Prod.snd)⟩

/-- Queues settings for a client. -/
def send (g : Gateway) (client : String) (settings : List (String × Json)) : Answer × Gateway :=
  let messages := messagesToSend settings
  if messages.isEmpty then (.complaint 400 "no setting with a path.key name", g)
  else
    (⟨202, .object [("queued", .int messages.length)]⟩,
      { g with store := g.store.enqueue client messages })

/-- Shows the profile of a client without its secrets. -/
def profile (g : Gateway) (client : String) : Answer :=
  match g.store.profile? client with
  | some p =>
    ⟨200, .object [("id", .text p.clientId), ("authentication", .text p.authentication.name),
      ("encryption", .text p.encryption.name), ("negotiated", .bool p.credential.isSome)]⟩
  | none => .complaint 404 "no security profile"

/-- What an administrator asks for in a profile. -/
structure Registration where
  authentication : Option String := none
  encryption : Option String := none
  password : Option String := none

/-- Why a registration is refused. -/
inductive RegistrationError where
  | profile (error : ProfileError)
  | passwordRequired
  | encryptionWithoutAuthentication
  deriving Repr, DecidableEq

def RegistrationError.message : RegistrationError → String
  | profile error => error.message
  | passwordRequired => "a password is required with authentication"
  | encryptionWithoutAuthentication => "encryption requires authentication"

/-- The profile that a registration asks for. -/
def Registration.profile (client : String) (r : Registration) :
    Except RegistrationError Profile := do
  let authentication ← (Authentication.parse (r.authentication.getD "none")).mapError .profile
  let encryption ← (Encryption.parse (r.encryption.getD "none")).mapError .profile
  let password := r.password.getD ""
  match authentication with
  | none =>
    if encryption.isSome then throw .encryptionWithoutAuthentication
    else return .unsecured client
  | some kind =>
    if password = "" then throw .passwordRequired
    else return .registered client (some kind) encryption password

/-- Registers a profile for a client. -/
def register (g : Gateway) (client : String) (r : Registration) : Answer × Gateway :=
  match r.profile client with
  | .error error => (.complaint 400 error.message, g)
  | .ok p =>
    (⟨201, .object [("id", .text client), ("authentication", .text p.authentication.name),
      ("encryption", .text p.encryption.name)]⟩, { g with store := g.store.addProfile p })

end Admin

end Telemetry
