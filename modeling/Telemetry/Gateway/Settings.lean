import Telemetry.Json.Basic
import Telemetry.Net.Address
import Telemetry.Text.Quoted
import Telemetry.Toml.Document
/-!
# Settings

What an operator sets: in a TOML file, then in the environment, which wins. A service runs on
settings whose host is an address and that let it keep at least one message.
-/

namespace Telemetry

/-- What the `server` table of a settings file holds. -/
structure Settings where
  host : String := "127.0.0.1"
  tcpPort : UInt16 := 44900
  apiPort : UInt16 := 8080
  /-- Seconds after which a silent connection is closed. -/
  idleTimeout : UInt64 := 30
  /-- How many failed authentications in a row close a connection. -/
  attemptLimit : UInt32 := 3
  /-- How many received envelopes are kept for a client. -/
  capacity : UInt64 := 10
  /-- The path of the file of security profiles. -/
  profilePath : Option String := none
  /-- Seconds between two times the profiles are saved. -/
  flushInterval : UInt64 := 300
  /-- Whether browsers on other sites may use the administrators' interface. -/
  allowsOrigins : Bool := true
  deriving Repr, DecidableEq

/-- Why there are no settings to run on. -/
inductive SettingsError where
  /-- The file is no TOML, or a setting has a value of the wrong kind or out of range. -/
  | malformed
  /-- The host is no internet address. -/
  | badHost (host : String)
  /-- No message would be kept. -/
  | noCapacity
  deriving Repr, DecidableEq

def SettingsError.message : SettingsError → String
  | malformed => "Failed to parse config"
  | badHost host => "Invalid host " ++ Text.quote host ++ ": invalid IP address syntax"
  | noCapacity => "max_messages must be at least 1"

namespace Settings

/-- A natural number below a bound. -/
def wordOf? (bound : Nat) : Toml.Value → Option Nat
  | .int value => if 0 ≤ value ∧ value.toNat < bound then some value.toNat else none
  | _ => none

def textOf? : Toml.Value → Option String
  | .text value => some value
  | _ => none

def boolOf? : Toml.Value → Option Bool
  | .bool value => some value
  | _ => none

/-- The settings by name, in their order. -/
def fields : List (String × (Toml.Value → Settings → Option Settings)) :=
  [("host", fun value s => (textOf? value).map fun host => { s with host }),
    ("tcp_port", fun value s => (wordOf? UInt16.size value).map fun port =>
      { s with tcpPort := UInt16.ofNat port }),
    ("api_port", fun value s => (wordOf? UInt16.size value).map fun port =>
      { s with apiPort := UInt16.ofNat port }),
    ("idle_timeout_secs", fun value s => (wordOf? UInt64.size value).map fun seconds =>
      { s with idleTimeout := UInt64.ofNat seconds }),
    ("max_auth_attempts", fun value s => (wordOf? UInt32.size value).map fun limit =>
      { s with attemptLimit := UInt32.ofNat limit }),
    ("max_messages", fun value s => (wordOf? UInt64.size value).map fun capacity =>
      { s with capacity := UInt64.ofNat capacity }),
    ("security_file", fun value s => (textOf? value).map fun path =>
      { s with profilePath := some path }),
    ("flush_interval_secs", fun value s => (wordOf? UInt64.size value).map fun seconds =>
      { s with flushInterval := UInt64.ofNat seconds }),
    ("cors", fun value s => (boolOf? value).map fun allowsOrigins => { s with allowsOrigins })]

/-- Takes a setting in. One that there is not is skipped. -/
def take (s : Settings) (entry : String × Toml.Value) : Option Settings :=
  match fields.lookup entry.1 with
  | some read => read entry.2 s
  | none => some s

/-- The settings of a table, or of an array in their order. A date counts as a table without
settings. -/
def ofValue? : Toml.Value → Option Settings
  | .table _ entries => entries.foldlM take {}
  | .dateTime => some {}
  | .array items => ((fields.map (·.1)).zip items).foldlM take {}
  | _ => none

def parse (s : String) : Except SettingsError Settings :=
  let settings? := do
    match (← Toml.parse? s).get? "server" with
    | some value => ofValue? value
    | none => some {}
  match settings? with
  | some settings => .ok settings
  | none => .error .malformed

/-- A natural number below a bound, in decimal. A plus sign and zeros may stand in front. -/
def wordOfText? (bound : Nat) (s : String) : Option Nat := do
  let digits := match s.toList with
    | '+' :: rest => rest
    | cs => cs
  if digits.isEmpty then none
  else
    let value ← Toml.valueOf? Toml.decimalDigit? 10 digits
    if value < bound then return value else none

/-- Overrides settings by variables of the environment. Those that do not read as a number count as
not set where a number is wanted; so do empty texts where a text is wanted. -/
def override (lookup? : String → Option String) (s : Settings) : Settings :=
  let word? (bound : Nat) (name : String) : Option Nat := lookup? name >>= wordOfText? bound
  let text? (name : String) : Option String := (lookup? name).filter fun text => !text.isEmpty
  let apiPort? := word? UInt16.size "M3DA_API_PORT" <|> word? UInt16.size "PORT"
  { s with
    tcpPort := ((word? UInt16.size "M3DA_TCP_PORT").map UInt16.ofNat).getD s.tcpPort
    apiPort := (apiPort?.map UInt16.ofNat).getD s.apiPort
    capacity := ((word? UInt64.size "M3DA_MAX_MESSAGES").map UInt64.ofNat).getD s.capacity
    profilePath := text? "M3DA_SECURITY_FILE" <|> s.profilePath
    host := (text? "M3DA_HOST").getD s.host }

def toJson (s : Settings) : Json :=
  .object [("server", .object [("host", .text s.host), ("tcp_port", .int s.tcpPort.toNat),
    ("api_port", .int s.apiPort.toNat), ("idle_timeout_secs", .int s.idleTimeout.toNat),
    ("max_auth_attempts", .int s.attemptLimit.toNat), ("max_messages", .int s.capacity.toNat),
    ("security_file", (s.profilePath.map Json.text).getD .null),
    ("flush_interval_secs", .int s.flushInterval.toNat), ("cors", .bool s.allowsOrigins)])]

end Settings

/-- What a service runs on. -/
structure Service where
  /-- Where devices connect. -/
  devices : Net.SocketAddress
  /-- Where administrators connect. -/
  administrators : Net.SocketAddress
  idleTimeout : UInt64
  attemptLimit : UInt32
  capacity : UInt64
  profilePath : Option String
  /-- At least one second. -/
  flushInterval : UInt64
  allowsOrigins : Bool
  deriving Repr, DecidableEq

namespace Service

/-- The service that settings ask for. -/
def ofSettings (s : Settings) : Except SettingsError Service :=
  match Net.IpAddress.parse? s.host with
  | none => .error (.badHost s.host)
  | some ip =>
    if s.capacity = 0 then .error .noCapacity
    else
      .ok
        { devices := ⟨ip, s.tcpPort⟩
          administrators := ⟨ip, s.apiPort⟩
          idleTimeout := s.idleTimeout
          attemptLimit := s.attemptLimit
          capacity := s.capacity
          profilePath := s.profilePath
          flushInterval := max s.flushInterval 1
          allowsOrigins := s.allowsOrigins }

def withTcpPort (port : UInt16) (service : Service) : Service :=
  { service with devices := { service.devices with port } }

def withApiPort (port : UInt16) (service : Service) : Service :=
  { service with administrators := { service.administrators with port } }

/-- Listens on all interfaces. -/
def bindAll (service : Service) : Service :=
  { service with
    devices := { service.devices with ip := .any }
    administrators := { service.administrators with ip := .any } }

def toJson (service : Service) : Json :=
  .object [("tcp_addr", .text service.devices.text),
    ("api_addr", .text service.administrators.text),
    ("idle_timeout_secs", .int service.idleTimeout.toNat),
    ("max_auth_attempts", .int service.attemptLimit.toNat),
    ("max_messages", .int service.capacity.toNat),
    ("security_file", (service.profilePath.map Json.text).getD .null),
    ("flush_secs", .int service.flushInterval.toNat), ("cors", .bool service.allowsOrigins)]

end Service

end Telemetry
