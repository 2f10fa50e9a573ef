import Telemetry.Bysant.Json
import Telemetry.Device.Client
import Telemetry.Gateway.Settings
import Telemetry.Json.Shape
/-!
# The command line

    server [--config FILE] [--tcp-port PORT] [--api-port PORT] [--security-file FILE] [--bind-all]
    send --id ID --path PATH --key KEY --value VALUE [--auth KIND] [--encryption CIPHER]
         [--password PASSWORD]

The server serves a connection. A sender reports one value, as a device would, and shows what the
server answers.
-/

namespace Telemetry

open Bysant (Message Value)

open Security (Authentication Encryption ProfileError)

/-- Why a command line is not understood. -/
inductive CommandError where
  | noCommand
  | unknownOption (name : String)
  | missingOption (name : String)
  | badPort (name value : String)
  | profile (error : ProfileError)
  | passwordRequired (authentication : Authentication)
  deriving Repr, DecidableEq

def CommandError.message : CommandError → String
  | noCommand => "expected a command: server or send"
  | unknownOption name => "unexpected argument " ++ name
  | missingOption name => name ++ " is required"
  | badPort name value => "invalid value " ++ value ++ " for " ++ name
  | profile error => error.message
  | passwordRequired authentication =>
    "--password is required with --auth " ++ Authentication.name authentication

/-- What a server is asked to do. -/
structure ServerOptions where
  settingsPath : Option String
  tcpPort : Option UInt16
  apiPort : Option UInt16
  profilePath : Option String
  bindAll : Bool

/-- What a command line asks for. -/
inductive Command where
  | server (options : ServerOptions)
  /-- Send a message as a client. -/
  | send (client : Client) (message : Message)

namespace Command

/-- Options that take a value, and those that do not. -/
structure Arguments where
  values : List (String × String) := []
  flags : List String := []

/-- Reads options of the given names. -/
def readArguments (valued flags : List String) : List String → Except CommandError Arguments
  | [] => .ok {}
  | [name] =>
    if name ∈ flags then .ok { flags := [name] }
    else if name ∈ valued then .error (.missingOption ("a value for " ++ name))
    else .error (.unknownOption name)
  | name :: value :: rest => do
    if name ∈ flags then
      let arguments ← readArguments valued flags (value :: rest)
      return { arguments with flags := name :: arguments.flags }
    else if name ∈ valued then
      let arguments ← readArguments valued flags rest
      return { arguments with values := (name, value) :: arguments.values }
    else throw (.unknownOption name)

/-- The value of an option that has to be there. -/
def Arguments.require (arguments : Arguments) (name : String) : Except CommandError String :=
  match arguments.values.lookup name with
  | some value => .ok value
  | none => .error (.missingOption name)

/-- The port that an option gives. -/
def Arguments.port? (arguments : Arguments) (name : String) :
    Except CommandError (Option UInt16) :=
  match arguments.values.lookup name with
  | none => .ok none
  | some value =>
    match Settings.wordOfText? UInt16.size value with
    | some port => .ok (some (UInt16.ofNat port))
    | none => .error (.badPort name value)

def readServer (args : List String) : Except CommandError Command := do
  let arguments ← readArguments ["--config", "--tcp-port", "--api-port", "--security-file"]
    ["--bind-all"] args
  return .server
    { settingsPath := arguments.values.lookup "--config"
      tcpPort := ← arguments.port? "--tcp-port"
      apiPort := ← arguments.port? "--api-port"
      profilePath := arguments.values.lookup "--security-file"
      bindAll := arguments.flags.contains "--bind-all" }

/-- The value that a text stands for: JSON, or the text itself. -/
def valueOf (text : String) : Value := Value.ofJson ((Json.parse? text).getD (.text text))

def readSend (args : List String) : Except CommandError Command := do
  let arguments ← readArguments
    ["--id", "--path", "--key", "--value", "--auth", "--encryption", "--password"] [] args
  let id ← arguments.require "--id"
  let message := (Message.ofPath (← arguments.require "--path")).insert
    (← arguments.require "--key") (valueOf (← arguments.require "--value"))
  let name (option : String) : String := (arguments.values.lookup option).getD "none"
  let authentication ← (Authentication.parse (name "--auth")).mapError .profile
  let encryption ← (Encryption.parse (name "--encryption")).mapError .profile
  if authentication.isNone then return .send { clientId := id } message
  else
    match arguments.values.lookup "--password" with
    | none => throw (.passwordRequired authentication)
    | some password =>
      return .send (.ofCredentials (.ofPassword id authentication encryption password)) message

def parse : List String → Except CommandError Command
  | "server" :: args => readServer args
  | "send" :: args => readSend args
  | _ => .error .noCommand

/-- The service that a server's options ask for, on settings from a file and the environment. -/
def service (options : ServerOptions) (settings : Settings) :
    Except SettingsError Service := do
  let service ← Service.ofSettings settings
  let service := (options.tcpPort.map (Service.withTcpPort · service)).getD service
  let service := (options.apiPort.map (Service.withApiPort · service)).getD service
  let service := { service with profilePath := options.profilePath <|> service.profilePath }
  return if options.bindAll then service.bindAll else service

def lineOf : Value → String
  | .message m =>
    let body := Json.object (m.body.map fun (key, value) => (key, value.toJson))
    "message " ++ m.path ++ " " ++ body.compact
  | .response r =>
    "response ticket=" ++ toString r.ticket.toNat ++ " status=" ++ toString r.status.toInt ++ " " ++
      r.message
  | _ => "nested envelope"

/-- The lines about an answer. -/
def report (units : List Value) : List String :=
  ("OK, " ++ toString units.length ++ " PDU(s) received") :: units.map lineOf

end Command

end Telemetry
