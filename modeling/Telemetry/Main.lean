import Std.Time.DateTime.Timestamp
import Telemetry.Command
import Telemetry.Gateway.Line
import Telemetry.Store.ProfileFile
/-!
# The program

Runs a command with its peer on standard input and output, as a program that accepts connections
starts it. What it has to say to people goes to standard error.
-/

namespace Telemetry.Main

/-- As many random bytes as a chunk of input can use up. -/
def drawEntropy : IO Security.Entropy := do
  let size : Nat := 64 * 1024
  let block ← IO.getRandomBytes (USize.ofNat size)
  return { stream := fun i => block.get! (i % size) }

def clock : IO Int64 :=
  return .ofInt (← Std.Time.Timestamp.now).toMillisecondsSinceUnixEpoch.toInt

/-- Writes an envelope to the peer. -/
def write (output : IO.FS.Stream) (e : Bysant.Envelope) : IO Unit := do
  output.write (ByteArray.mk e.encode.toArray)
  output.flush

/-- The next bytes from the peer; none at the end. -/
def read (input : IO.FS.Stream) : IO Bytes :=
  return (← input.read (USize.ofNat Gateway.chunkSize)).toList

/-- Serves a connection until one side closes it. -/
partial def serve (input output : IO.FS.Stream) (c : Connection) (g : Gateway) : IO Gateway := do
  let chunk ← read input
  if chunk.isEmpty then
    match c.onEnd.1 with
    | .ok () => pure ()
    | .error e => IO.eprintln ("connection closed mid-envelope: " ++ e.message)
    return g
  else
    let g := { g with entropy := ← drawEntropy, clock := ← clock }
    let (reaction, c, g) := c.onBytes chunk g
    reaction.writes.forM (write output)
    if reaction.close then return g else serve input output c g

/-- The variables of the environment that override settings. -/
def readEnvironment : IO (List (String × String)) :=
  ["M3DA_TCP_PORT", "M3DA_API_PORT", "PORT", "M3DA_MAX_MESSAGES", "M3DA_SECURITY_FILE",
    "M3DA_HOST"].filterMapM fun name => return (← IO.getEnv name).map fun value => (name, value)

/-- What is found under the path of the profiles. -/
def findProfiles (path : String) : IO Store.ProfileFile := do
  try
    return .text (← IO.FS.readFile path)
  catch
    | .noFileOrDirectory .. => return .missing
    | _ => return .directory

def complain {α : Type} (text : String) : IO α := throw (IO.userError text)

def runServer (options : ServerOptions) : IO Unit := do
  let settings ← match options.settingsPath with
    | none => pure {}
    | some path =>
      match Settings.parse (← IO.FS.readFile path) with
      | .ok settings => pure settings
      | .error e => complain ("Config error: " ++ e.message)
  let environment ← readEnvironment
  let settings := settings.override fun name => environment.lookup name
  let service ← match Command.service options settings with
    | .ok service => pure service
    | .error e => complain ("Config error: " ++ e.message)
  let file? ← service.profilePath.mapM findProfiles
  let store : Store := { capacity := service.capacity.toNat }
  let store ← match store.load file? with
    | .ok (_, store) => pure store
    | .error _ => complain "the security profiles cannot be read"
  let g : Gateway :=
    { store
      entropy := ← drawEntropy
      attemptLimit := service.attemptLimit.toNat
      clock := ← clock
      allowsOrigins := service.allowsOrigins }
  let g ← serve (← IO.getStdin) (← IO.getStdout) {} g
  match service.profilePath, g.store.save file? with
  | some path, .ok (some (.text content)) => IO.FS.writeFile path content
  | _, .ok _ => pure ()
  | _, .error _ => complain "the security profiles cannot be written"

/-- The bytes of a reply up to its first envelope, in pieces, and whether the peer closed. -/
partial def hear (input : IO.FS.Stream) (pieces : List Bytes) (d : Bysant.EnvelopeDecoder) :
    IO Heard := do
  let piece ← read input
  if piece.isEmpty then return .reply pieces.reverse true
  else
    match d.feed piece with
    | (d, [], .ok ()) => hear input (piece :: pieces) d
    | _ => return .reply (piece :: pieces).reverse false

/-- Sends a message, once more if the server gives a new nonce for it. -/
def runSend (client : Client) (message : Bysant.Message) : IO Unit := do
  let exchange (client : Client) : IO (Except ClientError (List Bysant.Value) × Client) := do
    match client.request [message] (← drawEntropy) with
    | (.error e, _) => return (.error (.device e), client)
    | (.ok (e, nonce), _) =>
      write (← IO.getStdout) e
      return client.conclude nonce (← hear (← IO.getStdin) [] .new)
  let (result, client) ← exchange client
  let (result, _) ← if client.isChallenged result then exchange client else pure (result, client)
  match result with
  | .ok units => (Command.report units).forM fun line => IO.eprintln line
  | .error e => complain ("Client error: " ++ e.message)

end Telemetry.Main

def main (args : List String) : IO Unit :=
  match Telemetry.Command.parse args with
  | .ok (.server options) => Telemetry.Main.runServer options
  | .ok (.send client message) => Telemetry.Main.runSend client message
  | .error e => throw (IO.userError e.message)
