import Telemetry.Gateway.Admin
import Telemetry.Gateway.MediaType
import Telemetry.Gateway.Target
import Telemetry.Json.Shape
/-!
# The administrators' interface over HTTP

    /health                   GET
    /status                   GET
    /clients                  GET
    /clients/‹id›/data        GET, POST
    /clients/‹id›/security    GET, POST

The client's name in a path is percent-encoded. What is posted has to be JSON and declared as such.
-/

namespace Telemetry

namespace Http

/-- A request to the interface. -/
structure Request where
  method : String
  /-- The path of its target. -/
  path : String
  contentType : Option String
  body : String

/-- Why parts do not make a request. -/
inductive RequestFault where
  /-- The method is no token. -/
  | method
  | target (fault : Target.Fault)
  /-- A control character stands in the content type. -/
  | contentType
  deriving Repr, DecidableEq

def RequestFault.message : RequestFault → String
  | method => "invalid HTTP method"
  | target fault => fault.message
  | contentType => "failed to parse header value"

/-- Whether a text is a method. -/
def isMethod (s : String) : Bool := !s.isEmpty && s.all MediaType.isTokenChar

/-- Whether a text may be the value of a header. -/
def isHeaderValue (s : String) : Bool := s.all fun c => c = '\t' || (' ' ≤ c && c ≠ '\x7f')

def Request.ofParts (method target : String) (contentType : Option String) (body : String) :
    Except RequestFault Request := do
  unless isMethod method do throw .method
  let path ← (Target.path target).mapError .target
  unless contentType.all isHeaderValue do throw .contentType
  return { method, path, contentType, body }

structure Response where
  status : Nat
  body : Option Json
  /-- The sites whose pages may read the response. -/
  allowOrigin : Option String

/-- What a path names. -/
inductive Resource where
  | health
  | status
  | clients
  /-- The data of a client; the name is missing when it is no text. -/
  | data (client : Option String)
  /-- The profile of a client; the name is missing when it is no text. -/
  | security (client : Option String)
  deriving Repr, DecidableEq

/-- The value of a hexadecimal digit in a byte. -/
def hexDigit? (byte : UInt8) : Option UInt8 :=
  (Text.hexDigit? (Char.ofNat byte.toNat)).map UInt8.ofNat

/-- Replaces percent signs and the two digits behind them; other percent signs stay. -/
def percentDecode : Bytes → Bytes
  | [] => []
  | 0x25 :: high :: low :: rest =>
    match hexDigit? high, hexDigit? low with
    | some h, some l => (h * 16 + l) :: percentDecode rest
    | _, _ => 0x25 :: percentDecode (high :: low :: rest)
  | byte :: rest => byte :: percentDecode rest
termination_by b => b.length

/-- The text that is percent-encoded in a segment of a path. -/
def decodeSegment (segment : String) : Option String :=
  Bytes.toString? (percentDecode (Bytes.ofString segment))

def resource? (path : String) : Option Resource :=
  match path.splitOn "/" with
  | ["", "health"] => some .health
  | ["", "status"] => some .status
  | ["", "clients"] => some .clients
  | ["", "clients", client, "data"] => some (.data (decodeSegment client))
  | ["", "clients", client, "security"] => some (.security (decodeSegment client))
  | _ => none

/-- Settings to be sent: a record with a list of names and values. -/
def settingsShape : Json.Shape (List (String × Json)) :=
  .record
    [.of "settings" false
      (.list (.record
        [.of "key" false .text fun (_, value) key => (key, value),
         .of "value" false .any fun (key, _) value => (key, value)] ("", .null)))
      fun _ settings => settings] []

/-- What is asked for in a profile: a record of optional texts. -/
def registrationShape : Json.Shape Admin.Registration :=
  .record
    [.of "authentication" true (.optional .text)
      fun r authentication => { r with authentication },
     .of "encryption" true (.optional .text) fun r encryption => { r with encryption },
     .of "password" true (.optional .text) fun r password => { r with password }] {}

/-- A response without body. -/
def bare (status : Nat) : Response := ⟨status, none, none⟩

def ofAnswer (a : Admin.Answer) : Response := ⟨a.status, some a.body, none⟩

/-- The status for a text that is not what it should be. -/
def faultStatus : Json.Fault → Nat
  | .malformed => 400
  | .wrongShape => 422

/-- The most bytes that may be posted. -/
def maxBody : Nat := 2 * 1024 * 1024

/-- Hands what was posted to `f`, if it is JSON of some shape. -/
def accept {α : Type} (shape : Json.Shape α) (r : Request) (g : Gateway)
    (f : α → Admin.Answer × Gateway) : Response × Gateway :=
  if !(r.contentType.map MediaType.isJson).getD false then (bare 415, g)
  else if maxBody < r.body.utf8ByteSize then (bare 413, g)
  else
    match Json.Shape.readStart shape r.body with
    | .ok a =>
      let (answer, g) := f a
      (ofAnswer answer, g)
    | .error fault => (bare (faultStatus fault), g)

/-- Handles a request for a resource. -/
def onResource (connections : Nat) (r : Request) (g : Gateway) : Resource → Response × Gateway
  | .health => if r.method = "GET" then (ofAnswer Admin.health, g) else (bare 405, g)
  | .status => if r.method = "GET" then (ofAnswer (Admin.status connections), g) else (bare 405, g)
  | .clients => if r.method = "GET" then (ofAnswer (Admin.clients g), g) else (bare 405, g)
  | .data client =>
    if r.method = "GET" ∨ r.method = "POST" then
      match client with
      | none => (bare 400, g)
      | some client =>
        if r.method = "GET" then (ofAnswer (Admin.data g client), g)
        else accept settingsShape r g (Admin.send g client)
    else (bare 405, g)
  | .security client =>
    if r.method = "GET" ∨ r.method = "POST" then
      match client with
      | none => (bare 400, g)
      | some client =>
        if r.method = "GET" then (ofAnswer (Admin.profile g client), g)
        else accept registrationShape r g (Admin.register g client)
    else (bare 405, g)

/-- Handles a request by its path. A question about the head of a resource is a question for the
resource whose answer is cut. -/
def route (connections : Nat) (r : Request) (g : Gateway) : Response × Gateway :=
  match resource? r.path with
  | none => (bare 404, g)
  | some resource =>
    if r.method = "HEAD" then
      let (response, g) := onResource connections { r with method := "GET" } g resource
      ({ response with body := none }, g)
    else onResource connections r g resource

/-- Handles a request. Where pages of other sites are allowed, they may ask for the rules, and every
response lets them read it. -/
def handle (connections : Nat) (r : Request) (g : Gateway) : Response × Gateway :=
  if g.allowsOrigins then
    if r.method = "OPTIONS" then ({ bare 200 with allowOrigin := some "*" }, g)
    else
      let (response, g) := route connections r g
      ({ response with allowOrigin := some "*" }, g)
  else route connections r g

end Http

end Telemetry
