import Telemetry.Device.Client
import Telemetry.Gateway.Connection
/-!
# The line to a gateway

A client that is connected to a gateway hears the envelopes that a new connection sends back for
its request.
-/

namespace Telemetry

namespace Gateway

/-- How many bytes a connection takes in at once. -/
def chunkSize : Nat := 8192

/-- What a new connection answers to bytes. -/
def answerTo (request : Bytes) (g : Gateway) : Reaction × Gateway :=
  let (reaction, _, g) := Connection.run (request.chunks chunkSize) {} g
  (reaction, g)

/-- The line to a gateway. -/
def line : Line Gateway := fun request g =>
  let (reaction, g) := g.answerTo request
  (.reply (reaction.writes.map Bysant.Envelope.encode) reaction.close, g)

end Gateway

end Telemetry
