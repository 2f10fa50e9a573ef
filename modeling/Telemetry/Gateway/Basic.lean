import Telemetry.Security.CryptoError
import Telemetry.Security.Entropy
import Telemetry.Store.Basic
/-!
# The gateway

What all connections and the administrators share: the store, the clock, the source of random bytes
and the rules of the house.
-/

namespace Telemetry

open Security (Entropy)

/-- Where new working passwords come from. -/
inductive PasswordSource where
  /-- Random text of 32 characters. -/
  | random
  /-- A list, of which the next one is taken from the front and goes to the end. -/
  | listed (first : String) (rest : List String)

/-- What connections and administrators share. -/
structure Gateway where
  store : Store
  entropy : Entropy
  passwords : PasswordSource := .random
  /-- How many failed authentications in a row close a connection; zero counts as one. -/
  attemptLimit : Nat := 3
  /-- The time of day, in milliseconds since the epoch. -/
  clock : Int64
  /-- The time of the last reception, in nanoseconds. -/
  lastReception : Nat := 0
  /-- Whether browsers on other sites may use the administrators' interface. -/
  allowsOrigins : Bool := true

namespace Gateway

/-- The name that the server uses as its user name in checksums. -/
def serverName : String := "AIRVANTAGE"

def drawNonce (g : Gateway) : String × Gateway :=
  let (nonce, entropy) := g.entropy.drawNonce
  (nonce, { g with entropy })

def drawKeyPair (g : Gateway) : Security.KeyPair × Gateway :=
  let (pair, entropy) := g.entropy.drawKeyPair
  (pair, { g with entropy })

/-- Takes a new working password. -/
def drawPassword (g : Gateway) : String × Gateway :=
  match g.passwords with
  | .random =>
    let (password, entropy) := g.entropy.drawHex 16
    (password, { g with entropy })
  | .listed first [] => (first, g)
  | .listed first (next :: rest) => (first, { g with passwords := .listed next (rest ++ [first]) })

/-- The time of day in nanoseconds since the epoch, which signed words of 64 bits hold up to the
year 2262. Times that they do not hold, and those before the epoch, count as the epoch. -/
def nanoseconds (g : Gateway) : Nat :=
  let time := g.clock.toInt * 1000000
  if 0 ≤ time ∧ time ≤ Int64.maxValue.toInt then time.toNat else 0

/-- A time of reception in nanoseconds: the time of day, but later than all before. -/
def nextReception (g : Gateway) : Nat × Gateway :=
  let time := max g.nanoseconds (g.lastReception + 1)
  (time, { g with lastReception := time })

end Gateway

end Telemetry
