import Telemetry.Security.Profile
import Telemetry.Store.Ingest
/-!
# The store

What the server keeps: the last envelopes received from each client, the messages queued for each
client, and the security profiles. Each client's envelopes are kept in the order of their times of
reception, and only so many of them.
-/

namespace Telemetry

open Security (Profile)

open Store (ReceivedEnvelope)

/-- What the server keeps. -/
structure Store where
  /-- How many envelopes are kept for each client. -/
  capacity : Nat
  /-- Envelopes by client and time of reception. -/
  received : Table String (Table Nat ReceivedEnvelope) := []
  /-- Messages that wait for each client. A client stays here once it was sent something. -/
  outgoing : Table String (List Bysant.Message) := []
  profiles : Table String Profile := []

namespace Store

/-- The last `n` entries of a table. -/
def lastEntries {α : Type} (n : Nat) (entries : List α) : List α :=
  entries.drop (entries.length - n)

/-- Keeps an envelope received from a client at a time, and drops the oldest above capacity. -/
def receive (s : Store) (client : String) (time : Nat) (envelope : ReceivedEnvelope) : Store :=
  { s with
    received := Table.alter client
      (fun kept => lastEntries s.capacity (Table.put time envelope (kept.getD []))) s.received }

/-- The envelopes kept for a client, oldest first. -/
def receivedFrom (s : Store) (client : String) : Table Nat ReceivedEnvelope :=
  (Table.get? client s.received).getD []

def enqueue (s : Store) (client : String) (messages : List Bysant.Message) : Store :=
  { s with outgoing := Table.alter client (fun queue => queue.getD [] ++ messages) s.outgoing }

/-- The messages queued for a client, if anything ever was. -/
def queued? (s : Store) (client : String) : Option (List Bysant.Message) :=
  Table.get? client s.outgoing

/-- Takes the messages queued for a client. -/
def dequeue (s : Store) (client : String) : Option (List Bysant.Message) × Store :=
  match s.queued? client with
  | some messages => (some messages, { s with outgoing := Table.put client [] s.outgoing })
  | none => (none, s)

/-- The clients that sent something. -/
def senders (s : Store) : List String := Table.keys s.received

/-- The clients that something was queued for. -/
def recipients (s : Store) : List String := Table.keys s.outgoing

def profile? (s : Store) (client : String) : Option Profile := Table.get? client s.profiles

/-- Adds a profile, in place of the client's old one. -/
def addProfile (s : Store) (p : Profile) : Store :=
  { s with profiles := Table.put p.clientId p s.profiles }

/-- Changes the profile of a client that has one. -/
def updateProfile (s : Store) (client : String) (f : Profile → Profile) : Store :=
  match s.profile? client with
  | some p => { s with profiles := Table.put client (f p) s.profiles }
  | none => s

/-- Remembers the nonce that a client was given. -/
def setNonce (s : Store) (client nonce : String) : Store :=
  s.updateProfile client fun p => { p with nonce }

/-- Remembers the working password of a client. -/
def setPassword (s : Store) (client password : String) : Store :=
  s.updateProfile client fun p => { p with password := some password }

end Store

end Telemetry
