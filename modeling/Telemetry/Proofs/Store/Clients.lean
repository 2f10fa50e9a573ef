import Telemetry.Proofs.Store.Profiles
/-!
# What the store keeps of each client

Every operation of the store is about one client. What is kept of any other one, the data received
from it, the messages that wait for it and its profile, stays as it is. Messages wait for a client in
the order in which they were queued, until all of them are taken at once.
-/

namespace Telemetry.Store

open Security (Profile)

variable {s s' s'' : Store} {client other : String}

/-- What is kept of a client is the same in both stores. -/
structure Spares (s : Store) (client : String) (s' : Store) : Prop where
  received : Table.get? client s'.received = Table.get? client s.received
  queued : s'.queued? client = s.queued? client
  profile : s'.profile? client = s.profile? client

theorem Spares.refl (s : Store) (client : String) : s.Spares client s := ⟨rfl, rfl, rfl⟩

theorem Spares.trans (first : s.Spares client s') (second : s'.Spares client s'') :
    s.Spares client s'' :=
  ⟨second.received.trans first.received, second.queued.trans first.queued,
    second.profile.trans first.profile⟩

/-! ## Other clients -/

theorem spares_receive (different : other ≠ client) (time : Nat) (envelope : ReceivedEnvelope) :
    s.Spares other (s.receive client time envelope) :=
  ⟨Table.get?_put_of_ne different.symm, rfl, rfl⟩

theorem spares_dequeue (different : other ≠ client) : s.Spares other (s.dequeue client).2 := by
  unfold dequeue
  split
  · exact ⟨rfl, Table.get?_put_of_ne different.symm, rfl⟩
  · exact Spares.refl s other

theorem spares_updateProfile (different : other ≠ client) (f : Profile → Profile) :
    s.Spares other (s.updateProfile client f) where
  received := by rw [received_updateProfile]
  queued := by rw [queued?, outgoing_updateProfile, queued?]
  profile := by simp only [profile?_updateProfile, different, if_false, Option.map_id']

/-! ## Received data -/

theorem Spares.receivedFrom (h : s.Spares client s') :
    s'.receivedFrom client = s.receivedFrom client := by
  rw [Store.receivedFrom, h.received, Store.receivedFrom]

theorem receivedFrom_congr (same : s'.received = s.received) (client : String) :
    s'.receivedFrom client = s.receivedFrom client := by
  rw [receivedFrom, same, receivedFrom]

/-- An envelope is kept with the others of its client. -/
theorem receivedFrom_receive (time : Nat) (envelope : ReceivedEnvelope) :
    (s.receive client time envelope).receivedFrom client =
      lastEntries s.capacity (Table.put time envelope (s.receivedFrom client)) := by
  unfold receivedFrom receive Table.alter
  rw [Table.get?_put_self, Option.getD_some]

theorem length_lastEntries {α : Type} (n : Nat) (entries : List α) :
    (lastEntries n entries).length = min n entries.length := by
  rw [lastEntries, List.length_drop]
  omega

theorem lastEntries_cons_of_le {α : Type} {n : Nat} {entries : List α} (full : n ≤ entries.length)
    (entry : α) : lastEntries n (entry :: entries) = lastEntries n entries := by
  have parts : (entry :: entries).length - n = entries.length - n + 1 := by
    rw [List.length_cons]
    omega
  rw [lastEntries, parts, List.drop_succ_cons, lastEntries]

theorem lastEntries_of_length_le {α : Type} {n : Nat} {entries : List α}
    (few : entries.length ≤ n) : lastEntries n entries = entries := by
  rw [lastEntries, Nat.sub_eq_zero_of_le few, List.drop_zero]

/-- Entries that were dropped would be dropped again behind any other one: whatever is added to the
last entries, the last ones are then those that they would be if nothing had been dropped. -/
theorem lastEntries_put_lastEntries {α : Type} (n : Nat) {t : Table Nat α} (ordered : t.Ordered)
    (key : Nat) (value : α) : lastEntries n (Table.put key value (lastEntries n t)) =
      lastEntries n (Table.put key value t) := by
  induction t with
  | nil =>
    have none : lastEntries n ([] : Table Nat α) = [] := lastEntries_of_length_le (Nat.zero_le n)
    rw [none]
  | cons entry rest ih =>
    obtain ⟨first, others⟩ := List.pairwise_cons.mp ordered
    by_cases full : n ≤ rest.length
    · have front (before : key ≤ entry.1) : Table.put key value rest = (key, value) :: rest :=
        Table.put_of_forall_gt fun k member => Nat.lt_of_le_of_lt before (first k member)
      -- the first entry is dropped on both sides, and so is a new one in front of it
      rw [lastEntries_cons_of_le full, ih others]
      conv => rhs; rw [Table.put]
      split
      · rename_i before
        rw [front (Nat.le_of_lt before), lastEntries_cons_of_le full,
          lastEntries_cons_of_le (Nat.le_succ_of_le full), lastEntries_cons_of_le full]
      · split
        · rename_i same
          rw [front (Nat.le_of_eq same.symm)]
        · rw [lastEntries_cons_of_le (Nat.le_trans full Table.length_le_put)]
    · have few : (entry :: rest).length ≤ n := by
        rw [List.length_cons]
        omega
      rw [lastEntries_of_length_le few]

/-! ## Messages that wait -/

/-- The messages that wait for a client, in the order in which they were queued. -/
def waiting (s : Store) (client : String) : List Bysant.Message := (s.queued? client).getD []

theorem waiting_congr (same : s'.outgoing = s.outgoing) (client : String) :
    s'.waiting client = s.waiting client := by
  rw [waiting, queued?, same, waiting, queued?]

theorem Spares.waiting (h : s.Spares client s') : s'.waiting client = s.waiting client := by
  rw [Store.waiting, h.queued, Store.waiting]

/-- What is queued for a client waits behind what already does. -/
theorem waiting_enqueue (messages : List Bysant.Message) :
    (s.enqueue client messages).waiting other =
      s.waiting other ++ if other = client then messages else [] := by
  unfold waiting queued? enqueue Table.alter
  by_cases same : other = client
  · rw [if_pos same, same, Table.get?_put_self, Option.getD_some]
  · rw [if_neg same, List.append_nil, Table.get?_put_of_ne (Ne.symm same)]

/-- Nothing waits for a client any more whose messages were taken. -/
theorem waiting_dequeue : (s.dequeue client).2.waiting client = [] := by
  unfold dequeue
  cases queued : s.queued? client with
  | none =>
    show (s.queued? client).getD [] = []
    rw [queued, Option.getD_none]
  | some messages =>
    show (Table.get? client (Table.put client [] s.outgoing)).getD [] = []
    rw [Table.get?_put_self, Option.getD_some]

end Telemetry.Store
