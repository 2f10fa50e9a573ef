import Mathlib.Data.List.Induction
import Telemetry.Proofs.Store.Clients
import Telemetry.Store.ProfileFile
/-!
# The store keeps the latest envelopes of each client

Envelopes are handed in at any times, in any order and some at the same time, and whenever there are
too many of a client, the one with the earliest time is dropped. What is left in the end is what is
left when nothing is dropped before the end: of the table of all envelopes that were handed in for
the client, the entries with the greatest times.

The induction is on the operations from behind, so that its hypothesis speaks of the store before the
last one. It carries the table of the whole history along, of which the store has the end.
-/

namespace Telemetry

namespace Store

open Bysant (Message)

open Security (Profile)

variable {s : Store} {client : String} {n : Nat}

/-! ## Operations -/

/-- What is done to a store. What only reads it, as saving does, is left out. -/
inductive Operation where
  | receive (client : String) (time : Nat) (envelope : ReceivedEnvelope)
  | enqueue (client : String) (messages : List Message)
  | dequeue (client : String)
  | addProfile (profile : Profile)
  | setNonce (client nonce : String)
  | setPassword (client password : String)
  | load (file : Option ProfileFile)

namespace Operation

/-- The store after an operation. A file that cannot be loaded changes nothing. -/
def apply (s : Store) : Operation → Store
  | receive client time envelope => s.receive client time envelope
  | enqueue client messages => s.enqueue client messages
  | dequeue client => (s.dequeue client).2
  | addProfile profile => s.addProfile profile
  | setNonce client nonce => s.setNonce client nonce
  | setPassword client password => s.setPassword client password
  | load file =>
    match s.load file with
    | .ok (_, loaded) => loaded
    | .error _ => s

/-- The envelope that an operation hands in for a client, with its time. -/
def entryFor? (client : String) : Operation → Option (Nat × ReceivedEnvelope)
  | receive sender time envelope => if sender = client then some (time, envelope) else none
  | _ => none

end Operation

/-- What a store with room for `capacity` envelopes of each client comes to. -/
def afterAll (capacity : Nat) (operations : List Operation) : Store :=
  operations.foldl Operation.apply { capacity }

/-- What was handed in for a client, in order. -/
def handedIn (client : String) (operations : List Operation) : List (Nat × ReceivedEnvelope) :=
  operations.filterMap (Operation.entryFor? client)

/-- Operations that hand in nothing for a client add nothing to what was handed in. -/
theorem handedIn_filter (operations : List Operation) :
    handedIn client (operations.filter fun op => (op.entryFor? client).isSome) =
      handedIn client operations := by
  have same : (fun op : Operation => if (op.entryFor? client).isSome then op.entryFor? client
      else none) = Operation.entryFor? client := by
    funext op
    cases op.entryFor? client <;> rfl
  rw [handedIn, List.filterMap_filter, same, handedIn]

/-! ## One operation -/

/-- Profiles from a file come to the others; all else stays. -/
theorem load_spec {file : Option ProfileFile} {count : Nat} {loaded : Store}
    (loads : s.load file = .ok (count, loaded)) :
    loaded.capacity = s.capacity ∧ loaded.received = s.received := by
  have added (profiles : List Profile) (s : Store) :
      (profiles.foldl addProfile s).capacity = s.capacity ∧
        (profiles.foldl addProfile s).received = s.received := by
    induction profiles generalizing s with
    | nil => exact ⟨rfl, rfl⟩
    | cons p rest ih => exact ih (s.addProfile p)
  unfold load at loads
  split at loads
  · cases loads
    exact ⟨rfl, rfl⟩
  · cases loads
    exact ⟨rfl, rfl⟩
  · cases loads
  · split at loads
    · cases loads
      exact added _ s
    · cases loads

namespace Operation

variable {op : Operation}

/-- Room is never made or lost. -/
theorem capacity_apply (op : Operation) (s : Store) : (op.apply s).capacity = s.capacity := by
  cases op with
  | receive | enqueue | addProfile => rfl
  | dequeue client => exact capacity_dequeue s client
  | setNonce | setPassword => exact capacity_updateProfile
  | load file =>
    rw [apply]
    cases loads : s.load file with
    | ok loaded => exact (load_spec loads).1
    | error => rfl

/-- What is not handed in for a client leaves the envelopes of that client alone. -/
theorem receivedFrom_apply_of_none (nothing : op.entryFor? client = none) (s : Store) :
    (op.apply s).receivedFrom client = s.receivedFrom client := by
  cases op with
  | receive sender time envelope =>
    have other : client ≠ sender := by
      intro same
      simp [entryFor?, same] at nothing
    exact (spares_receive other time envelope).receivedFrom
  | enqueue | addProfile => rfl
  | dequeue sender => exact receivedFrom_congr (received_dequeue s sender) client
  | setNonce | setPassword => exact receivedFrom_congr received_updateProfile client
  | load file =>
    rw [apply]
    cases loads : s.load file with
    | ok loaded => exact receivedFrom_congr (load_spec loads).2 client
    | error => rfl

/-- What is handed in for a client is put among the others, of which the last ones are kept. -/
theorem receivedFrom_apply_of_some {entry : Nat × ReceivedEnvelope}
    (some : op.entryFor? client = some entry) (s : Store) :
    (op.apply s).receivedFrom client =
      lastEntries s.capacity (Table.put entry.1 entry.2 (s.receivedFrom client)) := by
  cases op with
  | receive sender time envelope =>
    rw [entryFor?] at some
    by_cases same : sender = client
    · rw [if_pos same] at some
      cases some
      subst same
      exact receivedFrom_receive time envelope
    · rw [if_neg same] at some
      cases some
  | enqueue | dequeue | addProfile | setNonce | setPassword | load => cases some

end Operation

/-! ## All operations -/

theorem afterAll_concat (operations : List Operation) (op : Operation) :
    afterAll n (operations ++ [op]) = op.apply (afterAll n operations) := by
  rw [afterAll, List.foldl_append, List.foldl_cons, List.foldl_nil]
  rfl

theorem capacity_afterAll (operations : List Operation) : (afterAll n operations).capacity = n := by
  induction operations using List.reverseRecOn with
  | nil => rfl
  | append_singleton operations op ih => rw [afterAll_concat, Operation.capacity_apply, ih]

/-- The end of the whole history is kept. -/
theorem receivedFrom_afterAll_eq (operations : List Operation) (client : String) :
    (afterAll n operations).receivedFrom client =
      lastEntries n (Table.ofList (handedIn client operations)) := by
  induction operations using List.reverseRecOn with
  | nil => exact (lastEntries_of_length_le (Nat.zero_le n)).symm
  | append_singleton operations op ih =>
    rw [afterAll_concat, handedIn, List.filterMap_append]
    cases entry : op.entryFor? client with
    | none =>
      have none : List.filterMap (Operation.entryFor? client) [op] = [] := by
        simp [entry]
      rw [Operation.receivedFrom_apply_of_none entry, ih, none, List.append_nil]
      rfl
    | some entry' =>
      have one : List.filterMap (Operation.entryFor? client) [op] = [entry'] := by
        simp [entry]
      rw [Operation.receivedFrom_apply_of_some entry, capacity_afterAll, ih,
        lastEntries_put_lastEntries n (Table.ordered_ofList _), one, Table.ofList_concat]
      rfl

/-! ## The greatest times -/

theorem ordered_lastEntries {α : Type} (n : Nat) {t : Table Nat α} (ordered : t.Ordered) :
    Table.Ordered (lastEntries n t) := by
  rw [Table.Ordered, Table.keys, lastEntries, List.map_drop]
  exact ordered.drop

/-- The entries of a table with its `n` greatest keys: those above which there are fewer than `n`. -/
def greatest {α : Type} (n : Nat) (t : Table Nat α) : Table Nat α :=
  t.filter fun entry => (Table.keys t).countP (entry.1 < ·) < n

/-- A first entry is among the greatest when there are too few others. -/
theorem greatest_cons {α : Type} {entry : Nat × α} {rest : Table Nat α}
    (first : ∀ key ∈ Table.keys rest, entry.1 < key) : greatest n (entry :: rest) =
      if rest.length < n then entry :: greatest n rest else greatest n rest := by
  -- above the first key are all others
  have above : (Table.keys (entry :: rest)).countP (entry.1 < ·) = rest.length := by
    rw [Table.keys, List.map_cons, List.countP_cons, List.countP_eq_length.mpr]
    · simp
    · intro key member
      exact decide_eq_true (first key member)
  -- above any other key are those that are above it without the first one
  have others : (rest.filter fun later =>
      (Table.keys (entry :: rest)).countP (later.1 < ·) < n) = greatest n rest := by
    apply List.filter_congr
    intro later member
    have before : ¬ later.1 < entry.1 :=
      Nat.not_lt_of_lt (first later.1 (List.mem_map_of_mem member))
    rw [Table.keys, List.map_cons, List.countP_cons]
    simp [before, Table.keys]
  unfold greatest at others ⊢
  rw [List.filter_cons, above, others]
  simp

/-- In a table in order, the entries with the greatest keys stand at the end. -/
theorem lastEntries_eq_greatest {α : Type} (n : Nat) {t : Table Nat α} (ordered : t.Ordered) :
    lastEntries n t = greatest n t := by
  induction t with
  | nil => exact lastEntries_of_length_le (Nat.zero_le n)
  | cons entry rest ih =>
    obtain ⟨first, others⟩ := List.pairwise_cons.mp ordered
    rw [greatest_cons first]
    by_cases room : rest.length < n
    · rw [if_pos room, lastEntries_of_length_le room, ← ih others,
        lastEntries_of_length_le (Nat.le_of_lt room)]
    · rw [if_neg room, lastEntries_cons_of_le (Nat.le_of_not_lt room), ih others]

/-- The envelopes that a store keeps of a client are those with the latest times, as many as it has
room for, of all that were ever handed in for the client, the last one of each time. They stand in
the order of their times, and nothing else that was done to the store has a part in them. -/
theorem receivedFrom_afterAll (capacity : Nat) (operations : List Operation) (client : String) :
    let entries := handedIn client operations
    let whole := Table.ofList entries
    let kept := (afterAll capacity operations).receivedFrom client
    kept = greatest capacity whole ∧ kept.length = min capacity whole.length ∧
      kept.Ordered ∧ whole.Ordered ∧
      (∀ time, Table.get? time whole =
        ((entries.filter (·.1 = time)).getLast?).map Prod.snd) ∧
      kept = (afterAll capacity
        (operations.filter fun op => (op.entryFor? client).isSome)).receivedFrom client := by
  intro entries whole kept
  have ordered : whole.Ordered := Table.ordered_ofList entries
  have last : kept = lastEntries capacity whole := receivedFrom_afterAll_eq operations client
  refine ⟨last.trans (lastEntries_eq_greatest capacity ordered), ?_, ?_, ordered,
    fun time => Table.get?_ofList time entries, ?_⟩
  · rw [last, length_lastEntries]
  · rw [last]
    exact ordered_lastEntries capacity ordered
  · rw [receivedFrom_afterAll_eq, handedIn_filter]
    exact last

/-- A late envelope does not come back, and one at a time that is kept takes the place of the old. -/
example :
    let report (client : String) (time : Nat) (date : Int64) :=
      Operation.receive client time ⟨date, []⟩
    let operations := [report "dev" 10 1, report "dev" 30 2, report "pump" 90 3, report "dev" 20 4,
      .enqueue "dev" [], report "dev" 10 5, report "dev" 20 6]
    ((afterAll 2 operations).receivedFrom "dev").map (fun entry => (entry.1, entry.2.time)) =
      [(20, 6), (30, 2)] := by
  decide

end Store

end Telemetry
