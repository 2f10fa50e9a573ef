import Telemetry.Proofs.Gateway.Reception
/-!
# The store keeps the most recent envelopes

Any number of connections are fed chunks at the same time, while the clock shows whatever it likes.
The times of reception are drawn one after the other, each later than all before, but the records
may be kept in another order, as a connection may be held up in between. All the same, what is kept
of a client is the end of what was accepted from it, in the order of the times.

What carries this is that a record that comes late is put where it belongs among the others, and
that dropping the oldest ones early or late makes no difference.
-/

namespace Telemetry

open Bysant (Envelope Value)

open Connection (decode handleAll)

open Store (ReceivedEnvelope lastEntries)

variable {g g' g₀ : Gateway} {c : Connection} {log stored front back : List Reception}
  {r : Reception} {client : String} {n : Nat}

/-! ## Connections at work -/

/-- A connection at work: what is underway, and the envelopes that are still to be handled of the
chunk that it was fed. -/
structure Worker where
  connection : Connection := {}
  underway : Option Underway := none
  rest : List Envelope := []

namespace Worker

/-- The reception whose time is drawn and whose record is not kept yet. -/
def pending (w : Worker) : List Reception := (w.underway.map Underway.reception).toList

/-- A connection that has handled an envelope goes on with the next one, unless it closes. -/
def settle (c : Connection) (rest : List Envelope) (handled : Handled) : Worker :=
  ⟨{ c with session := handled.session }, none, if handled.reaction.close then [] else rest⟩

/-- What a connection does at once, and the reception whose time it draws, if any. The date of a
record and the time of its reception come from two readings of the clock. -/
inductive Step : Worker → Gateway → List Reception → Worker → Gateway → Prop where
  /-- A chunk is fed, when those before are handled. -/
  | fed (c : Connection) (chunk : Bytes) (g : Gateway) : Step ⟨c, none, []⟩ g []
      ⟨{ c with decoder := (decode c.decoder chunk).1 }, none, (decode c.decoder chunk).2.1⟩ g
  /-- An envelope is handled without a payload that is to be recorded. -/
  | handled {c : Connection} {e : Envelope} {rest : List Envelope} {g : Gateway}
      (unreported : ∀ s payload values, ¬ Turn.Reports ⟨e, c.session, g⟩ s payload values) :
      Step ⟨c, none, e :: rest⟩ g [] (settle c rest (Turn.handled ⟨e, c.session, g⟩))
        (Turn.handled ⟨e, c.session, g⟩).gateway
  /-- The time of reception is drawn for an accepted payload. -/
  | drawn {c : Connection} {e : Envelope} {rest : List Envelope} {g : Gateway} {s : Session}
      {payload : Bytes} {values : List Value} (date : Int64)
      (reports : Turn.Reports ⟨e, c.session, g⟩ s payload values) :
      Step ⟨c, none, e :: rest⟩ g [(Turn.draw ⟨e, c.session, g⟩ s values date).reception]
        ⟨c, some (Turn.draw ⟨e, c.session, g⟩ s values date), rest⟩ g.nextReception.2
  /-- The record is kept, and the request answered. -/
  | kept (c : Connection) (u : Underway) (rest : List Envelope) (g : Gateway) :
      Step ⟨c, some u, rest⟩ g [] (settle c rest (u.finish g)) (u.finish g).gateway

end Worker

/-- How connections at work share a gateway: the receptions whose times were drawn so far, in order,
and what the connections have come to. -/
inductive Interleaving (g₀ : Gateway) : List Reception → List Worker → Gateway → Prop where
  | started : Interleaving g₀ [] [] g₀
  | connected {log : List Reception} {workers : List Worker} {g : Gateway}
      (run : Interleaving g₀ log workers g) : Interleaving g₀ log ({} :: workers) g
  | stepped {log drawn : List Reception} {front back : List Worker} {w w' : Worker}
      {g g' : Gateway} (run : Interleaving g₀ log (front ++ w :: back) g)
      (step : w.Step g drawn w' g') : Interleaving g₀ (log ++ drawn) (front ++ w' :: back) g'
  /-- Administrators use the gateway, or the clock is set, forwards or back. -/
  | meanwhile {log : List Reception} {workers : List Worker} {g g' : Gateway}
      (run : Interleaving g₀ log workers g) (keeps : g.Keeps g') : Interleaving g₀ log workers g'

namespace Interleaving

/-- An envelope may be handled with nothing in between. -/
theorem handle {front back : List Worker} {e : Envelope} {rest : List Envelope}
    (run : Interleaving g₀ log (front ++ ⟨c, none, e :: rest⟩ :: back) g) :
    ∃ drawn, Interleaving g₀ (log ++ drawn)
      (front ++ Worker.settle c rest (Connection.handle e c.session g) :: back)
      (Connection.handle e c.session g).gateway := by
  by_cases reported : ∃ s payload values, Turn.Reports ⟨e, c.session, g⟩ s payload values
  · obtain ⟨s, payload, values, reports⟩ := reported
    have kept := (run.stepped (.drawn g.clock reports)).stepped (.kept c _ rest _)
    rw [List.append_nil, ← reports.handled_eq] at kept
    exact ⟨_, kept⟩
  · have unreported s payload values (reports : Turn.Reports ⟨e, c.session, g⟩ s payload values) :
        False := reported ⟨s, payload, values, reports⟩
    exact ⟨[], run.stepped (.handled unreported)⟩

/-- The envelopes of a chunk may be handled with nothing in between. -/
theorem handleAll {front back : List Worker} {rest : List Envelope}
    (run : Interleaving g₀ log (front ++ ⟨c, none, rest⟩ :: back) g) :
    ∃ drawn, Interleaving g₀ (log ++ drawn)
      (front ++ ⟨{ c with session := (handleAll rest c.session g).session }, none, []⟩ :: back)
      (handleAll rest c.session g).gateway := by
  induction rest generalizing c log g with
  | nil => exact ⟨[], by rwa [List.append_nil]⟩
  | cons e rest ih =>
    obtain ⟨drawn, first⟩ := run.handle
    unfold Worker.settle at first
    unfold Connection.handleAll
    dsimp only
    by_cases closes : (Connection.handle e c.session g).reaction.close = true
    · rw [if_pos closes] at first ⊢
      exact ⟨drawn, first⟩
    · rw [if_neg closes] at first ⊢
      obtain ⟨others, last⟩ := ih first
      rw [List.append_assoc] at last
      exact ⟨drawn ++ others, last⟩

/-- A chunk may be taken in with nothing in between. -/
theorem onBytes {front back : List Worker}
    (run : Interleaving g₀ log (front ++ ⟨c, none, []⟩ :: back) g) (chunk : Bytes) :
    ∃ drawn, Interleaving g₀ (log ++ drawn)
      (front ++ ⟨(c.onBytes chunk g).2.1, none, []⟩ :: back) (c.onBytes chunk g).2.2 := by
  have fed := run.stepped (.fed c chunk g)
  rw [List.append_nil] at fed
  exact fed.handleAll

end Interleaving

/-! ## Records in the order of their times -/

/-- The entries that the receptions from a client leave in the store. -/
def entriesFrom (client : String) (receptions : List Reception) : Table Nat ReceivedEnvelope :=
  (receptions.filter (·.client = client)).map fun r => (r.time, r.envelope)

theorem entriesFrom_append (client : String) (front back : List Reception) :
    entriesFrom client (front ++ back) = entriesFrom client front ++ entriesFrom client back := by
  rw [entriesFrom, List.filter_append, List.map_append]
  rfl

theorem exists_of_mem_keys_entriesFrom {time : Nat}
    (member : time ∈ Table.keys (entriesFrom client log)) : ∃ r ∈ log, r.time = time := by
  obtain ⟨entry, inside, rfl⟩ := List.mem_map.mp member
  obtain ⟨r, found, rfl⟩ := List.mem_map.mp inside
  exact ⟨r, List.mem_of_mem_filter found, rfl⟩

/-- The times of the receptions increase. -/
def Successive (receptions : List Reception) : Prop :=
  receptions.Pairwise fun r later => r.time < later.time

theorem Successive.sublist (h : Successive log) (within : stored.Sublist log) :
    Successive stored := List.Pairwise.sublist within h

theorem Successive.ordered (h : Successive log) (client : String) :
    (entriesFrom client log).Ordered := by
  unfold Table.Ordered Table.keys entriesFrom
  rw [List.map_map]
  exact List.pairwise_map.mpr (h.sublist List.filter_sublist)

theorem Successive.nodup (h : Successive log) : log.Nodup :=
  h.imp fun {r later} before same => by
    subst same
    exact Nat.lt_irrefl _ before

/-- A record goes between those of earlier and those of later receptions. -/
theorem Successive.put_entriesFrom (h : Successive (front ++ r :: back)) :
    Table.put r.time r.envelope (entriesFrom r.client (front ++ back)) =
      entriesFrom r.client (front ++ r :: back) := by
  obtain ⟨-, behind, earlier⟩ := List.pairwise_append.mp h
  have later := (List.pairwise_cons.mp behind).1
  have own : entriesFrom r.client (r :: back) =
      (r.time, r.envelope) :: entriesFrom r.client back := by
    simp [entriesFrom]
  rw [entriesFrom_append, entriesFrom_append, own]
  refine Table.put_append (fun time member => ?_) fun time member => ?_
  · obtain ⟨before, inside, rfl⟩ := exists_of_mem_keys_entriesFrom member
    exact earlier before inside r List.mem_cons_self
  · obtain ⟨after, inside, rfl⟩ := exists_of_mem_keys_entriesFrom member
    exact later after inside

theorem entriesFrom_of_ne (different : client ≠ r.client) (front back : List Reception) :
    entriesFrom client (front ++ r :: back) = entriesFrom client (front ++ back) := by
  rw [entriesFrom_append, entriesFrom_append]
  simp [entriesFrom, Ne.symm different]

/-- What is missing in a part of a log has its place there. -/
theorem exists_place {α : Type} {part whole : List α} {a : α} (within : part.Sublist whole)
    (member : a ∈ whole) (missing : a ∉ part) :
    ∃ front back, part = front ++ back ∧ (front ++ a :: back).Sublist whole := by
  obtain ⟨left, right, rfl⟩ := List.append_of_mem member
  obtain ⟨front, back, rfl, first, second⟩ := List.sublist_append_iff.mp within
  have second : back.Sublist right := by
    rcases List.sublist_cons_iff.mp second with shorter | ⟨rest, rfl, -⟩
    · exact shorter
    · exact absurd (List.mem_append_right _ List.mem_cons_self) missing
  exact ⟨front, back, rfl, first.append (second.cons_cons a)⟩

/-! ## What the store holds -/

/-- The store holds the records of these receptions among those in a log, up to its capacity; the
others are pending. -/
structure Holds (n : Nat) (log pending : List Reception) (g : Gateway) (stored : List Reception) :
    Prop where
  capacity : g.store.capacity = n
  successive : Successive log
  drawn : ∀ r ∈ log, r.time ≤ g.lastReception
  within : stored.Sublist log
  others : log.Perm (stored ++ pending)
  received : ∀ client, g.store.receivedFrom client = lastEntries n (entriesFrom client stored)

namespace Holds

variable {pending : List Reception}

theorem start (empty : g.store.received = []) : Holds g.store.capacity [] [] g [] where
  capacity := rfl
  successive := List.Pairwise.nil
  drawn r member := by cases member
  within := List.Sublist.refl []
  others := List.Perm.refl []
  received client := by
    rw [Store.receivedFrom, empty]
    exact (Store.lastEntries_of_length_le (Nat.zero_le _)).symm

theorem keeps (h : Holds n log pending g stored) (keeps : g.Keeps g') :
    Holds n log pending g' stored :=
  { h with
    capacity := keeps.capacity.trans h.capacity
    drawn := fun r member => by
      rw [keeps.lastReception]
      exact h.drawn r member
    received := fun client =>
      (Store.receivedFrom_congr keeps.received client).trans (h.received client) }

theorem perm_pending :
    (stored ++ (front ++ r :: back)).Perm (r :: (stored ++ (front ++ back))) := by
  rw [← List.append_assoc, ← List.append_assoc]
  exact List.perm_middle

/-- A time that is drawn is later than all before. -/
theorem draw (h : Holds n log (front ++ back) g stored) (time : r.time = g.nextReception.1) :
    Holds n (log ++ [r]) (front ++ r :: back) g.nextReception.2 stored where
  capacity := h.capacity
  successive := by
    refine List.pairwise_append.mpr ⟨h.successive, List.pairwise_singleton _ _, ?_⟩
    intro before member last same
    obtain rfl := List.mem_singleton.mp same
    rw [time]
    exact Nat.lt_of_le_of_lt (h.drawn before member) g.lastReception_lt_nextReception
  drawn last member := by
    rcases List.mem_append.mp member with before | new
    · exact Nat.le_trans (h.drawn last before)
        (Nat.le_trans (Nat.le_succ _) (Nat.le_max_right _ _))
    · rw [List.mem_singleton.mp new]
      exact Nat.le_of_eq time
  within := h.within.trans (List.sublist_append_left _ _)
  others := (List.perm_append_singleton r log).trans ((h.others.cons r).trans perm_pending.symm)
  received := h.received

/-- A record that was pending is put in its place. -/
theorem receive (h : Holds n log (front ++ r :: back) g stored) :
    ∃ stored, Holds n log (front ++ back) (g.receive r) stored := by
  have parts := h.others.trans perm_pending
  have member : r ∈ log := parts.mem_iff.mpr List.mem_cons_self
  have missing : r ∉ stored := fun already =>
    (List.nodup_cons.mp (parts.nodup_iff.mp h.successive.nodup)).1 (List.mem_append_left _ already)
  obtain ⟨before, behind, rfl, within⟩ := exists_place h.within member missing
  have successive : Successive (before ++ r :: behind) := h.successive.sublist within
  refine ⟨before ++ r :: behind, h.capacity, h.successive, h.drawn, within, ?_, fun client => ?_⟩
  · rw [List.append_assoc] at parts ⊢
    exact parts.trans List.perm_middle.symm
  · rw [Gateway.receive]
    by_cases own : client = r.client
    · subst own
      rw [Store.receivedFrom_receive, h.received, h.capacity,
        Store.lastEntries_put_lastEntries n ((h.successive.sublist h.within).ordered _),
        successive.put_entriesFrom]
    · rw [(Store.spares_receive own _ _).receivedFrom, h.received, entriesFrom_of_ne own]

end Holds

namespace Interleaving

variable {workers : List Worker}

theorem holds (run : Interleaving g₀ log workers g) (empty : g₀.store.received = []) :
    ∃ stored, Holds g₀.store.capacity log (workers.flatMap Worker.pending) g stored := by
  induction run with
  | started => exact ⟨[], .start empty⟩
  | connected run ih => exact ih
  | @stepped log drawn front back w w' g g' run step ih =>
    obtain ⟨stored, holds⟩ := ih
    rw [List.flatMap_append, List.flatMap_cons] at holds ⊢
    cases step with
    | fed c chunk =>
      rw [List.append_nil]
      exact ⟨stored, holds⟩
    | handled unreported =>
      rw [List.append_nil]
      exact ⟨stored, holds.keeps (Turn.keeps_handled unreported)⟩
    | drawn date reports => exact ⟨stored, holds.draw rfl⟩
    | kept c u rest =>
      obtain ⟨stored, holds⟩ := holds.receive
      rw [List.append_nil]
      exact ⟨stored, holds.keeps (u.keeps_finish g)⟩
  | meanwhile run keeps ih =>
    obtain ⟨stored, holds⟩ := ih
    exact ⟨stored, holds.keeps keeps⟩

/-- However connections at work are interleaved and whatever the clock shows, no time of reception
is drawn twice, and of the envelopes accepted from a client with a payload, the store holds exactly
the last ones, as many as it has room for, in the order of the log. Only those whose record is not
kept yet are left out; when no connection is at work on one, there are none. -/
theorem retains (run : Interleaving g₀ log workers g) (empty : g₀.store.received = []) :
    (log.map Reception.time).Pairwise (· < ·) ∧
    ∃ stored, stored.Sublist log ∧ log.Perm (stored ++ workers.flatMap Worker.pending) ∧
      ((∀ w ∈ workers, w.underway = none) → stored = log) ∧
      ∀ client,
        let accepted := stored.filter (·.client = client)
        g.store.receivedFrom client =
          lastEntries g₀.store.capacity (accepted.map fun r => (r.time, r.envelope)) ∧
        (g.store.receivedFrom client).length = min g₀.store.capacity accepted.length := by
  obtain ⟨stored, holds⟩ := run.holds empty
  refine ⟨List.pairwise_map.mpr holds.successive, stored, holds.within, holds.others,
    fun idle => ?_, fun client => ⟨holds.received client, ?_⟩⟩
  · have none : workers.flatMap Worker.pending = [] := by
      refine List.flatMap_eq_nil_iff.mpr fun w member => ?_
      rw [Worker.pending, idle w member]
      rfl
    have others := holds.others
    rw [none, List.append_nil] at others
    exact holds.within.eq_of_length others.length_eq.symm
  · rw [holds.received, Store.length_lastEntries, entriesFrom, List.length_map]

/-! ## Two reports that cross -/

/-- What a client reports that nothing is known of. -/
def visit : Envelope := { Connection.hello with payload := Bysant.encodeAll Connection.reported }

def visitTurn (g : Gateway) : Turn := ⟨visit, none, g⟩

/-- A gateway with room for one envelope of each client. -/
def narrowGateway : Gateway :=
  { Connection.emptyGateway with store := { capacity := 1 }, clock := 5 }

/-- The gateway behind the first report: the clock has been set back. -/
def setBack : Gateway := { narrowGateway.nextReception.2 with clock := -3 }

theorem reports_visitTurn {g : Gateway} (unknown : g.store.profiles = []) :
    (visitTurn g).Reports (.unsecured "dev") (Bysant.encodeAll Connection.reported)
      Connection.reported := by
  have opened : (visitTurn g).opened = some (.unsecured "dev") := by
    show some (Session.start g.store "dev") = _
    rw [Session.start, Store.profile?, unknown]
    rfl
  exact ⟨⟨opened, rfl, rfl⟩, by decide +kernel, Connection.decode_report⟩

/-- What is underway of both reports. -/
def firstDraw : Underway := (visitTurn narrowGateway).draw (.unsecured "dev") Connection.reported 5

def secondDraw : Underway := (visitTurn setBack).draw (.unsecured "dev") Connection.reported (-3)

/-- Two connections have been fed the report. -/
theorem exists_bothFed : ∃ d, Interleaving narrowGateway []
    ([] ++ ⟨⟨d, none⟩, none, [visit]⟩ :: [⟨⟨d, none⟩, none, [visit]⟩]) narrowGateway := by
  have sound : ∀ e ∈ [visit], (Value.envelope e).Sound Bysant.maxDepth := by
    intro e member
    obtain rfl := List.mem_singleton.mp member
    exact Bysant.sound_iff.mpr ⟨by decide +kernel, by decide +kernel⟩
  obtain ⟨d, decoded⟩ := Connection.decode_envelopes sound
  have fed := Worker.Step.fed {} (Bysant.encodeAll ([visit].map Value.envelope)) narrowGateway
  rw [decoded] at fed
  have new : Interleaving narrowGateway [] ([] ++ ({} : Worker) :: [({} : Worker)])
    narrowGateway := started.connected.connected
  have first : Interleaving narrowGateway []
    ([⟨⟨d, none⟩, none, [visit]⟩] ++ ({} : Worker) :: []) narrowGateway := new.stepped fed
  exact ⟨d, first.stepped fed⟩

/-- The record of the first report comes late, and is the one that is dropped. -/
theorem retains_crossed : ∃ log workers g,
    (Interleaving narrowGateway log workers g ∧ narrowGateway.store.received = []) ∧
      log.map Reception.time = [5000000, 5000001] ∧
      g.store.receivedFrom "dev" = [(5000001, secondDraw.reception.envelope)] := by
  obtain ⟨d, fed⟩ := exists_bothFed
  have first := (fed.stepped (.drawn 5 (reports_visitTurn rfl))).meanwhile
    (⟨rfl, rfl, rfl⟩ : narrowGateway.nextReception.2.Keeps setBack)
  have first : Interleaving narrowGateway [firstDraw.reception]
      ([⟨⟨d, none⟩, some firstDraw, []⟩] ++ ⟨⟨d, none⟩, none, [visit]⟩ :: []) setBack := first
  have second := (first.stepped (.drawn (-3) (reports_visitTurn rfl))).stepped
    (.kept ⟨d, none⟩ secondDraw [] _)
  have second : Interleaving narrowGateway [firstDraw.reception, secondDraw.reception]
      ([] ++ ⟨⟨d, none⟩, some firstDraw, []⟩ :: [Worker.settle ⟨d, none⟩ []
        (secondDraw.finish setBack.nextReception.2)])
      (secondDraw.finish setBack.nextReception.2).gateway := second
  have both := second.stepped (.kept ⟨d, none⟩ firstDraw [] _)
  obtain ⟨-, stored, -, -, whole, received⟩ := both.retains rfl
  have idle := whole (by simp [Worker.settle])
  refine ⟨_, _, _, ⟨both, rfl⟩, by decide +kernel, ?_⟩
  rw [(received "dev").1, idle]
  rfl

end Interleaving

end Telemetry
