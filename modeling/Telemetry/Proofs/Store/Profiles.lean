import Telemetry.Proofs.Table
import Telemetry.Store.Basic
/-!
# Changing security profiles

A change of one client's profile leaves the other clients' profiles, the received data and the
queued messages alone, and no change takes a profile away. Taking messages leaves profiles and
received data alone.
-/

namespace Telemetry.Store

open Security (Profile)

variable {s : Store} {client other : String} {f : Profile → Profile}

/-- Only the profile of the client is changed, and only if there is one. -/
theorem profile?_updateProfile : (s.updateProfile client f).profile? other =
    (s.profile? other).map fun p => if other = client then f p else p := by
  unfold updateProfile
  cases stored : s.profile? client with
  | none =>
    dsimp only
    by_cases same : other = client
    · rw [same, stored, Option.map_none]
    · simp only [same, if_false, Option.map_id']
  | some p =>
    dsimp only [profile?]
    by_cases same : other = client
    · subst same
      rw [Table.get?_put_self, show Table.get? other s.profiles = some p from stored,
        Option.map_some, if_pos rfl]
    · simp only [Table.get?_put_of_ne (Ne.symm same), same, if_false, Option.map_id']

/-- A client that has a profile is given the nonce in it. -/
theorem profile?_setNonce {p : Profile} (stored : s.profile? client = some p) (nonce : String) :
    (s.setNonce client nonce).profile? client = some { p with nonce } := by
  rw [setNonce, profile?_updateProfile, stored, Option.map_some, if_pos rfl]

@[simp] theorem received_updateProfile : (s.updateProfile client f).received = s.received := by
  unfold updateProfile
  split <;> rfl

@[simp] theorem outgoing_updateProfile : (s.updateProfile client f).outgoing = s.outgoing := by
  unfold updateProfile
  split <;> rfl

@[simp] theorem capacity_updateProfile : (s.updateProfile client f).capacity = s.capacity := by
  unfold updateProfile
  split <;> rfl

/-! ## Taking messages -/

theorem profiles_dequeue (s : Store) (client : String) :
    (s.dequeue client).2.profiles = s.profiles := by
  unfold dequeue
  split <;> rfl

theorem received_dequeue (s : Store) (client : String) :
    (s.dequeue client).2.received = s.received := by
  unfold dequeue
  split <;> rfl

theorem capacity_dequeue (s : Store) (client : String) :
    (s.dequeue client).2.capacity = s.capacity := by
  unfold dequeue
  split <;> rfl

/-! ## Clients that have a profile -/

theorem isSome_profile?_updateProfile :
    ((s.updateProfile client f).profile? other).isSome = (s.profile? other).isSome := by
  rw [profile?_updateProfile, Option.isSome_map]

theorem isSome_profile?_addProfile {p : Profile} (known : (s.profile? other).isSome) :
    ((s.addProfile p).profile? other).isSome := by
  by_cases same : p.clientId = other
  · subst same
    simp only [addProfile, profile?, Table.get?_put_self, Option.isSome_some]
  · simpa only [addProfile, profile?, Table.get?_put_of_ne same] using known

end Telemetry.Store
