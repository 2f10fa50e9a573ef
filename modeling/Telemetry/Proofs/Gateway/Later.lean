import Telemetry.Gateway.Admin
import Telemetry.Proofs.Store.Profiles
/-!
# What becomes of a gateway

Whatever connections and administrators do to a gateway, the random bytes that were drawn are not
drawn again, and a client that has a profile keeps one. Most of what connections do is quiet, too:
it leaves the data received from the clients and the messages queued for them alone.
-/

namespace Telemetry.Gateway

open Security (Entropy)

variable {g g' g'' : Gateway} {nonce : String}

/-- A nonce that is the next one to be drawn, now or when more of the random bytes are used up. -/
def Draws (g : Gateway) (nonce : String) : Prop :=
  ∃ used, g.entropy.used ≤ used ∧ nonce = (Entropy.mk g.entropy.stream used).drawNonce.1

theorem draws_drawNonce (g : Gateway) : g.Draws g.drawNonce.1 := ⟨_, Nat.le_refl _, rfl⟩

/-- A gateway may become another one when it is used. -/
structure Later (g g' : Gateway) : Prop where
  stream : g'.entropy.stream = g.entropy.stream
  used : g.entropy.used ≤ g'.entropy.used
  known : ∀ client, (g.store.profile? client).isSome → (g'.store.profile? client).isSome

theorem Later.refl (g : Gateway) : g.Later g := ⟨rfl, Nat.le_refl _, fun _ => id⟩

theorem Later.trans (first : g.Later g') (second : g'.Later g'') : g.Later g'' :=
  ⟨second.stream.trans first.stream, Nat.le_trans first.used second.used,
    fun client known => second.known client (first.known client known)⟩

/-- What may be drawn later may be drawn. -/
theorem Later.draws (h : g.Later g') (draws : g'.Draws nonce) : g.Draws nonce := by
  obtain ⟨used, behind, rfl⟩ := draws
  refine ⟨used, Nat.le_trans h.used behind, ?_⟩
  rw [h.stream]

/-- A gateway becomes another one without business: no data comes in, and no message goes out. -/
structure Quiet (g g' : Gateway) : Prop extends g.Later g' where
  received : g'.store.received = g.store.received
  outgoing : g'.store.outgoing = g.store.outgoing
  capacity : g'.store.capacity = g.store.capacity

theorem Quiet.refl (g : Gateway) : g.Quiet g := ⟨Later.refl g, rfl, rfl, rfl⟩

theorem Quiet.trans (first : g.Quiet g') (second : g'.Quiet g'') : g.Quiet g'' :=
  ⟨first.toLater.trans second.toLater, second.received.trans first.received,
    second.outgoing.trans first.outgoing, second.capacity.trans first.capacity⟩

/-! ## Drawing -/

theorem store_drawNonce (g : Gateway) : g.drawNonce.2.store = g.store := rfl

theorem store_drawKeyPair (g : Gateway) : g.drawKeyPair.2.store = g.store := by
  unfold drawKeyPair
  cases g.entropy.drawKeyPair
  rfl

theorem store_drawPassword (g : Gateway) : g.drawPassword.2.store = g.store := by
  unfold drawPassword
  split <;> rfl

theorem quiet_of_store (stream : g'.entropy.stream = g.entropy.stream)
    (used : g.entropy.used ≤ g'.entropy.used) (same : g'.store = g.store) : g.Quiet g' :=
  ⟨⟨stream, used, fun client known => by rwa [same]⟩, by rw [same], by rw [same], by rw [same]⟩

theorem quiet_drawNonce (g : Gateway) : g.Quiet g.drawNonce.2 :=
  quiet_of_store rfl (Nat.le_add_right _ _) rfl

/-- However many candidates are skipped, a private key is drawn from the bytes that come next. -/
theorem drawSecret_spec (e : Entropy) (tries : Nat) :
    (e.drawSecret tries).2.stream = e.stream ∧ e.used ≤ (e.drawSecret tries).2.used := by
  induction tries generalizing e with
  | zero => exact ⟨rfl, Nat.le_refl _⟩
  | succ tries ih =>
    unfold Entropy.drawSecret
    dsimp only [Entropy.draw]
    split
    · exact ⟨rfl, Nat.le_add_right _ _⟩
    · obtain ⟨stream, used⟩ := ih { e with used := e.used + 32 }
      exact ⟨stream, Nat.le_trans (Nat.le_add_right _ _) used⟩

theorem quiet_drawKeyPair (g : Gateway) : g.Quiet g.drawKeyPair.2 := by
  obtain ⟨stream, used⟩ := drawSecret_spec g.entropy 64
  exact quiet_of_store stream used g.store_drawKeyPair

theorem quiet_drawPassword (g : Gateway) : g.Quiet g.drawPassword.2 := by
  refine quiet_of_store ?_ ?_ g.store_drawPassword
  · unfold drawPassword
    split <;> rfl
  · unfold drawPassword
    split
    · exact Nat.le_add_right _ _
    · exact Nat.le_refl _
    · exact Nat.le_refl _

/-! ## Changing profiles -/

theorem quiet_updateProfile (g : Gateway) (client : String)
    (f : Security.Profile → Security.Profile) :
    g.Quiet { g with store := g.store.updateProfile client f } where
  stream := rfl
  used := Nat.le_refl _
  known _ known := Store.isSome_profile?_updateProfile.trans known
  received := Store.received_updateProfile
  outgoing := Store.outgoing_updateProfile
  capacity := Store.capacity_updateProfile

/-! ## What administrators do -/

theorem later_register (g : Gateway) (client : String) (r : Admin.Registration) :
    g.Later (Admin.register g client r).2 := by
  unfold Admin.register
  split
  · exact Later.refl g
  · exact ⟨rfl, Nat.le_refl _, fun _ => Store.isSome_profile?_addProfile⟩

theorem later_send (g : Gateway) (client : String) (settings : List (String × Json)) :
    g.Later (Admin.send g client settings).2 := by
  unfold Admin.send
  dsimp only
  split
  · exact Later.refl g
  · exact ⟨rfl, Nat.le_refl _, fun _ => id⟩

end Telemetry.Gateway
