import Telemetry.Proofs.Bysant.Descent
import Telemetry.Proofs.Gateway.Segmentation
/-!
# Where a value ends

A reader that takes something has not looked behind it: with any other bytes there it takes the same
and stops at the same place. So the bytes of a value can be cut out of the input, and the value is
what they decode to.
-/

namespace Telemetry.Bysant

/-! ## Readers -/

/-- What the reader takes is settled by the bytes that it uses up, whatever follows them. -/
def Reader.Settles {α : Type} (r : Reader α) : Prop :=
  ∀ place a rest, r place = .done a rest → ∃ used : Bytes, place.bytes = used ++ rest.bytes ∧
    ∀ more, r ⟨place.offset, used ++ more⟩ = .done a ⟨rest.offset, more⟩

namespace Reader

variable {α β : Type} {r : Reader α}

theorem of_bind_done {f : α → Reader β} {place rest : Place} {b : β}
    (h : (r >>= f) place = .done b rest) :
    ∃ a middle, r place = .done a middle ∧ f a middle = .done b rest := by
  rw [bind_apply] at h
  cases read : r place with
  | more missing => simp [read] at h
  | fail error => simp [read] at h
  | done a middle => exact ⟨a, middle, rfl, by simpa only [read] using h⟩

theorem settles_pure (a : α) : Settles (Pure.pure a : Reader α) := by
  intro place b rest read
  cases read
  exact ⟨[], rfl, fun more => rfl⟩

theorem settles_fail (error : DecodeError) : Settles (fail error : Reader α) := by
  intro place a rest read
  cases read

theorem settles_offset : Settles offset := by
  intro place a rest read
  cases read
  exact ⟨[], rfl, fun more => rfl⟩

theorem Settles.bind {f : α → Reader β} (first : r.Settles) (second : ∀ a, (f a).Settles) :
    Settles (r >>= f) := by
  intro place b rest read
  obtain ⟨a, middle, read, read'⟩ := of_bind_done read
  obtain ⟨used, bytes, same⟩ := first place a middle read
  obtain ⟨used', bytes', same'⟩ := second a middle b rest read'
  refine ⟨used ++ used', by rw [bytes, bytes', List.append_assoc], fun more => ?_⟩
  rw [bind_apply, List.append_assoc, same (used' ++ more)]
  exact same' more

theorem settles_ite {p : Prop} [Decidable p] {r' : Reader α} (h : r.Settles) (h' : r'.Settles) :
    Settles (if p then r else r') := by
  split
  · exact h
  · exact h'

theorem settles_byte : Settles byte := by
  rintro ⟨offset, bytes⟩ b rest read
  cases bytes with
  | nil => cases read
  | cons first others =>
    cases read
    exact ⟨[b], rfl, fun more => rfl⟩

theorem settles_take (n : Nat) : Settles (take n) := by
  intro place b rest read
  simp only [take] at read
  split at read
  · rename_i long
    cases read
    refine ⟨place.bytes.take n, (List.take_append_drop n place.bytes).symm, fun more => ?_⟩
    have front : (place.bytes.take n ++ more).take n = place.bytes.take n := List.take_left' long
    have behind : (place.bytes.take n ++ more).drop n = more := List.drop_left' long
    simp only [take, front, behind, if_pos long]
  · cases read

/-- A number is settled by its digits. -/
theorem readFrom_take {b : Bytes} {used value n : Nat} {v : UInt64}
    (h : Varint.readFrom used value b = .complete v n) (more : Bytes) :
    Varint.readFrom used value (b.take (n - used) ++ more) = .complete v n := by
  induction b generalizing used value with
  | nil => cases h
  | cons byte rest ih =>
    obtain ⟨less, -⟩ := Varint.used_of_readFrom h
    obtain ⟨k, count⟩ : ∃ k, n - used = k + 1 := ⟨n - used - 1, by omega⟩
    rw [count, List.take_succ_cons, List.cons_append]
    simp only [Varint.readFrom] at h ⊢
    split at h
    · cases h
    · rename_i room
      rw [if_neg room]
      split at h
      · rename_i last
        rw [if_pos last]
        exact h
      · rename_i open_
        rw [if_neg open_, show k = n - (used + 1) by omega]
        exact ih h

theorem settles_varint : Settles varint := by
  intro place value rest read
  unfold varint at read
  split at read
  · rename_i value used h
    cases read
    have inside := (Varint.used_of_read h).2
    refine ⟨place.bytes.take used, (List.take_append_drop used place.bytes).symm, fun more => ?_⟩
    have same : Varint.read (place.bytes.take used ++ more) = .complete value used :=
      readFrom_take h more
    have behind : (place.bytes.take used ++ more).drop used = more :=
      List.drop_left' (List.length_take_of_le inside)
    simp only [varint, same, behind]
  · cases read
  · cases read

theorem settles_length : Settles length :=
  settles_offset.bind fun _ => settles_varint.bind fun _ =>
    settles_ite (settles_pure _) (settles_fail _)

theorem settles_text (n : Nat) : Settles (text n) := by
  refine settles_offset.bind fun start => (settles_take n).bind fun body => ?_
  split
  · exact settles_pure _
  · exact settles_fail _

theorem settles_int (width : Nat) : Settles (int width) :=
  (settles_take width).bind fun _ => settles_pure _

theorem settles_check (result : Except DecodeError α) : Settles (check result) := by
  cases result with
  | ok a => exact settles_pure a
  | error e => exact settles_fail e

theorem Settles.times (h : r.Settles) : (n : Nat) → (r.times n).Settles
  | 0 => settles_pure _
  | n + 1 => h.bind fun _ => (Settles.times h n).bind fun _ => settles_pure _

end Reader

open Reader

theorem Size.settles_read (size : Size) : size.read.Settles := by
  cases size with
  | inTag n => exact settles_pure n
  | ahead => exact settles_length

theorem settles_readDeltas : readDeltas.Settles :=
  settles_offset.bind fun _ => settles_byte.bind fun _ => settles_ite
    (settles_offset.bind fun _ => settles_length.bind fun _ =>
      settles_ite (settles_fail _) <| settles_ite (settles_fail _) <|
        (settles_take _).bind fun _ => settles_pure _)
    (settles_fail _)

/-! ## Values -/

section Settles

variable {inside : Option (Reader Item)} (settled : ∀ item, inside = some item → item.Settles)

include settled

theorem settles_enter {α : Type} {f : Reader Item → Reader α}
    (second : ∀ item : Reader Item, item.Settles → (f item).Settles) (start : Nat) :
    (enter inside start >>= f).Settles := by
  cases inside with
  | some item => exact second item (settled item rfl)
  | none => exact settles_fail _

/-- Three items and what is made of them. -/
theorem settles_three {finish : Item → Item → Item → Except DecodeError Value} (start : Nat) :
    (enter inside start >>= fun item => item >>= fun first => item >>= fun second =>
      item >>= fun third => check (finish first second third)).Settles :=
  settles_enter settled (fun _ item => item.bind fun _ => item.bind fun _ => item.bind fun _ =>
    settles_check _) start

theorem Form.settles_value (form : Form) (start : Nat) : (form.value inside start).Settles := by
  have behind {α : Type} {r : Reader α} (h : r.Settles) (f : α → Value) :
      (r >>= fun a => (Pure.pure (f a) : Reader Value)).Settles :=
    h.bind fun a => settles_pure (f a)
  have sized {α : Type} {r : Nat → Reader α} (h : ∀ n, (r n).Settles) (f : α → Value) (size : Size) :
      (size.read >>= fun n => r n >>= fun a =>
        (Pure.pure (f a) : Reader Value)).Settles :=
    size.settles_read.bind fun n => behind (h n) f
  cases form with
  | constant value => exact settles_pure value
  | int width => exact behind (settles_int width) _
  | single => exact behind (settles_take 4) _
  | double => exact behind (settles_take 8) _
  | text size => exact sized settles_text _ size
  | bytes size => exact sized settles_take _ size
  | list size =>
    exact size.settles_read.bind fun count => settles_enter settled
      (fun item h => behind (h.times count) _) start
  | map size =>
    refine size.settles_read.bind fun count => settles_enter settled (fun item h => ?_) start
    exact behind (Settles.times (h.bind fun _ => h.bind fun _ => settles_pure _) count) _
  | delta =>
    exact settles_enter settled (fun item h => h.bind fun _ => h.bind fun _ =>
      settles_readDeltas.bind fun _ => settles_check _) start
  | quasi => exact settles_three settled start
  | envelope => exact settles_three settled start
  | message => exact settles_three settled start
  | response => exact settles_three settled start

theorem settles_taggedItem : (taggedItem inside).Settles := by
  refine settles_offset.bind fun start => settles_byte.bind fun tag => ?_
  cases Form.ofTag? tag with
  | some form => exact (form.settles_value settled start).bind fun _ => settles_pure _
  | none => exact settles_fail _

end Settles

theorem settles_item : (room : Nat) → (item room).Settles
  | 0 => settles_taggedItem nofun
  | room + 1 => settles_taggedItem fun _ same => Option.some.inj same ▸ settles_item room

/-! ## The bytes of a value alone -/

namespace Decoder

theorem atRest_infront (offset : Nat) : (infront offset []).AtRest :=
  ⟨honest_of_needed_eq_zero rfl, rfl, rfl, rfl⟩

/-- A decoder in front of no bytes is alike to a new one, wherever it stands. -/
theorem alike_infront (offset : Nat) : Alike offset new (infront offset []) :=
  ⟨rfl, rfl, (Nat.zero_add offset).symm, rfl, rfl, rfl, atRest_new.honest,
    (atRest_infront offset).honest⟩

/-- A decoder in front of the bytes of a value gives it out and waits behind them. -/
theorem feed_infront {offset : Nat} {part : Bytes} {item : Item} {rest : Place}
    (read : Bysant.item maxDepth ⟨offset, part⟩ = .done item rest) (all : rest.bytes = []) :
    (infront offset []).feed part = (infront rest.offset [], [item], .ok ()) := by
  have reads := readsOn_item ⟨offset, part⟩ []
  rw [read] at reads
  have drained : (infront offset part).drain [] = (infront rest.offset rest.bytes).drain [item] :=
    reads
  have waits : (infront rest.offset []).isStarved = true := rfl
  have start : (infront offset []).append part = infront offset part := rfl
  rw [all, drain_starved waits] at drained
  rw [(atRest_infront offset).feed_eq, start, drained]
  rfl

end Decoder

/-- Bytes that one value takes up decode to it. -/
theorem decode_of_item {offset : Nat} {part : Bytes} {item : Item} {rest : Place}
    (read : Bysant.item maxDepth ⟨offset, part⟩ = .done item rest) (all : rest.bytes = []) :
    decode part = .ok [item.value] := by
  have fed := Decoder.feed_infront read all
  -- a new decoder gives out the same value, and also waits behind all bytes
  obtain ⟨alike, found⟩ := (Decoder.alike_infront offset).feed Decoder.atRest_new
    (Decoder.atRest_infront offset) part
  rw [fed] at alike found
  have values : (Decoder.new.feed part).2.1.map Item.value = [item.value] := by
    have same := congrArg (List.map Item.value) found
    rw [List.map_map] at same
    exact same.symm
  have alive : (Decoder.new.feed part).1.failure = none :=
    Option.map_eq_none_iff.mp alike.failure.symm
  have open_ : (Decoder.new.feed part).1.finished = false := alike.finished.symm
  have nothing : (Decoder.new.feed part).1.hasPending = false := alike.hasPending.symm
  have taken : (Decoder.new.feed part).2.2 = .ok () := by
    rw [Decoder.atRest_new.feed_result, Decoder.status_eq_ok_iff.mpr alive]
  have ended : (Decoder.new.feed part).1.finish.2 = .ok () := by
    rw [Decoder.finish_of_alive alive, open_, nothing]
    rfl
  simp only [decode, taken, ended, values]

/-- The bytes that a value is read from decode to that value. -/
theorem decode_of_done {place rest : Place} {item : Item}
    (read : Bysant.item maxDepth place = .done item rest) : ∃ part : Bytes,
      place.bytes = part ++ rest.bytes ∧ rest.offset = place.offset + part.length ∧
        decode part = .ok [item.value] := by
  obtain ⟨part, bytes, same⟩ := settles_item maxDepth place item rest read
  obtain ⟨used, bytes', offset, -⟩ := uses_item maxDepth place item rest read
  obtain rfl : part = used := List.append_cancel_right (bytes.symm.trans bytes')
  have alone : Bysant.item maxDepth ⟨place.offset, part ++ []⟩ = .done item ⟨rest.offset, []⟩ :=
    same []
  rw [List.append_nil] at alone
  exact ⟨part, bytes, offset, decode_of_item alone rfl⟩

end Telemetry.Bysant
