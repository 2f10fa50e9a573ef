import Telemetry.Bysant.DecodeError
import Telemetry.Bysant.Varint
/-!
# Readers

A reader takes something from the front of some bytes, or says how many more bytes it needs at
least, or why there is nothing to take. Readers are put together from those of single bytes, byte
strings and variable-length integers. Whatever a reader takes stands in front of what it leaves.
-/

namespace Telemetry.Bysant

/-- The largest length of a byte string or text, and the largest count of a list or map. -/
def maxLength : Nat := 64 * 1024 * 1024

/-- A place in the input: how many bytes came before it, and some of those that follow. -/
structure Place where
  offset : Nat
  bytes : Bytes
  deriving Repr, DecidableEq

/-- What reading at a place gives. -/
inductive Reading (α : Type) where
  /-- Something was read, and reading goes on at `rest`. -/
  | done (value : α) (rest : Place)
  /-- The bytes end too early, by at least `missing` bytes. -/
  | more (missing : Nat)
  /-- The bytes are malformed. -/
  | fail (error : DecodeError)

/-- Reads something of type `α` at a place. -/
def Reader (α : Type) : Type := Place → Reading α

namespace Reader

def pure {α : Type} (a : α) : Reader α := fun place => .done a place

/-- Reads one thing after the other. -/
def bind {α β : Type} (r : Reader α) (f : α → Reader β) : Reader β := fun place =>
  match r place with
  | .done a rest => f a rest
  | .more missing => .more missing
  | .fail error => .fail error

instance : Monad Reader where
  pure := pure
  bind := bind

def fail {α : Type} (error : DecodeError) : Reader α := fun _ => .fail error

/-- The offset of the place that is read next. -/
def offset : Reader Nat := fun place => .done place.offset place

def byte : Reader UInt8 := fun place =>
  match place.bytes with
  | [] => .more 1
  | b :: rest => .done b ⟨place.offset + 1, rest⟩

def take (n : Nat) : Reader Bytes := fun place =>
  let front := place.bytes.take n
  if front.length = n then .done front ⟨place.offset + n, place.bytes.drop n⟩
  else .more (n - front.length)

def varint : Reader UInt64 := fun place =>
  match Varint.read place.bytes with
  | .complete value used => .done value ⟨place.offset + used, place.bytes.drop used⟩
  | .incomplete => .more 1
  | .overflow => .fail (.varintOverflow place.offset)

/-- A length or count, which may not exceed `maxLength`. -/
def length : Reader Nat := do
  let start ← offset
  let value ← varint
  if value.toNat ≤ maxLength then pure value.toNat
  else fail (.lengthOverflow value.toNat maxLength start)

/-- A text of `n` bytes. -/
def text (n : Nat) : Reader String := do
  let start ← offset
  let body ← take n
  match Bytes.toString? body with
  | some s => pure s
  | none => fail (.invalidUtf8 start)

/-- An integer of `width` bytes in two's complement. -/
def int (width : Nat) : Reader Int64 := do
  let body ← take width
  pure (Int64.ofInt (Bytes.toInt body))

/-! ## What a reader uses up -/

/-- Whatever this reader takes is made of the next bytes, `least` of them or more. -/
def Uses {α : Type} (least : Nat) (r : Reader α) : Prop :=
  ∀ place a rest, r place = .done a rest → ∃ used : Bytes,
    place.bytes = used ++ rest.bytes ∧ rest.offset = place.offset + used.length ∧
      least ≤ used.length

variable {α β : Type}

theorem Uses.weaken {least more : Nat} {r : Reader α} (h : r.Uses more) (le : least ≤ more) :
    r.Uses least := by
  intro place a rest read
  obtain ⟨used, bytes, offset, long⟩ := h place a rest read
  exact ⟨used, bytes, offset, Nat.le_trans le long⟩

theorem uses_pure (a : α) : Uses 0 (Pure.pure a : Reader α) := by
  intro place b rest read
  cases read
  exact ⟨[], rfl, rfl, Nat.le_refl 0⟩

theorem uses_fail (error : DecodeError) : Uses 0 (fail error : Reader α) := by
  intro place a rest read
  cases read

theorem uses_offset : Uses 0 offset := by
  intro place a rest read
  cases read
  exact ⟨[], rfl, rfl, Nat.le_refl 0⟩

/-- What is read one after the other stands one behind the other. -/
theorem Uses.bind {m n : Nat} {r : Reader α} {f : α → Reader β} (first : r.Uses m)
    (second : ∀ a, (f a).Uses n) : Uses (m + n) (r >>= f) := by
  intro place b rest read
  change Reader.bind r f place = .done b rest at read
  unfold Reader.bind at read
  cases h : r place with
  | more missing => simp [h] at read
  | fail error => simp [h] at read
  | done a middle =>
    rw [h] at read
    obtain ⟨used, bytes, offset, long⟩ := first place a middle h
    obtain ⟨used', bytes', offset', long'⟩ := second a middle b rest read
    refine ⟨used ++ used', ?_, ?_, ?_⟩
    · rw [bytes, bytes', List.append_assoc]
    · rw [offset', offset, List.length_append, Nat.add_assoc]
    · rw [List.length_append]
      exact Nat.add_le_add long long'

theorem uses_ite {least : Nat} {p : Prop} [Decidable p] {r r' : Reader α} (h : r.Uses least)
    (h' : r'.Uses least) : Uses least (if p then r else r') := by
  split
  · exact h
  · exact h'

theorem uses_byte : Uses 1 byte := by
  intro place b rest read
  unfold byte at read
  split at read
  · cases read
  · rename_i bytes
    cases read
    exact ⟨[b], bytes, rfl, Nat.le_refl 1⟩

theorem uses_take (n : Nat) : Uses n (take n) := by
  intro place b rest read
  simp only [take] at read
  split at read
  · rename_i long
    cases read
    exact ⟨place.bytes.take n, (List.take_append_drop n place.bytes).symm, by rw [long],
      Nat.le_of_eq long.symm⟩
  · cases read

theorem uses_varint : Uses 1 varint := by
  intro place value rest read
  unfold varint at read
  split at read
  · rename_i value used h
    cases read
    obtain ⟨some, short⟩ := Varint.used_of_read h
    refine ⟨place.bytes.take used, (List.take_append_drop used place.bytes).symm, ?_, ?_⟩ <;>
      rw [List.length_take, Nat.min_eq_left short]
    exact some
  · cases read
  · cases read

theorem uses_length : Uses 1 length := by
  refine uses_offset.bind fun start => (uses_varint.bind fun value => ?_ : Uses (1 + 0) _)
  exact uses_ite (uses_pure _) (uses_fail _)

theorem uses_text (n : Nat) : Uses n (text n) := by
  refine (uses_offset.bind fun start => (uses_take n).bind fun body => ?_ : Uses (0 + (n + 0)) _)
    |>.weaken (by omega)
  split
  · exact uses_pure _
  · exact uses_fail _

theorem uses_int (width : Nat) : Uses width (int width) :=
  (uses_take width).bind fun _ => uses_pure _

end Reader

end Telemetry.Bysant
