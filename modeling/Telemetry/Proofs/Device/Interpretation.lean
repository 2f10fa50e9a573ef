import Telemetry.Device.Client
import Telemetry.Proofs.Bysant.Completeness
/-!
# What a client makes of a response

A response whose header holds a status of 16 bits other than 200 is an error with this status,
whatever its payload is. Any other response comes to the protocol units of its payload, also one with
a status that is no integer of 16 bits: it is taken for success, as if it had none.
-/

namespace Telemetry

open Bysant

namespace Bysant

/-- Envelopes, messages and responses are protocol units. -/
def Value.isUnit : Value → Bool
  | .envelope _ | .message _ | .response _ => true
  | _ => false

namespace StatusCode

variable {v : Value} {status : StatusCode}

theorem toInt_toValue (status : StatusCode) :
    (Int64.ofNat status.code.toNat).toInt = status.code.toNat := by
  have bound := status.code.toNat_lt
  exact Int64.toInt_ofNat_of_lt (by omega)

/-- A value is read as the status that it stands for. -/
theorem ofValue?_eq_some_iff : ofValue? v = some status ↔ v = status.toValue := by
  constructor
  · intro read
    unfold ofValue? at read
    split at read
    · rename_i i
      split at read
      · rename_i inside
        obtain ⟨lower, upper⟩ := inside
        have exact := toInt_toValue ⟨UInt16.ofNat i.toInt.toNat⟩
        cases read
        rw [UInt16.toNat_ofNat_of_lt' (by omega)] at exact
        rw [toValue, UInt16.toNat_ofNat_of_lt' (by omega)]
        exact congrArg Value.int (Int64.toInt_inj.mp (by omega))
      · cases read
    · cases read
  · rintro rfl
    rw [toValue, ofValue?, toInt_toValue,
      if_pos ⟨Int.natCast_nonneg _, Int.ofNat_lt.mpr status.code.toNat_lt⟩, Int.toNat_natCast,
      UInt16.ofNat_toNat]

theorem toValue_inj {other : StatusCode} (same : status.toValue = other.toValue) :
    status = other := by
  have read := ofValue?_eq_some_iff.mpr same
  rw [ofValue?_eq_some_iff.mpr rfl] at read
  exact Option.some.inj read

/-- Statuses are the integers of 16 bits without sign. -/
theorem exists_eq_toValue_iff :
    (∃ status, v = toValue status) ↔ ∃ i, v = .int i ∧ 0 ≤ i.toInt ∧ i.toInt < 2 ^ 16 := by
  constructor
  · rintro ⟨status, rfl⟩
    have bound := status.code.toNat_lt
    exact ⟨_, rfl, by rw [toInt_toValue]; omega, by rw [toInt_toValue]; omega⟩
  · rintro ⟨i, rfl, inside⟩
    exact ⟨⟨UInt16.ofNat i.toInt.toNat⟩, ofValue?_eq_some_iff.mp (if_pos inside)⟩

end StatusCode

namespace Header

/-- The header says that the request failed: it holds a status of 16 bits other than 200. -/
def Refuses (h : Header) (status : StatusCode) : Prop :=
  status ≠ .ok ∧ h.get? .status = some status.toValue

/-- The headers that do not say that the request failed hold no status, or 200, or a value that is
no integer of 16 bits. -/
theorem forall_not_refuses_iff (h : Header) : (∀ status, ¬ h.Refuses status) ↔
    ∀ value, h.get? .status = some value →
      value = .int 200 ∨ ¬ ∃ i, value = .int i ∧ 0 ≤ i.toInt ∧ i.toInt < 2 ^ 16 := by
  simp only [← StatusCode.exists_eq_toValue_iff]
  constructor
  · rintro accepts value found
    by_cases status : ∃ status, value = StatusCode.toValue status
    · obtain ⟨status, rfl⟩ := status
      have success : status = .ok := by
        by_contra failed
        exact accepts status ⟨failed, found⟩
      exact .inl (congrArg StatusCode.toValue success)
    · exact .inr status
  · rintro accepts status ⟨failed, found⟩
    rcases accepts _ found with success | unread
    · exact failed (StatusCode.toValue_inj success)
    · exact unread ⟨status, rfl⟩

end Header

end Bysant

namespace Client

theorem interpret_of_refuses {e : Envelope} {status : StatusCode}
    (refuses : e.header.Refuses status) : interpret e = .error (.status status) := by
  obtain ⟨failed, found⟩ := refuses
  have read : e.status? = some status := by
    rw [Envelope.status?, found]
    exact StatusCode.ofValue?_eq_some_iff.mpr rfl
  unfold interpret
  rw [read]
  exact if_pos failed

theorem interpret_of_accepts {e : Envelope} (accepts : ∀ status, ¬ e.header.Refuses status) :
    interpret e = ((decode e.payload).mapError ClientError.decode).map fun values =>
      values.filter Value.isUnit := by
  have success : e.status?.getD .ok = .ok := by
    cases read : e.status? with
    | none => rfl
    | some status =>
      obtain ⟨value, found, is⟩ := Option.bind_eq_some_iff.mp read
      obtain rfl := StatusCode.ofValue?_eq_some_iff.mp is
      by_contra failed
      exact accepts status ⟨failed, found⟩
  unfold interpret
  rw [success]
  cases decode e.payload <;> rfl

/-- A response is an error with a status exactly if its header holds this status and it is not 200,
whatever the payload is. Of any other response the protocol units of the payload are taken in order,
or else the error that comes of decoding it. A status that is no integer of 16 bits does not change
that. -/
theorem interpret_spec (e : Envelope) :
    (∀ status, interpret e = .error (.status status) ↔ e.header.Refuses status) ∧
    (∀ error, interpret e = .error (.decode error) ↔
      (∀ status, ¬ e.header.Refuses status) ∧ decode e.payload = .error error) ∧
    (∀ units, interpret e = .ok units ↔ (∀ status, ¬ e.header.Refuses status) ∧
      ∃ values, decode e.payload = .ok values ∧ units = values.filter Value.isUnit) ∧
    ((∀ status, ¬ e.header.Refuses status) ↔ ∀ value, e.header.get? .status = some value →
      value = .int 200 ∨ ¬ ∃ i, value = .int i ∧ 0 ≤ i.toInt ∧ i.toInt < 2 ^ 16) := by
  by_cases refused : ∃ status, e.header.Refuses status
  · obtain ⟨status, refuses⟩ := refused
    rw [interpret_of_refuses refuses]
    have only (other : StatusCode) : e.header.Refuses other ↔ status = other :=
      ⟨fun also => StatusCode.toValue_inj (Option.some.inj (refuses.2.symm.trans also.2)),
        fun same => same ▸ refuses⟩
    have refused : ¬ ∀ status, ¬ e.header.Refuses status := fun accepts => accepts status refuses
    refine ⟨fun other => ?_, fun error => ?_, fun units => ?_, e.header.forall_not_refuses_iff⟩
    · simp [only]
    · exact iff_of_false (by simp) fun found => refused found.1
    · exact iff_of_false (by simp) fun found => refused found.1
  · have accepts : ∀ status, ¬ e.header.Refuses status := not_exists.mp refused
    rw [interpret_of_accepts accepts]
    refine ⟨fun status => ?_, fun error => ?_, fun units => ?_, e.header.forall_not_refuses_iff⟩
    · refine iff_of_false ?_ (accepts status)
      cases decode e.payload <;> simp [Except.map, Except.mapError]
    · cases decode e.payload <;> simp [Except.map, Except.mapError, accepts]
    · cases decode e.payload <;> simp [Except.map, Except.mapError, accepts, eq_comm]

/-! ## A status that is not read -/

/-- What a message reports. -/
def reading : List Value := [.message ⟨"@sys", none, [("temp", .int 3)]⟩]

/-- The message under the status -1. -/
def negativeReport : Envelope := ⟨⟨[(.status, .int (-1))]⟩, encodeAll reading, []⟩

theorem interpret_negativeReport : interpret negativeReport = .ok reading := by
  have decoded : decode negativeReport.payload = .ok reading := by
    have representable : ∀ v ∈ reading, v.Representable := by decide +kernel
    have wellFormed : ∀ v ∈ reading, v.WellFormed := by decide +kernel
    exact decode_encodeAll_of_sound fun v member =>
      sound_iff.mpr ⟨representable v member, wellFormed v member⟩
  have accepts : ∀ status, ¬ negativeReport.header.Refuses status := by
    refine negativeReport.header.forall_not_refuses_iff.mpr fun value found => .inr ?_
    obtain rfl := Option.some.inj found
    rintro ⟨i, same, lower, -⟩
    obtain rfl := Value.int.inj same
    exact absurd lower (by decide)
  rw [interpret_of_accepts accepts, decoded]
  rfl

/-- It is not so that every response with a status other than 200 is an error. -/
theorem takes_failed_for_success : ¬ ∀ (e : Envelope) (value : Value),
    e.header.get? .status = some value → value ≠ .int 200 →
      ∃ status, interpret e = .error (.status status) := by
  intro all
  obtain ⟨status, failed⟩ := all negativeReport (.int (-1)) rfl fun same =>
    absurd (Value.int.inj same) (by decide)
  rw [interpret_negativeReport] at failed
  cases failed

end Client

end Telemetry
