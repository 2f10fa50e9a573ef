import Telemetry.Bysant.Frame
/-!
# What containers complain about

The items of a container are judged when all of them are in. A container says of each of them what
it has to be, and a complaint is about an item that is not: it tells the kind of the item and where
the item starts. Apart from that, a header or body is blamed for its keys and a quasi-periodic vector
for its shifts.
-/

namespace Telemetry.Bysant

/-! ## What an item has to be -/

/-- What an item of a container has to be, and how a complaint says so. -/
structure Want where
  words : String
  fits : Value → Prop

namespace Want

def number : Want := ⟨"number", fun v => v.number?.isSome⟩

def text : Want := ⟨"string", fun v => v.text?.isSome⟩

def bytes : Want := ⟨"bytes", fun v => v.bytes?.isSome⟩

def map : Want := ⟨"map", fun v => ∃ pairs, v = .map pairs⟩

def ints : Want :=
  ⟨"list of integers", fun v => ∃ vs ints, v = .list vs ∧ vs.mapM Value.int? = some ints⟩

def ticket : Want := ⟨"ticket id", fun v => (Item.ticketOf? v).isSome⟩

def optionalTicket : Want :=
  ⟨"ticket id or null", fun v => v = .null ∨ (Item.ticketOf? v).isSome⟩

def status : Want := ⟨"integer status", fun v => v.int?.isSome⟩

/-- The complaint about an item that does not fit. -/
def Refuses (want : Want) (item : Item) (e : DecodeError) : Prop :=
  ¬ want.fits item.value ∧ e = .wrongType want.words item.value.kind item.offset

end Want

/-- What the items of a container have to be, in order. Those of lists and maps may be anything. -/
def Container.wants : Container → List Want
  | list => []
  | map => []
  | delta => [.number, .number]
  | quasi => [.number, .number, .ints]
  | envelope => [.map, .bytes, .map]
  | message => [.text, .optionalTicket, .map]
  | response => [.ticket, .status, .text]

/-- Which item of a container has to be a map with texts for keys, and how a complaint about another
key says so. -/
def Container.keys? : Container → Option (Nat × String)
  | envelope => some (0, "string header key")
  | message => some (2, "string body key")
  | _ => none

/-- The complaints of a container with its tag at `start` about its items. -/
inductive Complains (container : Container) (start : Nat) (items : List Item) : DecodeError → Prop
  /-- An item is not what it has to be. -/
  | misfit {position : Nat} {item : Item} {want : Want} : items[position]? = some item →
    container.wants[position]? = some want → ¬ want.fits item.value →
      Complains container start items (.wrongType want.words item.value.kind item.offset)
  /-- A map has a key that is no text. The map is blamed for it. -/
  | key {position : Nat} {words : String} {item : Item} {pairs : List (Value × Value)}
    {key value : Value} : container.keys? = some (position, words) →
    items[position]? = some item → item.value = .map pairs → (key, value) ∈ pairs →
    key.text? = none → Complains container start items (.wrongType words key.kind item.offset)
  /-- The integers of a list are no shifts. The vector is blamed for it. -/
  | shifts {item : Item} {vs : List Value} {shifts : List Int64} {reason : ShiftsError} :
    container = .quasi → items[2]? = some item → item.value = .list vs →
    vs.mapM Value.int? = some shifts → countSamples 1 shifts = .error reason →
      Complains container start items (shiftsComplaint start reason)

/-! ## Items read as what they have to be -/

variable {item : Item} {e : DecodeError}

theorem of_bind_eq_error {α β : Type} {x : Except DecodeError α} {f : α → Except DecodeError β}
    (h : x >>= f = .error e) : x = .error e ∨ ∃ a, x = .ok a ∧ f a = .error e := by
  cases x with
  | error e' => exact .inl (Except.error.inj h ▸ rfl)
  | ok a => exact .inr ⟨a, rfl, h⟩

theorem of_expect_eq_ok {α : Type} {words : String} {view : Value → Option α} {a : α}
    (h : item.expect words view = .ok a) : view item.value = some a := by
  unfold Item.expect at h
  cases seen : view item.value with
  | none => simp [seen] at h
  | some a' => simpa [seen] using h

theorem refuses_of_expect (want : Want) {α : Type} {view : Value → Option α}
    (sees : ∀ v, want.fits v → (view v).isSome) (h : item.expect want.words view = .error e) :
    want.Refuses item e := by
  unfold Item.expect at h
  cases seen : view item.value with
  | none =>
    rw [seen] at h
    refine ⟨fun fits => ?_, (Except.error.inj h).symm⟩
    have := sees item.value fits
    rw [seen] at this
    cases this
  | some a =>
    rw [seen] at h
    cases h

theorem refuses_number (h : item.number = .error e) : Want.number.Refuses item e :=
  refuses_of_expect .number (fun _ fits => fits) h

theorem refuses_text (h : item.text = .error e) : Want.text.Refuses item e :=
  refuses_of_expect .text (fun _ fits => fits) h

theorem refuses_bytes (h : item.expect "bytes" Value.bytes? = .error e) :
    Want.bytes.Refuses item e := refuses_of_expect .bytes (fun _ fits => fits) h

theorem refuses_status (h : item.expect "integer status" Value.int? = .error e) :
    Want.status.Refuses item e := refuses_of_expect .status (fun _ fits => fits) h

theorem refuses_ticket (h : item.ticket = .error e) : Want.ticket.Refuses item e :=
  refuses_of_expect .ticket (fun _ fits => fits) h

theorem refuses_optionalTicket (h : item.optionalTicket = .error e) :
    Want.optionalTicket.Refuses item e := by
  refine refuses_of_expect .optionalTicket (fun v fits => ?_) h
  rcases fits with rfl | ticket
  · rfl
  · cases v with
    | int i => simpa using ticket
    | _ => cases ticket

theorem refuses_map (h : item.map = .error e) : Want.map.Refuses item e := by
  refine refuses_of_expect .map (fun v fits => ?_) h
  obtain ⟨pairs, rfl⟩ := fits
  rfl

theorem refuses_ints (h : item.ints = .error e) : Want.ints.Refuses item e := by
  refine refuses_of_expect .ints (fun v fits => ?_) h
  obtain ⟨vs, ints, rfl, same⟩ := fits
  exact Option.isSome_of_eq_some same

/-- An item that is read as a map is one. -/
theorem value_of_map {pairs : List (Value × Value)} (h : item.map = .ok pairs) :
    item.value = .map pairs := by
  have seen := of_expect_eq_ok h
  cases value : item.value with
  | map pairs' =>
    rw [value] at seen
    rw [Option.some.inj seen]
  | _ => simp [value] at seen

/-- An item that is read as integers is a list of them. -/
theorem value_of_ints {ints : List Int64} (h : item.ints = .ok ints) :
    ∃ vs, item.value = .list vs ∧ vs.mapM Value.int? = some ints := by
  have seen := of_expect_eq_ok h
  cases value : item.value with
  | list vs =>
    rw [value] at seen
    exact ⟨vs, rfl, seen⟩
  | _ => simp [value] at seen

theorem key_of_headerOfPairs {offset : Nat} {pairs : List (Value × Value)} {header : Header}
    (h : headerOfPairs offset pairs header = .error e) : ∃ key value, (key, value) ∈ pairs ∧
      key.text? = none ∧ e = .wrongType "string header key" key.kind offset := by
  induction pairs generalizing header with
  | nil => cases h
  | cons pair rest ih =>
    obtain ⟨key, value⟩ := pair
    unfold headerOfPairs at h
    cases read : key.text? with
    | none =>
      rw [read] at h
      exact ⟨key, value, List.mem_cons_self, read, (Except.error.inj h).symm⟩
    | some name =>
      rw [read] at h
      obtain ⟨key', value', member, found⟩ := ih h
      exact ⟨key', value', List.mem_cons_of_mem _ member, found⟩

theorem key_of_bodyOfPairs {offset : Nat} {pairs : List (Value × Value)}
    {body : Table String Value} (h : bodyOfPairs offset pairs body = .error e) :
    ∃ key value, (key, value) ∈ pairs ∧ key.text? = none ∧
      e = .wrongType "string body key" key.kind offset := by
  induction pairs generalizing body with
  | nil => cases h
  | cons pair rest ih =>
    obtain ⟨key, value⟩ := pair
    unfold bodyOfPairs at h
    cases read : key.text? with
    | none =>
      rw [read] at h
      exact ⟨key, value, List.mem_cons_self, read, (Except.error.inj h).symm⟩
    | some name =>
      rw [read] at h
      obtain ⟨key', value', member, found⟩ := ih h
      exact ⟨key', value', List.mem_cons_of_mem _ member, found⟩

theorem reason_of_ofShifts {period start : Number} {shifts : List Int64} {reason : ShiftsError}
    (h : QuasiPeriodicVector.ofShifts period start shifts = .error reason) :
    countSamples 1 shifts = .error reason := by
  unfold QuasiPeriodicVector.ofShifts at h
  split at h
  · cases h
  · rename_i reason' counted
    rw [counted, Except.error.inj h]

/-! ## Complaints -/

section Complains

variable {container : Container} {start position : Nat} {items : List Item} {want : Want}

theorem Complains.of_refuses (refuses : want.Refuses item e) (at_ : items[position]? = some item)
    (wants : container.wants[position]? = some want) : Complains container start items e := by
  obtain ⟨misfit, rfl⟩ := refuses
  exact .misfit at_ wants misfit

/-- A complaint is about the container or about one of its items. -/
theorem Complains.offset (h : Complains container start items e) :
    e.offset? = some start ∨ ∃ item ∈ items, e.offset? = some item.offset := by
  cases h with
  | misfit at_ => exact .inr ⟨_, List.mem_of_getElem? at_, rfl⟩
  | key _ at_ => exact .inr ⟨_, List.mem_of_getElem? at_, rfl⟩
  | @shifts _ _ _ reason => cases reason <;> exact .inl rfl

variable {first second third : Item}

theorem complains_of_deltaOf {deltas : List Int64} (at0 : items[0]? = some first)
    (at1 : items[1]? = some second) (h : deltaOf first second deltas = .error e) :
    Complains .delta start items e := by
  unfold deltaOf at h
  rcases of_bind_eq_error h with h | ⟨_, -, h⟩
  · exact .of_refuses (refuses_number h) at0 rfl
  rcases of_bind_eq_error h with h | ⟨_, -, h⟩
  · exact .of_refuses (refuses_number h) at1 rfl
  · cases h

variable (at0 : items[0]? = some first) (at1 : items[1]? = some second)
  (at2 : items[2]? = some third)

include at0 at1 at2

theorem complains_of_quasiOf (h : quasiOf start first second third = .error e) :
    Complains .quasi start items e := by
  unfold quasiOf at h
  rcases of_bind_eq_error h with h | ⟨period, -, h⟩
  · exact .of_refuses (refuses_number h) at0 rfl
  rcases of_bind_eq_error h with h | ⟨origin, -, h⟩
  · exact .of_refuses (refuses_number h) at1 rfl
  rcases of_bind_eq_error h with h | ⟨shifts, read, h⟩
  · exact .of_refuses (refuses_ints h) at2 rfl
  cases made : QuasiPeriodicVector.ofShifts period origin shifts with
  | ok vector =>
    rw [made] at h
    cases h
  | error reason =>
    rw [made] at h
    obtain rfl := Except.error.inj h
    obtain ⟨vs, value, ints⟩ := value_of_ints read
    exact .shifts rfl at2 value ints (reason_of_ofShifts made)

theorem complains_of_envelopeOf (h : envelopeOf first second third = .error e) :
    Complains .envelope start items e := by
  unfold envelopeOf at h
  rcases of_bind_eq_error h with h | ⟨pairs, read, h⟩
  · exact .of_refuses (refuses_map h) at0 rfl
  rcases of_bind_eq_error h with h | ⟨_, -, h⟩
  · obtain ⟨key, value, member, other, rfl⟩ := key_of_headerOfPairs h
    exact .key rfl at0 (value_of_map read) member other
  rcases of_bind_eq_error h with h | ⟨_, -, h⟩
  · exact .of_refuses (refuses_bytes h) at1 rfl
  rcases of_bind_eq_error h with h | ⟨_, -, h⟩
  · exact .of_refuses (refuses_map h) at2 rfl
  · cases h

theorem complains_of_messageOf (h : messageOf first second third = .error e) :
    Complains .message start items e := by
  unfold messageOf at h
  rcases of_bind_eq_error h with h | ⟨_, -, h⟩
  · exact .of_refuses (refuses_text h) at0 rfl
  rcases of_bind_eq_error h with h | ⟨_, -, h⟩
  · exact .of_refuses (refuses_optionalTicket h) at1 rfl
  rcases of_bind_eq_error h with h | ⟨pairs, read, h⟩
  · exact .of_refuses (refuses_map h) at2 rfl
  rcases of_bind_eq_error h with h | ⟨_, -, h⟩
  · obtain ⟨key, value, member, other, rfl⟩ := key_of_bodyOfPairs h
    exact .key rfl at2 (value_of_map read) member other
  · cases h

theorem complains_of_responseOf (h : responseOf first second third = .error e) :
    Complains .response start items e := by
  unfold responseOf at h
  rcases of_bind_eq_error h with h | ⟨_, -, h⟩
  · exact .of_refuses (refuses_ticket h) at0 rfl
  rcases of_bind_eq_error h with h | ⟨_, -, h⟩
  · exact .of_refuses (refuses_status h) at1 rfl
  rcases of_bind_eq_error h with h | ⟨_, -, h⟩
  · exact .of_refuses (refuses_text h) at2 rfl
  · cases h

end Complains

theorem Frame.getElem?_item {f : Frame} {position : Nat} (inside : position < f.items.length) :
    f.items.reverse[position]? = some (f.item position) := by
  have inside : position < f.items.reverse.length := by rwa [List.length_reverse]
  rw [Frame.item, List.getElem?_eq_getElem inside, Option.getD_some]

/-- A container in which no item is missing fails to become a value only with a complaint. -/
theorem Frame.complains_of_finish {f : Frame} {deltas : List Int64}
    (full : f.container.wants.length ≤ f.items.length) (h : f.finish deltas = .error e) :
    Complains f.container f.offset f.items.reverse e := by
  have item {position : Nat} (wanted : position < f.container.wants.length) :=
    f.getElem?_item (Nat.lt_of_lt_of_le wanted full)
  unfold Frame.finish at h
  generalize f.container = container at item h ⊢
  cases container with
  | list => cases h
  | map => cases h
  | delta => exact complains_of_deltaOf (item (by decide)) (item (by decide)) h
  | quasi => exact complains_of_quasiOf (item (by decide)) (item (by decide)) (item (by decide)) h
  | envelope =>
    exact complains_of_envelopeOf (item (by decide)) (item (by decide)) (item (by decide)) h
  | message =>
    exact complains_of_messageOf (item (by decide)) (item (by decide)) (item (by decide)) h
  | response =>
    exact complains_of_responseOf (item (by decide)) (item (by decide)) (item (by decide)) h

end Telemetry.Bysant
