import Telemetry.Bysant.Decoder
import Telemetry.Proofs.Bysant.Chunks
import Telemetry.Proofs.Bysant.Header
import Telemetry.Proofs.Bysant.Representable
import Telemetry.Proofs.Table
/-!
# What is written is read back

A container whose items are those that a value is written as turns out to be that value. From this,
by induction on the room that is left for containers, the decoder reads any sound value back from
its encoding, whatever containers are open around it and whatever follows.
-/

namespace Telemetry.Bysant

open Value

/-! ## Finishing containers -/

section Finish

variable {item : Item}

theorem Item.expect_eq {α : Type} {expected : String} {view : Value → Option α} {a : α}
    (seen : view item.value = some a) : item.expect expected view = .ok a := by
  simp [Item.expect, seen]

theorem Item.number_eq {n : Number} (is : item.value = ofNumber n) : item.number = .ok n := by
  refine Item.expect_eq ?_
  rw [is]
  cases n <;> rfl

theorem Item.text_eq {s : String} (is : item.value = .text s) : item.text = .ok s :=
  Item.expect_eq (by rw [is]; rfl)

theorem Item.map_eq {pairs : List (Value × Value)} (is : item.value = .map pairs) :
    item.map = .ok pairs := Item.expect_eq (by rw [is])

theorem mapM_int? (values : List Int64) : (values.map Value.int).mapM Value.int? = some values := by
  induction values with
  | nil => rfl
  | cons value rest ih =>
    rw [List.map_cons, List.mapM_cons, ih]
    rfl

theorem Item.ints_eq {values : List Int64} (is : item.value = .list (values.map .int)) :
    item.ints = .ok values := by
  refine Item.expect_eq ?_
  rw [is]
  exact mapM_int? values

theorem ticketOf?_int (ticket : UInt32) :
    Item.ticketOf? (.int (Int64.ofNat ticket.toNat)) = some ticket := by
  have small := ticket.toNat_lt
  have same : (Int64.ofNat ticket.toNat).toInt = ticket.toNat :=
    Int64.toInt_ofNat_of_lt (by omega)
  rw [Item.ticketOf?, same, if_pos ⟨by omega, by simpa [UInt32.size] using small⟩, Int.toNat_natCast,
    UInt32.ofNat_toNat]

theorem Item.optionalTicket_eq {ticket : Option UInt32} (is : item.value = ticketValue ticket) :
    item.optionalTicket = .ok ticket := by
  refine Item.expect_eq ?_
  rw [is]
  cases ticket with
  | none => rfl
  | some ticket =>
    exact congrArg (Option.map some) (ticketOf?_int ticket)

/-- A header is read back from the map that it is sent as, behind the entries read so far. -/
theorem headerOfPairs_headerPairs {offset : Nat} {entries acc : List (HeaderKey × Value)}
    (canonical : ∀ key ∈ entries.map Prod.fst, HeaderKey.ofName key.name = key)
    (distinct : ((acc ++ entries).map Prod.fst).Nodup) :
    headerOfPairs offset (headerPairs entries) ⟨acc⟩ = .ok ⟨acc ++ entries⟩ := by
  induction entries generalizing acc with
  | nil => simp [headerPairs, headerOfPairs]
  | cons entry rest ih =>
    obtain ⟨first, others⟩ := List.forall_mem_cons.mp canonical
    rw [List.append_cons] at distinct ⊢
    have new : entry.1 ∉ acc.map Prod.fst := by
      rw [List.map_append, List.map_append] at distinct
      have first := (List.nodup_append.mp (List.nodup_append.mp distinct).1).2.2
      exact fun member => first _ member _ (List.mem_singleton_self _) rfl
    change headerOfPairs offset (headerPairs rest)
      (Header.insert ⟨acc⟩ (HeaderKey.ofName entry.1.name) entry.2) = _
    rw [first, Header.insert, Header.put_of_not_mem new]
    exact ih others distinct

/-- A body is read back from the map that it is sent as, behind the entries read so far. -/
theorem bodyOfPairs_bodyPairs {offset : Nat} {body acc : Table String Value}
    (ordered : Table.Ordered (acc ++ body)) :
    bodyOfPairs offset (bodyPairs body) acc = .ok (acc ++ body) := by
  induction body generalizing acc with
  | nil => simp [bodyPairs, bodyOfPairs]
  | cons entry rest ih =>
    rw [List.append_cons] at ordered ⊢
    have last : ∀ k ∈ Table.keys acc, k < entry.1 := by
      unfold Table.Ordered Table.keys at ordered
      simp only [List.map_append, List.pairwise_append] at ordered
      intro k member
      exact ordered.1.2.2 k member entry.1 (by simp)
    change bodyOfPairs offset (bodyPairs rest) (Table.put entry.1 entry.2 acc) = _
    rw [Table.put_of_forall_lt last]
    exact ih ordered

theorem ofShifts_eq (v : QuasiPeriodicVector) :
    QuasiPeriodicVector.ofShifts v.period v.start v.shifts = .ok v := by
  unfold QuasiPeriodicVector.ofShifts
  split
  · rfl
  · rename_i e h
    have := v.size_ok
    rw [h] at this
    cases this

theorem pairUp_flatPairs {items : List Item} {pairs : List (Value × Value)}
    (are : items.map Item.value = flatPairs pairs) : pairUp items = pairs := by
  induction pairs generalizing items with
  | nil =>
    obtain rfl : items = [] := List.map_eq_nil_iff.mp are
    rfl
  | cons pair rest ih =>
    obtain ⟨key, _, rfl, keyIs, are⟩ := List.map_eq_cons_iff.mp are
    obtain ⟨value, others, rfl, valueIs, are⟩ := List.map_eq_cons_iff.mp are
    rw [pairUp, ih are, keyIs, valueIs]

theorem envelopeOf_eq {e : Envelope} {header payload footer : Item}
    (canonical : ∀ key ∈ e.header.keys, HeaderKey.ofName key.name = key)
    (distinct : e.header.keys.Nodup) (headerIs : header.value = .map (headerPairs e.header.entries))
    (payloadIs : payload.value = .bytes e.payload) (footerIs : footer.value = .map e.footer) :
    envelopeOf header payload footer = .ok (.envelope e) := by
  obtain ⟨⟨entries⟩, content, footer'⟩ := e
  have body : payload.expect "bytes" Value.bytes? = .ok content :=
    Item.expect_eq (by rw [payloadIs]; rfl)
  have read : headerOfPairs header.offset (headerPairs entries) .empty = .ok ⟨[] ++ entries⟩ :=
    headerOfPairs_headerPairs canonical distinct
  unfold envelopeOf
  rw [Item.map_eq headerIs, body, Item.map_eq footerIs]
  simp only [bind, Except.bind, read]
  rfl

theorem messageOf_eq {m : Message} {path ticket body : Item} (ordered : Table.Ordered m.body)
    (pathIs : path.value = .text m.path) (ticketIs : ticket.value = ticketValue m.ticket)
    (bodyIs : body.value = .map (bodyPairs m.body)) :
    messageOf path ticket body = .ok (.message m) := by
  obtain ⟨name, t, entries⟩ := m
  have read : bodyOfPairs body.offset (bodyPairs entries) [] = .ok entries :=
    bodyOfPairs_bodyPairs ordered
  unfold messageOf
  rw [Item.text_eq pathIs, Item.optionalTicket_eq ticketIs, Item.map_eq bodyIs]
  simp only [bind, Except.bind, read]
  rfl

theorem responseOf_eq {r : Response} {ticket status message : Item}
    (ticketIs : ticket.value = .int (Int64.ofNat r.ticket.toNat))
    (statusIs : status.value = .int r.status) (messageIs : message.value = .text r.message) :
    responseOf ticket status message = .ok (.response r) := by
  have number : ticket.ticket = .ok r.ticket :=
    Item.expect_eq (by rw [ticketIs]; exact ticketOf?_int r.ticket)
  have code : status.expect "integer status" Value.int? = .ok r.status :=
    Item.expect_eq (by rw [statusIs]; rfl)
  unfold responseOf
  rw [number, code, Item.text_eq messageIs]
  rfl

theorem deltaOf_eq {v : DeltaVector} {factor start : Item} (factorIs : factor.value = ofNumber v.factor)
    (startIs : start.value = ofNumber v.start) : deltaOf factor start v.deltas = .ok (.delta v) := by
  unfold deltaOf
  rw [Item.number_eq factorIs, Item.number_eq startIs]
  rfl

theorem quasiOf_eq {v : QuasiPeriodicVector} {offset : Nat} {period start shifts : Item}
    (periodIs : period.value = ofNumber v.period) (startIs : start.value = ofNumber v.start)
    (shiftsAre : shifts.value = .list (v.shifts.map .int)) :
    quasiOf offset period start shifts = .ok (.quasi v) := by
  unfold quasiOf
  rw [Item.number_eq periodIs, Item.number_eq startIs, Item.ints_eq shiftsAre]
  simp only [bind, Except.bind, ofShifts_eq]
  rfl

end Finish

def Value.deltas : Value → List Int64
  | .delta v => v.deltas
  | _ => []

theorem Frame.value_item {f : Frame} {values : List Value} {i : Nat} {v : Value}
    (are : f.items.reverse.map Item.value = values) (there : values[i]? = some v) :
    (f.item i).value = v := by
  subst are
  rw [List.getElem?_map] at there
  unfold Frame.item
  cases h : f.items.reverse[i]? with
  | none => simp [h] at there
  | some item => simpa [h] using there

/-- A container whose items are those that a value is written as turns out to be that value. -/
theorem Frame.finish_eq {f : Frame} {v : Value} (is : v.container? = some f.container)
    (sound : v.isSound = true) (are : f.items.reverse.map Item.value = v.items) :
    f.finish v.deltas = .ok v := by
  have value {i : Nat} {item : Value} (there : v.items[i]? = some item) :=
    Frame.value_item are there
  obtain ⟨container, offset, items, missing⟩ := f
  simp only [Value.isSound, Bool.and_eq_true] at sound
  obtain ⟨-, canonical, tabular⟩ := sound
  cases v <;> cases is
  case list values => exact congrArg (Except.ok ∘ Value.list) are
  case map pairs => exact congrArg (Except.ok ∘ Value.map) (pairUp_flatPairs are)
  case delta v => exact deltaOf_eq (value (i := 0) rfl) (value (i := 1) rfl)
  case quasi v => exact quasiOf_eq (value (i := 0) rfl) (value (i := 1) rfl) (value (i := 2) rfl)
  case envelope e =>
    simp only [isCanonical, isTabular, decide_eq_true_eq] at canonical tabular
    exact envelopeOf_eq canonical tabular (value (i := 0) rfl) (value (i := 1) rfl)
      (value (i := 2) rfl)
  case message m =>
    simp only [isTabular, decide_eq_true_eq] at tabular
    exact messageOf_eq tabular (value (i := 0) rfl) (value (i := 1) rfl) (value (i := 2) rfl)
  case response r =>
    exact responseOf_eq (value (i := 0) rfl) (value (i := 1) rfl) (value (i := 2) rfl)

/-! ## Reading on to the end of a value -/

/-- Token by token, reading leads from open containers at one place to what the last token brings
about at another. -/
inductive Reads : List Frame → Place → Progress → Place → Prop
  | last {stack : List Frame} {place rest : Place} {progress : Progress}
      (step : readStep stack place = .done progress rest) : Reads stack place progress rest
  | next {stack stack' : List Frame} {place middle rest : Place} {progress : Progress}
      (step : readStep stack place = .done (.inside stack') middle)
      (more : Reads stack' middle progress rest) : Reads stack place progress rest

variable {stack stack' : List Frame} {frame : Frame} {place middle : Place} {progress : Progress}
  {offset room : Nat} {rest : Bytes}

theorem Reads.trans {after : Place} (first : Reads stack place (.inside stack') middle)
    (more : Reads stack' middle progress after) : Reads stack place progress after := by
  generalize inside : Progress.inside stack' = between at first
  induction first with
  | last step =>
    subst inside
    exact .next step more
  | next step _ ih => exact .next step (ih more inside)

/-- What comes of a container once its items so far are in. -/
def complete (frame : Frame) (stack : List Frame) : Except DecodeError Progress :=
  if frame.isFull then
    match frame.finish [] with
    | .ok value => close stack ⟨frame.offset, value⟩
    | .error e => .error e
  else .ok (.inside (frame :: stack))

theorem close_cons (frame : Frame) (stack : List Frame) (item : Item) :
    close (frame :: stack) item = complete (frame.push item) stack := rfl

theorem takeToken_head (container : Container) (items offset : Nat) (room : stack.length < maxDepth) :
    takeToken stack offset (.head container items) =
      complete (Frame.start container offset items) stack := by
  rw [takeToken, if_neg (Nat.not_le.mpr room)]
  rfl

theorem readStep_token {front : Bytes} {token : Token} (takes : Token.read.Takes front token)
    (idle : wantsDeltas stack = false) (taken : takeToken stack offset token = .ok progress) :
    readStep stack ⟨offset, front ++ rest⟩ = .done progress ⟨offset + front.length, rest⟩ := by
  simp only [readStep, idle, takes offset rest, settle, taken]
  rfl

theorem readStep_deltas {front : Bytes} {deltas : List Int64} (takes : readDeltas.Takes front deltas)
    (awaits : wantsDeltas stack = true) (taken : takeDeltas deltas stack = .ok progress) :
    readStep stack ⟨offset, front ++ rest⟩ = .done progress ⟨offset + front.length, rest⟩ := by
  simp only [readStep, awaits, takes offset rest, settle, taken]
  rfl

/-- A container with the values in that are written from an offset on. -/
def Frame.pushAll (frame : Frame) (offset : Nat) : List Value → Frame
  | [] => frame
  | v :: others => (frame.push ⟨offset, v⟩).pushAll (offset + (encode v).length) others

theorem Frame.pushAll_eq (frame : Frame) (offset : Nat) (values : List Value) : ∃ items : List Item,
    frame.pushAll offset values =
      { frame with items := items ++ frame.items, missing := frame.missing - values.length } ∧
    items.reverse.map Item.value = values := by
  induction values generalizing frame offset with
  | nil => exact ⟨[], rfl, rfl⟩
  | cons v others ih =>
    obtain ⟨items, pushed, are⟩ := ih (frame.push ⟨offset, v⟩) (offset + (encode v).length)
    refine ⟨items ++ [⟨offset, v⟩], ?_, ?_⟩
    · rw [pushAll, pushed]
      simp only [push, List.append_assoc, List.singleton_append, List.length_cons]
      congr 1
      omega
    · simp [are]

theorem Frame.pushAll_start (container : Container) (place offset : Nat) (values : List Value) :
    ∃ full : Frame, (Frame.start container place values.length).pushAll offset values = full ∧
      full.container = container ∧ full.offset = place ∧ full.missing = 0 ∧
      full.items.reverse.map Item.value = values := by
  obtain ⟨items, pushed, are⟩ := pushAll_eq (Frame.start container place values.length) offset values
  exact ⟨_, pushed, rfl, rfl, Nat.sub_self _, by simpa [start] using are⟩

/-- Whatever containers are open, a value is read to its end, as if it were handed over at once. -/
def IsRead (room : Nat) (v : Value) : Prop :=
  ∀ stack offset rest progress, wantsDeltas stack = false → stack.length + room ≤ maxDepth →
    close stack ⟨offset, v⟩ = .ok progress →
      Reads stack ⟨offset, encode v ++ rest⟩ progress ⟨offset + (encode v).length, rest⟩

/-- Items that are read one by one are read one after the other. -/
theorem reads_items {values : List Value} (read : ∀ v ∈ values, IsRead room v) (some : values ≠ [])
    (missing : frame.missing = values.length) (fits : stack.length + 1 + room ≤ maxDepth)
    (completed : complete (frame.pushAll offset values) stack = .ok progress) :
    Reads (frame :: stack) ⟨offset, encodeAll values ++ rest⟩ progress
      ⟨offset + (encodeAll values).length, rest⟩ := by
  -- the frame grows from item to item, so that the claim is about every frame that lacks the rest
  induction values generalizing frame offset with
  | nil => exact absurd rfl some
  | cons v others ih =>
    obtain ⟨first, read⟩ := List.forall_mem_cons.mp read
    have idle : wantsDeltas (frame :: stack) = false := by
      simp [wantsDeltas, Frame.awaitsDeltas, missing]
    have pushed := close_cons frame stack ⟨offset, v⟩
    have apart : encodeAll (v :: others) ++ rest = encode v ++ (encodeAll others ++ rest) :=
      List.append_assoc ..
    have long : offset + (encodeAll (v :: others)).length =
        offset + (encode v).length + (encodeAll others).length := by
      rw [encodeAll, List.length_append, Nat.add_assoc]
    rw [apart, long]
    cases others with
    | nil => exact first (frame :: stack) offset rest progress idle fits (pushed.trans completed)
    | cons w others =>
      have open' : (frame.push ⟨offset, v⟩).isFull = false := by
        simp [Frame.isFull, Frame.push, missing]
      have inside : complete (frame.push ⟨offset, v⟩) stack =
          .ok (.inside (frame.push ⟨offset, v⟩ :: stack)) := by
        rw [complete, open']
        rfl
      refine (first (frame :: stack) offset _ _ idle fits (pushed.trans inside)).trans ?_
      refine ih read (by simp) ?_ completed
      simp [Frame.push, missing]

/-- A container is read up to the end of its items. -/
theorem reads_container {container : Container} {front : Bytes} {values : List Value}
    (takes : Token.read.Takes front (.head container values.length))
    (read : ∀ v ∈ values, IsRead room v) (idle : wantsDeltas stack = false)
    (fits : stack.length + 1 + room ≤ maxDepth)
    (completed : complete ((Frame.start container offset values.length).pushAll
      (offset + front.length) values) stack = .ok progress) :
    Reads stack ⟨offset, front ++ (encodeAll values ++ rest)⟩ progress
      ⟨offset + front.length + (encodeAll values).length, rest⟩ := by
  have head := takeToken_head container values.length offset (by omega : stack.length < maxDepth)
  by_cases none : values = []
  · subst none
    exact .last (readStep_token takes idle (head.trans completed))
  · have open' : (Frame.start container offset values.length).isFull = false := by
      simp [Frame.isFull, Frame.start, none]
    have inside : complete (Frame.start container offset values.length) stack =
        .ok (.inside (Frame.start container offset values.length :: stack)) := by
      rw [complete, open']
      rfl
    exact .next (readStep_token takes idle (head.trans inside))
      (reads_items read none rfl fits completed)

theorem isRead_of_leaf {v : Value} (leaf : v.container? = none) (short : v.isShort = true) :
    IsRead room v := fun _ _ _ _ idle _ closed =>
  .last (readStep_token (takes_encode_leaf leaf short) idle closed)

/-- Once the items of a container are in, what follows them completes it. -/
theorem isRead_of_items {v : Value} {container : Container} (is : v.container? = some container)
    (self : v.isSound = true) (read : ∀ item ∈ v.items, IsRead room item) :
    IsRead (room + 1) v := by
  intro stack offset rest progress idle fits closed
  have parts := self
  simp only [Value.isSound, Bool.and_eq_true] at parts
  obtain ⟨front, takes, written⟩ := encode_container is parts.1
  obtain ⟨full, pushed, kind, place, done, are⟩ :=
    Frame.pushAll_start container offset (offset + front.length) v.items
  have finished : full.finish v.deltas = .ok v := Frame.finish_eq (kind ▸ is) self are
  have fits : stack.length + 1 + room ≤ maxDepth := by omega
  have start : encode v ++ rest = front ++ (encodeAll v.items ++ (v.trailer ++ rest)) := by
    rw [written, List.append_assoc, List.append_assoc]
  have length : offset + (encode v).length =
      offset + front.length + (encodeAll v.items).length + v.trailer.length := by
    rw [written, List.length_append, List.length_append]
    omega
  rw [start, length]
  by_cases delta : container = .delta
  · -- the packed differences follow the two numbers
    obtain ⟨w, rfl⟩ : ∃ w, v = .delta w := by
      subst delta
      cases v <;> first | exact ⟨_, rfl⟩ | cases is
    have few : w.deltas.length < maxVectorSamples ∧ w.deltas.length * w.width ≤ maxLength := by
      simpa [isShort] using parts.1
    have inside : complete ((Frame.start container offset (Value.delta w).items.length).pushAll
        (offset + front.length) (Value.delta w).items) stack = .ok (.inside (full :: stack)) := by
      rw [pushed, complete, if_neg (by simp [Frame.isFull, kind, delta])]
    refine (reads_container takes read idle fits inside).trans (.last ?_)
    refine readStep_deltas (takes_readDeltas few.1 few.2) ?_ ?_
    · simp [wantsDeltas, Frame.awaitsDeltas, kind, delta, done]
    · have finished : full.finish w.deltas = .ok (.delta w) := finished
      rw [takeDeltas, finished, place]
      exact closed
  · obtain ⟨trailer, deltas⟩ : v.trailer = [] ∧ v.deltas = [] := by
      cases v <;> first | exact ⟨rfl, rfl⟩ | cases is
      exact absurd rfl delta
    rw [trailer]
    refine reads_container takes read idle fits ?_
    rw [pushed, complete, if_pos (by simp [Frame.isFull, kind, delta, done]), ← deltas, finished,
      place]
    exact closed

/-- Every sound value is read to its end. -/
theorem isRead_of_sound {v : Value} (sound : v.Sound room) : IsRead room v := by
  -- the room runs out before the nesting does, which spares an induction over the values
  induction room generalizing v with
  | zero =>
    cases is : v.container? with
    | none => exact isRead_of_leaf is sound.isShort
    | some container => exact absurd (sound.room_pos (by rw [is]; rfl)) (Nat.lt_irrefl 0)
  | succ room ih =>
    cases is : v.container? with
    | none => exact isRead_of_leaf is sound.isShort
    | some container =>
      obtain ⟨self, inner⟩ := (Sound.container_iff (by rw [is]; rfl)).mp sound
      exact isRead_of_items is self fun item member => ih (inner item member)

/-! ## The decoder reads on -/

namespace Decoder

/-- A decoder in front of some bytes, outside all containers. -/
def infront (offset : Nat) (unread : Bytes) : Decoder := { offset, unread }

theorem isStarved_of_step {d : Decoder} {progress : Progress} {rest : Place} (fresh : d.needed = 0)
    (step : readStep d.stack ⟨d.offset, d.unread⟩ = .done progress rest) : d.isStarved = false := by
  obtain ⟨used, bytes, -, some⟩ := uses_readStep _ _ _ _ step
  have bytes : d.unread = used ++ rest.bytes := bytes
  rw [Bool.eq_false_iff]
  intro starved
  rcases (isStarved_iff d).mp starved with none | short
  · rw [none] at bytes
    obtain ⟨rfl, -⟩ := List.append_eq_nil_iff.mp bytes.symm
    exact absurd some (by decide)
  · omega

/-- The decoder follows the tokens of a value to its end. -/
theorem drain_of_reads {d : Decoder} {after : Place} {item : Item} (items : List Item)
    (reads : Reads d.stack ⟨d.offset, d.unread⟩ (.emitted item) after) (fresh : d.needed = 0) :
    d.drain items = ({ d with
      taken := [], unread := after.bytes, offset := after.offset, needed := 0, stack := [] } :
        Decoder).drain (item :: items) := by
  generalize inside : d.stack = stack at reads
  generalize place : (⟨d.offset, d.unread⟩ : Place) = middle at reads
  generalize emitted : Progress.emitted item = progress at reads
  -- along the tokens; only the last one completes a value
  induction reads generalizing d with
  | last step =>
    subst inside place emitted
    rw [drain_done (isStarved_of_step fresh step) step]
    rfl
  | next step _ ih =>
    subst inside place emitted
    rw [drain_done (isStarved_of_step fresh step) step]
    exact ih rfl rfl rfl rfl

/-- The decoder gives out the values that the bytes in front of it encode. -/
theorem drain_encodeAll {vs : List Value} (sound : ∀ v ∈ vs, v.Sound maxDepth) (offset : Nat)
    (rest : Bytes) (items : List Item) : ∃ found : List Item, found.reverse.map Item.value = vs ∧
      (infront offset (encodeAll vs ++ rest)).drain items =
        (infront (offset + (encodeAll vs).length) rest).drain (found ++ items) := by
  induction vs generalizing offset items with
  | nil => exact ⟨[], rfl, rfl⟩
  | cons v others ih =>
    obtain ⟨first, sound⟩ := List.forall_mem_cons.mp sound
    have reads := isRead_of_sound first [] offset (encodeAll others ++ rest)
      (.emitted ⟨offset, v⟩) rfl (Nat.le_of_eq (Nat.zero_add _)) rfl
    obtain ⟨found, are, drained⟩ := ih sound (offset + (encode v).length) (⟨offset, v⟩ :: items)
    refine ⟨found ++ [⟨offset, v⟩], by simp [are], ?_⟩
    have step := drain_of_reads (d := infront offset (encode v ++ (encodeAll others ++ rest)))
      items reads rfl
    rw [encodeAll, List.append_assoc, step, List.length_append, ← Nat.add_assoc]
    exact drained.trans (by rw [List.append_assoc]; rfl)

/-- A new decoder gives out the values whose encoding it is fed, and keeps nothing. -/
theorem feed_encodeAll {vs : List Value} (sound : ∀ v ∈ vs, v.Sound maxDepth) :
    ∃ items : List Item, items.map Item.value = vs ∧
      new.feed (encodeAll vs) = (infront (encodeAll vs).length [], items, .ok ()) := by
  obtain ⟨found, are, drained⟩ := drain_encodeAll sound 0 [] []
  refine ⟨found.reverse, are, ?_⟩
  have start : new.append (encodeAll vs) = infront 0 (encodeAll vs ++ []) := by
    rw [List.append_nil]
    rfl
  rw [atRest_new.feed_eq, start, drained, drain_starved rfl, List.append_nil, Nat.zero_add]
  rfl

end Decoder

/-- Sound values are what their encoding decodes to. -/
theorem decode_encodeAll_of_sound {vs : List Value} (sound : ∀ v ∈ vs, v.Sound maxDepth) :
    decode (encodeAll vs) = .ok vs := by
  obtain ⟨items, are, fed⟩ := Decoder.feed_encodeAll sound
  simp only [decode, fed]
  exact congrArg Except.ok are

end Telemetry.Bysant
