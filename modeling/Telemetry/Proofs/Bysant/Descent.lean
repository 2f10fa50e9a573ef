import Telemetry.Proofs.Bysant.Completeness
import Telemetry.Proofs.Bysant.Grammar
import Telemetry.Proofs.Bysant.Rewind
/-!
# The decoder descends

The decoder does not call itself for the items of a container: it keeps the open containers on a
stack. Still it reads what the recursive parser of the format reads. To read on until the value
outside all containers is complete is to read one item and hand it to the stack, as long as the
innermost container waits for an item.
-/

namespace Telemetry.Bysant

namespace Reader

variable {α β γ : Type}

theorem ext {r r' : Reader α} (h : ∀ place, r place = r' place) : r = r' := funext h

theorem bind_apply (r : Reader α) (f : α → Reader β) (place : Place) :
    (r >>= f) place = match r place with
      | .done a rest => f a rest
      | .more missing => .more missing
      | .fail error => .fail error := rfl

instance : LawfulMonad Reader := LawfulMonad.mk' _
  (fun r => by
    refine ext fun place => ?_
    show Reader.bind r _ place = _
    unfold Reader.bind
    cases r place <;> rfl)
  (fun a f => rfl)
  (fun r f g => by
    refine ext fun place => ?_
    simp only [bind_apply]
    cases r place <;> rfl)

theorem fail_bind (error : DecodeError) (f : α → Reader β) : fail error >>= f = fail error :=
  rfl

@[simp] theorem check_ok (a : α) : check (.ok a) = Pure.pure a := rfl

/-- Looking at the offset twice. -/
theorem offset_bind_offset (f : Nat → Nat → Reader α) :
    (offset >>= fun start => offset >>= f start) = offset >>= fun start => f start start := rfl

end Reader

open Reader (check fail times)

/-! ## The machine -/

theorem settle_eq {α : Type} (take : α → Except DecodeError Progress) (r : Reader α) (place : Place) :
    settle take (r place) = (r >>= fun a => check (take a)) place := by
  rw [Reader.bind_apply]
  cases r place with
  | done a rest =>
    dsimp only [settle]
    cases take a <;> rfl
  | more missing => rfl
  | fail error => rfl

theorem readStep_eq_deltas {stack : List Frame} (wants : wantsDeltas stack = true) :
    readStep stack = readDeltas >>= fun deltas => check (takeDeltas deltas stack) := by
  refine Reader.ext fun place => ?_
  rw [readStep, if_pos wants, settle_eq (takeDeltas · stack)]

theorem readStep_eq_token {stack : List Frame} (wants : wantsDeltas stack = false) :
    readStep stack = Reader.offset >>= fun start => Token.read >>= fun token =>
      check (takeToken stack start token) := by
  refine Reader.ext fun place => ?_
  rw [readStep, if_neg (by simp [wants]), settle_eq (takeToken stack place.offset)]
  rfl

/-- What reading on from a place comes to. -/
def readOutAt (stack : List Frame) (place : Place) : Reading Item :=
  match _ : readStep stack place with
  | .done (.emitted item) rest => .done item rest
  | .done (.inside stack) rest => readOutAt stack rest
  | .more missing => .more missing
  | .fail error => .fail error
termination_by place.bytes.length
decreasing_by
  obtain ⟨used, bytes, -, some⟩ := uses_readStep _ _ _ _ ‹_›
  rw [bytes, List.length_append]
  omega

/-- Reads on with some open containers, up to a value outside all of them. -/
def readOut (stack : List Frame) : Reader Item := readOutAt stack

/-- Reads on from what a step has led to. -/
def proceed : Progress → Reader Item
  | .emitted item => pure item
  | .inside stack => readOut stack

/-- Hands an item to the innermost container and reads on. -/
def resume (stack : List Frame) (item : Item) : Reader Item := check (close stack item) >>= proceed

theorem readOut_eq (stack : List Frame) :
    readOut stack = readStep stack >>= proceed := by
  refine Reader.ext fun place => ?_
  rw [readOut, readOutAt, Reader.bind_apply]
  split <;> rename_i step <;> rw [step] <;> rfl

/-! ## Tokens by their form -/

/-- The token that a form starts. -/
def Form.token : Form → Reader Token
  | constant value => pure (.leaf value)
  | int width => do
    return .leaf (.int (← Reader.int width))
  | single => do
    return .leaf (.float (Binary32.toFloat (UInt32.ofNat (Bytes.toNat (← Reader.take 4)))))
  | double => do
    return .leaf (.float (Float.ofBits (UInt64.ofNat (Bytes.toNat (← Reader.take 8)))))
  | text size => do
    return .leaf (.text (← Reader.text (← size.read)))
  | bytes size => do
    return .leaf (.bytes (← Reader.take (← size.read)))
  | list size => do
    return .head .list (← size.read)
  | map size => do
    return .head .map (2 * (← size.read))
  | delta => pure (.head .delta 2)
  | quasi => pure (.head .quasi 3)
  | envelope => pure (.head .envelope 3)
  | message => pure (.head .message 3)
  | response => pure (.head .response 3)

theorem find?_covers {rows : List TagRow} {row : TagRow} {tag : UInt8}
    (apart : rows.Pairwise fun a b => a.last < b.first) (member : row ∈ rows)
    (covers : row.covers tag = true) : rows.find? (·.covers tag) = some row := by
  induction rows with
  | nil => cases member
  | cons first others ih =>
    obtain ⟨behind, apart⟩ := List.pairwise_cons.mp apart
    rcases List.mem_cons.mp member with rfl | member
    · exact List.find?_cons_of_pos covers
    · have before : first.covers tag = false := by
        have := behind row member
        simp only [TagRow.covers, Bool.and_eq_true, Bool.and_eq_false_iff, decide_eq_true_eq,
          decide_eq_false_iff_not] at covers ⊢
        omega
      rw [List.find?_cons, before]
      exact ih apart member

/-- A tag between the ends of a row asks for what the row says, as the rows do not overlap. -/
theorem ofTag?_of_row (i : Nat) {tag : UInt8} {first last : Nat} {form : Nat → Form}
    (row : tagTable[i]? = some ⟨first, last, form⟩) (least : first ≤ tag.toNat)
    (most : tag.toNat ≤ last) : Form.ofTag? tag = some (form (tag.toNat - first)) := by
  have apart : tagTable.Pairwise fun a b => a.last < b.first := by decide
  have covers : TagRow.covers ⟨first, last, form⟩ tag = true :=
    Bool.and_eq_true_iff.mpr ⟨decide_eq_true least, decide_eq_true most⟩
  rw [Form.ofTag?, find?_covers apart (List.mem_of_getElem? row) covers, Option.map_some]

/-- The token that a tag at `start` begins, by the table. -/
def tokenByTable (tag : UInt8) (start : Nat) : Reader Token :=
  match Form.ofTag? tag with
  | some form => form.token
  | none => fail (.invalidTag tag start)

/-- A chain of cases that follows the table from row `i` on. -/
theorem ite_eq_tokenByTable (i : Nat) {tag : UInt8} {start first last : Nat} {form : Nat → Form}
    {here : Prop} [Decidable here] {reader others : Reader Token}
    (row : tagTable[i]? = some ⟨first, last, form⟩)
    (inside : here → first ≤ tag.toNat ∧ tag.toNat ≤ last)
    (same : here → reader = (form (tag.toNat - first)).token)
    (rest : ¬here → others = tokenByTable tag start) :
    (if here then reader else others) = tokenByTable tag start := by
  split
  case isTrue covered =>
    obtain ⟨least, most⟩ := inside covered
    rw [same covered, tokenByTable, ofTag?_of_row i row least most]
  case isFalse behind => exact rest behind

theorem tokenByTable_of_gap {tag : UInt8} (start : Nat) (least : 0x72 ≤ tag.toNat)
    (most : tag.toNat ≤ 0x7F) : tokenByTable tag start = fail (.invalidTag tag start) := by
  have apart : ∀ row ∈ tagTable, row.last < 0x72 ∨ 0x7F < row.first := by decide
  have none : Form.ofTag? tag = none := by
    refine Option.map_eq_none_iff.mpr (List.find?_eq_none.mpr fun row member covers => ?_)
    have := apart row member
    simp only [TagRow.covers, Bool.and_eq_true, decide_eq_true_eq] at covers
    omega
  rw [tokenByTable, none]

theorem afterTag_eq (tag : UInt8) (start : Nat) :
    Token.afterTag tag start = tokenByTable tag start := by
  have small := tag.toNat_lt
  unfold Token.afterTag
  dsimp only
  refine ite_eq_tokenByTable 0 rfl (fun _ => by omega) (fun _ => rfl) fun _ => ?_
  refine ite_eq_tokenByTable 1 rfl (fun _ => by omega) (fun _ => rfl) fun _ => ?_
  refine ite_eq_tokenByTable 2 rfl (fun _ => by omega) (fun _ => rfl) fun _ => ?_
  refine ite_eq_tokenByTable 3 rfl (fun _ => by omega) (fun _ => rfl) fun _ => ?_
  refine ite_eq_tokenByTable 4 rfl (fun _ => by omega) (fun _ => rfl) fun _ => ?_
  refine ite_eq_tokenByTable 5 rfl (fun _ => by omega) (fun _ => rfl) fun _ => ?_
  refine ite_eq_tokenByTable 6 rfl (fun _ => by omega) (fun _ => rfl) fun _ => ?_
  refine ite_eq_tokenByTable 7 rfl (fun _ => by omega) (fun _ => rfl) fun _ => ?_
  refine ite_eq_tokenByTable 8 rfl (fun _ => by omega) (fun _ => rfl) fun _ => ?_
  refine ite_eq_tokenByTable 9 rfl (fun _ => by omega) (fun _ => rfl) fun _ => ?_
  refine ite_eq_tokenByTable 10 rfl (fun _ => by omega) (fun _ => rfl) fun _ => ?_
  refine ite_eq_tokenByTable 11 rfl (fun _ => by omega) (fun here => by rw [here]; rfl) fun _ => ?_
  refine ite_eq_tokenByTable 11 rfl (fun _ => by omega) (fun here => by rw [here]; rfl) fun _ => ?_
  refine ite_eq_tokenByTable 11 rfl (fun _ => by omega) (fun here => by rw [here]; rfl) fun _ => ?_
  refine ite_eq_tokenByTable 11 rfl (fun _ => by omega) (fun here => by rw [here]; rfl) fun _ => ?_
  refine ite_eq_tokenByTable 12 rfl (fun _ => by omega) (fun _ => rfl) fun _ => ?_
  refine ite_eq_tokenByTable 13 rfl (fun _ => by omega) (fun _ => rfl) fun _ => ?_
  refine ite_eq_tokenByTable 14 rfl (fun _ => by omega) (fun _ => rfl) fun _ => ?_
  refine ite_eq_tokenByTable 15 rfl (fun _ => by omega) (fun _ => rfl) fun _ => ?_
  refine ite_eq_tokenByTable 16 rfl (fun _ => by omega) (fun _ => rfl) fun _ => ?_
  refine ite_eq_tokenByTable 17 rfl (fun _ => by omega) (fun _ => rfl) fun _ => ?_
  refine ite_eq_tokenByTable 18 rfl (fun _ => by omega) (fun _ => rfl) fun _ => ?_
  split
  case isTrue gap => rw [tokenByTable_of_gap start (by omega) gap]
  case isFalse behind =>
    rw [tokenByTable, ofTag?_of_row 19 rfl (by omega) (by omega)]
    have same : ((tag.toNat : Int) - 0xC0) = ((tag.toNat - 0x80 : Nat) : Int) - 64 := by omega
    rw [same]
    rfl

/-! ## Containers -/

/-- The value of a container with all its items. -/
def Frame.value (f : Frame) : Reader Value :=
  if f.container = .delta then readDeltas >>= fun deltas => check (f.finish deltas)
  else check (f.finish [])

/-- Reads on with a container in front of some open ones. It is not open if it is full. -/
def readFrame (f : Frame) (stack : List Frame) : Reader Item :=
  if f.isFull then check (f.finish []) >>= fun value => resume stack ⟨f.offset, value⟩
  else readOut (f :: stack)

variable {room : Nat} {stack : List Frame}

theorem resume_cons (f : Frame) (stack : List Frame) (item : Item) :
    resume (f :: stack) item = readFrame (f.push item) stack := by
  unfold resume readFrame close
  by_cases full : (f.push item).isFull = true
  · simp only [full, if_true]
    cases (f.push item).finish [] <;> rfl
  · simp only [full, if_false, Bool.false_eq_true]
    rfl

theorem readOut_deltas {f : Frame} (awaits : f.awaitsDeltas = true) (stack : List Frame) :
    readOut (f :: stack) = readDeltas >>= fun deltas =>
      check (f.finish deltas) >>= fun value => resume stack ⟨f.offset, value⟩ := by
  have wants : wantsDeltas (f :: stack) = true := awaits
  rw [readOut_eq, readStep_eq_deltas wants, bind_assoc]
  congr 1
  funext deltas
  simp only [takeDeltas]
  cases f.finish deltas <;> rfl

/-- To read on in a container is to read the items that it misses, and then what is behind them. The
open containers outside are read on with its value. -/
theorem readFrame_eq
    (reads : ∀ stack, stack.length + room = maxDepth → wantsDeltas stack = false →
      readOut stack = item room >>= resume stack)
    (f : Frame) (deep : stack.length + 1 + room = maxDepth) : readFrame f stack =
      (item room).times f.missing >>= fun items => (items.foldl Frame.push f).value >>= fun value =>
        resume stack ⟨f.offset, value⟩ := by
  generalize missing : f.missing = n
  induction n generalizing f with
  | zero =>
    rw [Reader.times, pure_bind, List.foldl_nil]
    unfold readFrame Frame.value
    by_cases delta : f.container = .delta
    · have awaits : f.awaitsDeltas = true := by simp [Frame.awaitsDeltas, delta, missing]
      have open_ : f.isFull = false := by simp [Frame.isFull, delta]
      simp only [open_, Bool.false_eq_true, if_false, if_pos delta, readOut_deltas awaits, bind_assoc]
    · have full : f.isFull = true := by simp [Frame.isFull, delta, missing]
      rw [if_pos full, if_neg delta]
  | succ n ih =>
    have open_ : f.isFull = false := by simp [Frame.isFull, missing]
    have waits : wantsDeltas (f :: stack) = false := by
      simp [wantsDeltas, Frame.awaitsDeltas, missing]
    have next (first : Item) : (f.push first).missing = n := by simp [Frame.push, missing]
    rw [readFrame, open_, if_neg (by decide), reads (f :: stack) (by simpa using deep) waits,
      Reader.times]
    simp only [bind_assoc, pure_bind, List.foldl_cons]
    congr 1
    funext first
    rw [resume_cons, ih (f.push first) (next first)]
    rfl

/-- The reader of the items of a container, with room for so many of them inside each other. -/
def insideOf : (room : Nat) → Option (Reader Item)
  | 0 => none
  | room + 1 => some (item room)

theorem item_eq (room : Nat) : item room = taggedItem (insideOf room) := by
  cases room <;> rfl

/-- The head of a container is followed by its items. -/
theorem takeToken_head_eq
    (reads : ∀ less < room, ∀ stack, stack.length + less = maxDepth → wantsDeltas stack = false →
      readOut stack = item less >>= resume stack)
    (deep : stack.length + room = maxDepth) (container : Container) (start count : Nat) :
    check (takeToken stack start (.head container count)) >>= proceed =
      enter (insideOf room) start >>= fun item => item.times count >>= fun items =>
        (items.foldl Frame.push (.start container start count)).value >>= fun value =>
          resume stack ⟨start, value⟩ := by
  cases room with
  | zero => rw [takeToken, if_pos (by omega), insideOf, enter, Reader.fail_bind]; rfl
  | succ room =>
    have shallow : stack.length + 1 + room = maxDepth := by omega
    have descends := readFrame_eq (reads room (Nat.lt_succ_self room))
      (.start container start count) shallow
    rw [takeToken, if_neg (by omega), insideOf, enter, pure_bind]
    refine Eq.trans ?_ descends
    unfold readFrame
    by_cases full : (Frame.start container start count).isFull = true
    · simp only [full, if_true]
      cases (Frame.start container start count).finish [] <;> rfl
    · simp only [full, if_false, Bool.false_eq_true]
      rfl

theorem foldl_push (items : List Item) (f : Frame) : items.foldl Frame.push f =
    { f with items := items.reverse ++ f.items, missing := f.missing - items.length } := by
  induction items generalizing f with
  | nil => rfl
  | cons item rest ih =>
    rw [List.foldl_cons, ih]
    simp only [Frame.push, List.reverse_cons, List.append_assoc, List.singleton_append,
      List.length_cons, Nat.sub_sub, Nat.add_comm 1]

theorem value_list (items : List Item) (start count : Nat) :
    (items.foldl Frame.push (.start .list start count)).value =
      pure (.list (items.map Item.value)) := by
  simp [foldl_push, Frame.start, Frame.value, Frame.finish]

theorem value_map (items : List Item) (start count : Nat) :
    (items.foldl Frame.push (.start .map start count)).value = pure (.map (pairUp items)) := by
  simp [foldl_push, Frame.start, Frame.value, Frame.finish]

/-- Pairs of items are twice as many items. -/
theorem times_pairs {α : Type} (r : Reader Item) (f : List (Value × Value) → Reader α) (n : Nat) :
    (r.times (2 * n) >>= fun items => f (pairUp items)) =
      Reader.times (r >>= fun key => r >>= fun value => pure (key.value, value.value)) n >>= f := by
  induction n generalizing f with
  | zero => rfl
  | succ n ih =>
    have rest := fun pair => ih fun pairs => f (pair :: pairs)
    simp only [Nat.mul_succ, Reader.times, bind_assoc, pure_bind, pairUp, ← rest]

/-- What a tag asks for is read as its token, and with it the items of a container. -/
theorem Form.token_bind
    (reads : ∀ less < room, ∀ stack, stack.length + less = maxDepth → wantsDeltas stack = false →
      readOut stack = item less >>= resume stack)
    (deep : stack.length + room = maxDepth) (form : Form) (start : Nat) :
    (form.token >>= fun token => check (takeToken stack start token) >>= proceed) =
      form.value (insideOf room) start >>= fun value => resume stack ⟨start, value⟩ := by
  have leaf (value : Value) : check (takeToken stack start (.leaf value)) >>= proceed =
    resume stack ⟨start, value⟩ := rfl
  have head := takeToken_head_eq reads deep
  cases form with
  | constant value => rfl
  | int width => simp only [Form.token, Form.value, bind_assoc, pure_bind, leaf]
  | single => simp only [Form.token, Form.value, bind_assoc, pure_bind, leaf]
  | double => simp only [Form.token, Form.value, bind_assoc, pure_bind, leaf]
  | text size => simp only [Form.token, Form.value, bind_assoc, pure_bind, leaf]
  | bytes size => simp only [Form.token, Form.value, bind_assoc, pure_bind, leaf]
  | list size => simp only [Form.token, Form.value, bind_assoc, pure_bind, head, value_list]
  | map size =>
    simp only [Form.token, Form.value, bind_assoc, pure_bind, head, value_map]
    congr 1
    funext count
    congr 1
    funext item
    exact times_pairs item (fun pairs => resume stack ⟨start, .map pairs⟩) count
  | delta =>
    have closes (first second : Item) : (((Frame.start .delta start 2).push first).push second).value
        = readDeltas >>= fun deltas => check (deltaOf first second deltas) := if_pos rfl
    simp only [Form.token, Form.value, bind_assoc, pure_bind, head, Reader.times, List.foldl_cons,
      List.foldl_nil, closes]
  | quasi | envelope | message | response =>
    simp only [Form.token, Form.value, bind_assoc, pure_bind, head, Reader.times, List.foldl_cons,
      List.foldl_nil]
    rfl

/-- To read on is to read an item and to hand it to the innermost container, if that waits for
one. -/
theorem readOut_eq_item (room : Nat) (stack : List Frame) (deep : stack.length + room = maxDepth)
    (waits : wantsDeltas stack = false) : readOut stack = item room >>= resume stack := by
  induction room using Nat.strongRecOn generalizing stack with
  | ind room reads =>
    rw [readOut_eq, readStep_eq_token waits, item_eq, Token.read, taggedItem]
    simp only [bind_assoc, Reader.offset_bind_offset]
    congr 1
    funext start
    congr 1
    funext tag
    rw [afterTag_eq, tokenByTable]
    cases Form.ofTag? tag with
    | none => rfl
    | some form =>
      simp only [bind_assoc, pure_bind]
      exact form.token_bind reads deep start

/-! ## Values one after the other -/

theorem readOut_nil : readOut [] = item maxDepth := by
  rw [readOut_eq_item maxDepth [] (Nat.zero_add _) rfl]
  exact bind_pure (item maxDepth)

/-- Where there are no bytes, at least one is missing. -/
theorem readStep_nil (stack : List Frame) (offset : Nat) : readStep stack ⟨offset, []⟩ = .more 1 := by
  unfold readStep
  split <;> rfl

namespace Decoder

variable {d : Decoder}

theorem isStarved_of_fresh (fresh : d.needed = 0) (some : d.unread ≠ []) : d.isStarved = false := by
  simpa [isStarved, fresh] using some

/-- How a decoder goes on that reads this. -/
def ReadsOn (d : Decoder) (items : List Item) : Reading Item → Prop
  | .done item rest => d.drain items = ({ d with
      taken := [], unread := rest.bytes, offset := rest.offset, needed := 0, stack := [] } :
        Decoder).drain (item :: items)
  | .more _ => (d.drain items).1.failure = d.failure ∧ (d.drain items).1.finished = d.finished ∧
      (d.drain items).1.pending = d.pending ∧ (d.drain items).2 = items
  | .fail error => (d.drain items).1.failure = some error

theorem readsOn_readOut (d : Decoder) (fresh : d.needed = 0) (items : List Item) :
    d.ReadsOn items (readOut d.stack ⟨d.offset, d.unread⟩) := by
  generalize inside : d.stack = stack
  generalize at_ : (⟨d.offset, d.unread⟩ : Place) = place
  -- along the steps; only the last one may complete a value
  induction stack, place using readOutAt.induct generalizing d with
  | case1 stack place item rest step =>
    subst inside at_
    rw [readOut_eq, Reader.bind_apply, step]
    exact drain_done (isStarved_of_step fresh step) step
  | case2 stack place stack' rest step ih =>
    subst inside at_
    have drained : d.drain items = (d.advance rest (.inside stack')).drain items :=
      drain_done (isStarved_of_step fresh step) step
    have next := ih (d.advance rest (.inside stack')) rfl rfl rfl
    rw [readOut_eq, Reader.bind_apply, step]
    show d.ReadsOn items (readOut stack' rest)
    generalize readOut stack' rest = reading at next
    cases reading with
    | done item after => exact drained.trans next
    | more missing =>
      obtain ⟨failure, finished, pending, same⟩ := next
      rw [← drained] at failure finished pending same
      exact ⟨failure, finished, pending.trans (pending_inside step), same⟩
    | fail error =>
      have failure : ((d.advance rest (.inside stack')).drain items).1.failure = some error := next
      exact (congrArg (fun after => after.1.failure) drained).trans failure
  | case3 stack place missing step =>
    subst inside at_
    rw [readOut_eq, Reader.bind_apply, step]
    cases starved : d.isStarved with
    | true =>
      show (d.drain items).1.failure = d.failure ∧ _
      rw [drain_starved starved]
      exact ⟨rfl, rfl, rfl, rfl⟩
    | false =>
      show (d.drain items).1.failure = d.failure ∧ _
      rw [drain_more starved step]
      exact ⟨rfl, rfl, rfl, rfl⟩
  | case4 stack place error step =>
    subst inside at_
    rw [readOut_eq, Reader.bind_apply, step]
    have some : d.unread ≠ [] := by
      intro none
      rw [none, readStep_nil] at step
      cases step
    show (d.drain items).1.failure = _
    rw [drain_fail (isStarved_of_fresh fresh some) step]

theorem readsOn_item (place : Place) (items : List Item) :
    (infront place.offset place.bytes).ReadsOn items (Bysant.item maxDepth place) := by
  rw [← readOut_nil]
  exact readsOn_readOut (infront place.offset place.bytes) rfl items

/-- How a decoder goes on in front of bytes that parse like this. -/
def Parses (d : Decoder) (items : List Item) : Parse → Prop
  | .consumed values => ∃ found : List Item, found.reverse.map Item.value = values ∧
      (d.drain items).2 = found ++ items ∧ (d.drain items).1.failure = none ∧
      (d.drain items).1.finished = false ∧ (d.drain items).1.pending = []
  | .malformed error => (d.drain items).1.failure = some error
  | .cutShort unfinished => (d.drain items).1.failure = none ∧
      (d.drain items).1.finished = false ∧ (d.drain items).1.pending.length = unfinished ∧
      unfinished ≠ 0

theorem Parses.cons {d d' : Decoder} {items : List Item} {item : Item} {parsed : Parse}
    (step : d.drain items = d'.drain (item :: items)) (h : d'.Parses (item :: items) parsed) :
    d.Parses items (parsed.cons item.value) := by
  cases parsed with
  | consumed values =>
    obtain ⟨found, are, same, rest⟩ := h
    rw [← step] at same rest
    exact ⟨found ++ [item], by simp [are], by simp [same], rest⟩
  | malformed error =>
    have failure : (d'.drain (item :: items)).1.failure = some error := h
    exact (congrArg (fun after => after.1.failure) step).trans failure
  | cutShort unfinished =>
    obtain ⟨failure, finished, pending, some⟩ := h
    rw [← step] at failure finished pending
    exact ⟨failure, finished, pending, some⟩

theorem parses_parseFrom (place : Place) (items : List Item) :
    (infront place.offset place.bytes).Parses items (parseFrom place) := by
  have reads := readsOn_item place items
  induction place using parseFrom.induct generalizing items with
  | case1 place none =>
    have starved : (infront place.offset place.bytes).isStarved = true := by
      simp [isStarved, infront, none]
    rw [parseFrom_nil none]
    show ∃ found : List Item, _
    rw [drain_starved starved]
    exact ⟨[], rfl, rfl, rfl, rfl, by simp [pending, infront, none]⟩
  | case2 place some item rest read ih =>
    rw [read] at reads
    rw [parseFrom_done some read]
    exact Parses.cons reads (ih (item :: items) (readsOn_item rest _))
  | case3 place some missing read =>
    rw [read] at reads
    obtain ⟨failure, finished, pending, -⟩ := reads
    rw [parseFrom_more some read]
    refine ⟨failure, finished, ?_, fun none => some (List.length_eq_zero_iff.mp none)⟩
    rw [pending]
    rfl
  | case4 place some error read =>
    rw [read] at reads
    rw [parseFrom_fail some read]
    exact reads

theorem hasPending_eq (d : Decoder) : d.hasPending = !d.pending.isEmpty := by
  rw [hasPending, pending]
  cases d.taken <;> simp

/-- What decoding comes to when the decoder has read all it can, in front of bytes that parse like
this. -/
theorem Parses.result_eq {d : Decoder} {parsed : Parse} (h : d.Parses [] parsed) :
    let after := (d.drain []).1
    (after.status >>= fun _ => after.finish.2 >>= fun _ =>
      .ok ((d.drain []).2.reverse.map Item.value)) = parsed.result := by
  intro after
  cases parsed with
  | consumed values =>
    obtain ⟨found, are, same, alive, unfinished, pending⟩ := h
    have nothing : after.hasPending = false := by
      rw [hasPending_eq, pending]
      rfl
    rw [status, alive, finish_of_alive alive, unfinished, nothing, same, List.append_nil, are]
    rfl
  | malformed error =>
    have failed : after.failure = some error := h
    rw [status, failed]
    rfl
  | cutShort unfinished =>
    obtain ⟨alive, open_, length, some⟩ := h
    have something : after.hasPending = true := by
      rw [hasPending_eq, Bool.not_eq_true', List.isEmpty_eq_false_iff]
      intro none
      exact some (by rw [← length, none]; rfl)
    rw [status, alive, finish_of_alive alive, open_, something, length]
    rfl

end Decoder

theorem decode_eq_drain (b : Bytes) :
    let after := (Decoder.infront 0 b).drain []
    decode b = after.1.status >>= fun _ => after.1.finish.2 >>= fun _ =>
      .ok (after.2.reverse.map Item.value) := by
  intro after
  rw [decode, Decoder.atRest_new.feed_eq b]
  have same : (Decoder.new.append b).drain [] = after := rfl
  dsimp only
  rw [same]
  cases after.1.status with
  | error e => rfl
  | ok _ =>
    dsimp only
    cases after.1.finish.2 <;> rfl

/-- What decodes is what the parser consumes to the last byte. -/
theorem decode_eq_ok_iff {b : Bytes} {vs : List Value} :
    decode b = .ok vs ↔ parse b = .consumed vs := by
  have same : decode b = (parse b).result :=
    (decode_eq_drain b).trans (Decoder.parses_parseFrom ⟨0, b⟩ []).result_eq
  rw [same]
  cases parse b <;> simp [Parse.result]

/-- Decoding is parsing: the values are those that the parser finds if it consumes all bytes, and the
error is the first one that the parser meets, at the same offset. Where the parser runs out of bytes,
the error tells how many bytes the unfinished value has. -/
theorem decode_eq_parse (b : Bytes) : decode b = (parse b).result :=
  (decode_eq_drain b).trans (Decoder.parses_parseFrom ⟨0, b⟩ []).result_eq

end Telemetry.Bysant
