import Telemetry.Bysant.Decoder
/-!
# What a step depends on

A reader looks at no byte behind those that it asked for, and uses offsets for nothing but errors
and the places of values. So it reads the same at the same place of another input, one that has
`k` bytes more in front and the bytes `more` behind: what it takes and the errors that it finds are
the same, except that every offset in them is `k` larger. A reader that asks for more bytes than
there are asks again as long as fewer are added.
-/

namespace Telemetry.Bysant

/-! ## Offsets moved back by `k` -/

/-- The same error in an input with `k` bytes more in front. -/
def DecodeError.shift (k : Nat) : DecodeError → DecodeError
  | invalidTag tag offset => invalidTag tag (offset + k)
  | lengthOverflow length limit offset => lengthOverflow length limit (offset + k)
  | varintOverflow offset => varintOverflow (offset + k)
  | wrongType expected found offset => wrongType expected found (offset + k)
  | invalidUtf8 offset => invalidUtf8 (offset + k)
  | tooDeep limit offset => tooDeep limit (offset + k)
  | vectorTooLarge limit offset => vectorTooLarge limit (offset + k)
  | parasiteData found offset => parasiteData found (offset + k)
  | trailingBytes remaining => trailingBytes remaining
  | decoderReused => decoderReused
  | finished => finished

/-- The same place in an input with `k` bytes more in front and the bytes `more` behind. -/
def Place.shift (k : Nat) (more : Bytes) (p : Place) : Place := ⟨p.offset + k, p.bytes ++ more⟩

/-- The same value in an input with `k` bytes more in front. -/
def Item.shift (k : Nat) (item : Item) : Item := { item with offset := item.offset + k }

/-- The same open container in an input with `k` bytes more in front. -/
def Frame.shift (k : Nat) (f : Frame) : Frame :=
  { f with offset := f.offset + k, items := f.items.map (Item.shift k) }

/-- The same progress in an input with `k` bytes more in front. -/
def Progress.shift (k : Nat) : Progress → Progress
  | inside stack => inside (stack.map (Frame.shift k))
  | emitted item => emitted (item.shift k)

/-- The same outcome in an input with `k` bytes more in front, where `f` moves what came out. -/
def shiftResult {α : Type} (k : Nat) (f : α → α) : Except DecodeError α → Except DecodeError α
  | .ok a => .ok (f a)
  | .error e => .error (e.shift k)

section Zero

@[simp] theorem DecodeError.shift_zero (e : DecodeError) : e.shift 0 = e := by
  cases e <;> rfl

@[simp] theorem Item.shift_zero : Item.shift 0 = id := rfl

@[simp] theorem Frame.shift_zero : Frame.shift 0 = id := by
  funext f
  simp [Frame.shift]

@[simp] theorem Progress.shift_zero (progress : Progress) : progress.shift 0 = progress := by
  cases progress <;> simp [Progress.shift]

end Zero

@[simp] theorem DecodeError.shift_shift (e : DecodeError) (j k : Nat) :
    (e.shift j).shift k = e.shift (j + k) := by
  cases e <;> simp only [DecodeError.shift, Nat.add_assoc]

@[simp] theorem Item.shift_shift (item : Item) (j k : Nat) :
    (item.shift j).shift k = item.shift (j + k) := by
  simp only [Item.shift, Nat.add_assoc]

@[simp] theorem Frame.shift_shift (f : Frame) (j k : Nat) :
    (f.shift j).shift k = f.shift (j + k) := by
  simp [Frame.shift, Nat.add_assoc, Function.comp_def]

/-! ## Readers -/

/-- What is read at a place, and what is read there in the other input. -/
inductive Reading.Agrees {α : Type} (k : Nat) (more : Bytes) (R : α → α → Prop) :
    Reading α → Reading α → Prop
  /-- The same is taken. -/
  | done {a b : α} {rest : Place} :
    R a b → Agrees k more R (.done a rest) (.done b (rest.shift k more))
  /-- The same is found to be malformed. -/
  | fail (e : DecodeError) : Agrees k more R (.fail e) (.fail (e.shift k))
  /-- The bytes do not suffice in either input. -/
  | starved {m m' : Nat} : 0 < m → Agrees k more R (.more m) (.more m')
  /-- The bytes do not suffice in the one, but may in the other. -/
  | supplied {m : Nat} {r : Reading α} : 0 < m → m ≤ more.length → Agrees k more R (.more m) r

/-- Reading a number does not look behind its last digit. -/
theorem Varint.readFrom_append {b : Bytes} {used value : Nat} (more : Bytes)
    (h : Varint.readFrom used value b ≠ .incomplete) :
    Varint.readFrom used value (b ++ more) = Varint.readFrom used value b := by
  induction b generalizing used value with
  | nil => exact absurd rfl h
  | cons byte rest ih =>
    simp only [List.cons_append, Varint.readFrom] at h ⊢
    split
    · rfl
    · split
      · rfl
      · rename_i room open_
        rw [if_neg room, if_neg open_] at h
        exact ih h

namespace Reader

variable {α β : Type}

/-- The readers `r` and `r'` read the same everywhere, up to `k` bytes more in front for `r'`. -/
def Agrees (k : Nat) (R : α → α → Prop) (r r' : Reader α) : Prop :=
  ∀ more place, (r place).Agrees k more R (r' (place.shift k more))

variable {k : Nat}

theorem agrees_pure (a : α) : Agrees k Eq (Reader.pure a) (Reader.pure a) :=
  fun _ _ => .done rfl

theorem agrees_fail {R : α → α → Prop} (e : DecodeError) :
    Agrees k R (fail e) (fail (e.shift k)) :=
  fun _ _ => .fail e

theorem agrees_offset : Agrees k (fun start start' => start' = start + k) offset offset :=
  fun _ _ => .done rfl

theorem agrees_ite {R : α → α → Prop} {p : Prop} [Decidable p] {r r' s s' : Reader α}
    (h : r.Agrees k R r') (h' : s.Agrees k R s') :
    Agrees k R (if p then r else s) (if p then r' else s') := by
  split
  · exact h
  · exact h'

/-- Readers that agree agree one after the other. -/
theorem Agrees.bind {R : α → α → Prop} {S : β → β → Prop} {r r' : Reader α}
    {f f' : α → Reader β} (first : r.Agrees k R r')
    (second : ∀ a b, R a b → (f a).Agrees k S (f' b)) : Agrees k S (r >>= f) (r' >>= f') := by
  intro more place
  change Reading.Agrees k more S (Reader.bind r f place) (Reader.bind r' f' (place.shift k more))
  unfold Reader.bind
  have h := first more place
  generalize r place = reading, r' (place.shift k more) = reading' at h
  cases h with
  | done related => exact second _ _ related more _
  | fail e => exact .fail e
  | starved some => exact .starved some
  | supplied some enough => exact .supplied some enough

theorem agrees_byte : Agrees k Eq byte byte := by
  intro more place
  obtain ⟨offset, bytes⟩ := place
  cases bytes with
  | cons b rest =>
    have h : byte (Place.shift k more ⟨offset, b :: rest⟩) =
        .done b (Place.shift k more ⟨offset + 1, rest⟩) := by
      simp only [byte, Place.shift, List.cons_append, Nat.add_right_comm]
    rw [h]
    exact .done rfl
  | nil =>
    cases more with
    | nil => exact .starved Nat.one_pos
    | cons b rest => exact .supplied Nat.one_pos (Nat.succ_pos _)

theorem agrees_take (n : Nat) : Agrees k Eq (take n) (take n) := by
  intro more place
  by_cases enough : n ≤ place.bytes.length
  · have h : take n place = .done (place.bytes.take n) ⟨place.offset + n, place.bytes.drop n⟩ := by
      simp [take, enough]
    have h' : take n (place.shift k more) = .done (place.bytes.take n)
        (Place.shift k more ⟨place.offset + n, place.bytes.drop n⟩) := by
      simp [take, Place.shift, List.take_append_of_le_length enough,
        List.drop_append_of_le_length enough, enough, Nat.add_right_comm]
    rw [h, h']
    exact .done rfl
  · have h : take n place = .more (n - place.bytes.length) := by
      have short : place.bytes.take n = place.bytes :=
        List.take_of_length_le (Nat.le_of_not_le enough)
      simp only [take, short]
      rw [if_neg (by omega)]
    rw [h]
    by_cases supplied : n ≤ place.bytes.length + more.length
    · exact .supplied (by omega) (by omega)
    · have h' : take n (place.shift k more) =
          .more (n - (place.bytes.length + more.length)) := by
        have short : (place.bytes ++ more).take n = place.bytes ++ more :=
          List.take_of_length_le (by simp; omega)
        simp only [take, Place.shift, short, List.length_append]
        rw [if_neg (by omega)]
      rw [h']
      exact .starved (by omega)

theorem agrees_varint : Agrees k Eq varint varint := by
  intro more place
  by_cases open_ : Varint.read place.bytes = .incomplete
  · have h : varint place = .more 1 := by
      simp only [varint, open_]
    rw [h]
    cases more with
    | nil =>
      have h' : varint (place.shift k []) = .more 1 := by
        simp only [varint, Place.shift, List.append_nil, open_]
      rw [h']
      exact .starved Nat.one_pos
    | cons b rest => exact .supplied Nat.one_pos (Nat.succ_pos _)
  · have same : Varint.read (place.bytes ++ more) = Varint.read place.bytes :=
      Varint.readFrom_append more open_
    unfold varint
    simp only [Place.shift, same]
    cases h : Varint.read place.bytes with
    | incomplete => exact absurd h open_
    | overflow => exact .fail (.varintOverflow place.offset)
    | complete value used =>
      have inside := (Varint.used_of_read h).2
      have behind : (⟨place.offset + k + used, place.bytes.drop used ++ more⟩ : Place) =
          Place.shift k more ⟨place.offset + used, place.bytes.drop used⟩ := by
        simp only [Place.shift, Nat.add_right_comm]
      simp only [List.drop_append_of_le_length inside, behind]
      exact .done rfl

theorem agrees_length : Agrees k Eq length length := by
  refine agrees_offset.bind ?_
  rintro start _ rfl
  refine agrees_varint.bind ?_
  rintro value _ rfl
  exact agrees_ite (agrees_pure _) (agrees_fail (.lengthOverflow value.toNat maxLength start))

theorem agrees_text (n : Nat) : Agrees k Eq (text n) (text n) := by
  refine agrees_offset.bind ?_
  rintro start _ rfl
  refine (agrees_take n).bind ?_
  rintro body _ rfl
  split
  · exact agrees_pure _
  · exact agrees_fail (.invalidUtf8 start)

theorem agrees_int (width : Nat) : Agrees k Eq (int width) (int width) := by
  refine (agrees_take width).bind ?_
  rintro body _ rfl
  exact agrees_pure _

end Reader

namespace Token

variable {k : Nat}

theorem agrees_afterTag (tag : UInt8) (start : Nat) :
    (afterTag tag start).Agrees k Eq (afterTag tag (start + k)) := by
  -- a byte of content, a length, or nothing may follow the tag
  have plain (token : Token) : (Reader.pure token).Agrees k Eq (Reader.pure token) :=
    Reader.agrees_pure token
  have behind {α : Type} {r : Reader α} (h : r.Agrees k Eq r) (token : α → Token) :
      (r >>= fun a => Reader.pure (token a)).Agrees k Eq
        (r >>= fun a => Reader.pure (token a)) := by
    refine h.bind ?_
    rintro a _ rfl
    exact plain (token a)
  have sized {α : Type} {r : Nat → Reader α} (h : ∀ n, (r n).Agrees k Eq (r n))
      (token : α → Token) :
      (Reader.length >>= fun n => r n >>= fun a => Reader.pure (token a)).Agrees k Eq
        (Reader.length >>= fun n => r n >>= fun a => Reader.pure (token a)) := by
    refine Reader.agrees_length.bind ?_
    rintro n _ rfl
    exact behind (h n) token
  unfold afterTag
  repeat' apply Reader.agrees_ite
  all_goals first
    | exact plain _
    | exact behind (Reader.agrees_text _) _
    | exact behind (Reader.agrees_take _) _
    | exact behind (Reader.agrees_int _) _
    | exact behind Reader.agrees_length _
    | exact sized Reader.agrees_text _
    | exact sized Reader.agrees_take _
    | exact Reader.agrees_fail (.invalidTag tag start)

theorem agrees_read : read.Agrees k Eq read := by
  refine Reader.agrees_offset.bind ?_
  rintro start _ rfl
  refine Reader.agrees_byte.bind ?_
  rintro tag _ rfl
  exact agrees_afterTag tag start

end Token

theorem agrees_readDeltas {k : Nat} : readDeltas.Agrees k Eq readDeltas := by
  refine Reader.agrees_offset.bind ?_
  rintro start _ rfl
  refine Reader.agrees_byte.bind ?_
  rintro width _ rfl
  refine Reader.agrees_ite ?_ (Reader.agrees_fail (.wrongType _ _ start))
  refine Reader.agrees_offset.bind ?_
  rintro countStart _ rfl
  refine Reader.agrees_length.bind ?_
  rintro count _ rfl
  refine Reader.agrees_ite (Reader.agrees_fail (.vectorTooLarge _ countStart)) ?_
  refine Reader.agrees_ite (Reader.agrees_fail (.lengthOverflow _ _ countStart)) ?_
  refine (Reader.agrees_take _).bind ?_
  rintro body _ rfl
  exact Reader.agrees_pure _

/-! ## Containers -/

section Shift

variable {α β : Type} {k : Nat}

theorem shiftResult_bind {x : Except DecodeError α} {f : α → Except DecodeError β}
    (g : β → β) :
    shiftResult k g (x >>= f) = shiftResult k id x >>= fun a => shiftResult k g (f a) := by
  cases x <;> rfl

@[simp] theorem Item.expect_shift (item : Item) (expected : String) (view : Value → Option α) :
    (item.shift k).expect expected view = shiftResult k id (item.expect expected view) := by
  unfold Item.expect Item.shift
  split <;> simp [shiftResult, *, DecodeError.shift]

theorem headerOfPairs_shift (offset : Nat) (pairs : List (Value × Value)) (header : Header) :
    headerOfPairs (offset + k) pairs header = shiftResult k id (headerOfPairs offset pairs header) := by
  induction pairs generalizing header with
  | nil => rfl
  | cons pair rest ih =>
    unfold headerOfPairs
    split
    · exact ih _
    · rfl

theorem bodyOfPairs_shift (offset : Nat) (pairs : List (Value × Value))
    (body : Table String Value) :
    bodyOfPairs (offset + k) pairs body = shiftResult k id (bodyOfPairs offset pairs body) := by
  induction pairs generalizing body with
  | nil => rfl
  | cons pair rest ih =>
    unfold bodyOfPairs
    split
    · exact ih _
    · rfl

theorem envelopeOf_shift (header payload footer : Item) :
    envelopeOf (header.shift k) (payload.shift k) (footer.shift k) =
      shiftResult k id (envelopeOf header payload footer) := by
  have offset : (header.shift k).offset = header.offset + k := rfl
  simp only [envelopeOf, Item.map, Item.expect_shift, offset, headerOfPairs_shift,
    shiftResult_bind]
  rfl

theorem messageOf_shift (path ticket body : Item) :
    messageOf (path.shift k) (ticket.shift k) (body.shift k) =
      shiftResult k id (messageOf path ticket body) := by
  have offset : (body.shift k).offset = body.offset + k := rfl
  simp only [messageOf, Item.text, Item.optionalTicket, Item.map, Item.expect_shift, offset,
    bodyOfPairs_shift, shiftResult_bind]
  rfl

theorem responseOf_shift (ticket status message : Item) :
    responseOf (ticket.shift k) (status.shift k) (message.shift k) =
      shiftResult k id (responseOf ticket status message) := by
  simp only [responseOf, Item.ticket, Item.text, Item.expect_shift, shiftResult_bind]
  rfl

theorem deltaOf_shift (factor start : Item) (deltas : List Int64) :
    deltaOf (factor.shift k) (start.shift k) deltas =
      shiftResult k id (deltaOf factor start deltas) := by
  simp only [deltaOf, Item.number, Item.expect_shift, shiftResult_bind]
  rfl

theorem quasiOf_shift (offset : Nat) (period start shifts : Item) :
    quasiOf (offset + k) (period.shift k) (start.shift k) (shifts.shift k) =
      shiftResult k id (quasiOf offset period start shifts) := by
  simp only [quasiOf, Item.number, Item.ints, Item.expect_shift, shiftResult_bind]
  refine bind_congr fun period => bind_congr fun start => bind_congr fun shifts => ?_
  cases QuasiPeriodicVector.ofShifts period start shifts with
  | ok vector => rfl
  | error e => cases e <;> rfl

theorem Frame.item_shift (f : Frame) (position : Nat) :
    (f.shift k).item position = (f.item position).shift k := by
  simp only [Frame.item, Frame.shift, ← List.map_reverse, List.getElem?_map]
  cases f.items.reverse[position]? <;> rfl

theorem pairUp_shift (items : List Item) : pairUp (items.map (Item.shift k)) = pairUp items := by
  fun_induction pairUp items with
  | case1 key value rest ih => simp only [List.map_cons, pairUp, ih, Item.shift]
  | case2 items short =>
    match items with
    | [] => rfl
    | [_] => rfl
    | key :: value :: rest => exact absurd rfl (short key value rest)

/-- A container finishes the same, wherever it stands. -/
theorem Frame.finish_shift (f : Frame) (deltas : List Int64) :
    (f.shift k).finish deltas = shiftResult k id (f.finish deltas) := by
  have offset : (f.shift k).offset = f.offset + k := rfl
  have container : (f.shift k).container = f.container := rfl
  have items : (f.shift k).items.reverse = f.items.reverse.map (Item.shift k) := by
    simp [Frame.shift]
  unfold Frame.finish
  rw [container]
  cases f.container with
  | list =>
    have values : (f.items.reverse.map (Item.shift k)).map Item.value =
        f.items.reverse.map Item.value := by
      simp [Item.shift, Function.comp_def]
    simp only [items, values]
    rfl
  | map =>
    simp only [items, pairUp_shift]
    rfl
  | delta => simp only [item_shift, deltaOf_shift]
  | quasi => simp only [item_shift, offset, quasiOf_shift]
  | envelope => simp only [item_shift, envelopeOf_shift]
  | message => simp only [item_shift, messageOf_shift]
  | response => simp only [item_shift, responseOf_shift]

theorem Frame.push_shift (f : Frame) (item : Item) :
    (f.shift k).push (item.shift k) = (f.push item).shift k := rfl

/-- Containers close the same, wherever they stand. -/
theorem close_shift (stack : List Frame) (item : Item) :
    close (stack.map (Frame.shift k)) (item.shift k) =
      shiftResult k (Progress.shift k) (close stack item) := by
  induction stack generalizing item with
  | nil => rfl
  | cons frame rest ih =>
    simp only [List.map_cons, close, Frame.push_shift, Frame.finish_shift]
    have full : ((frame.push item).shift k).isFull = (frame.push item).isFull := rfl
    rw [full]
    split
    · cases h : (frame.push item).finish [] with
      | ok value => exact ih ⟨(frame.push item).offset, value⟩
      | error e => rfl
    · rfl

theorem takeToken_shift (stack : List Frame) (offset : Nat) (token : Token) :
    takeToken (stack.map (Frame.shift k)) (offset + k) token =
      shiftResult k (Progress.shift k) (takeToken stack offset token) := by
  cases token with
  | leaf value => exact close_shift stack ⟨offset, value⟩
  | head container items =>
    simp only [takeToken, List.length_map]
    split
    · rfl
    · have start : Frame.start container (offset + k) items =
          (Frame.start container offset items).shift k := rfl
      have full : ((Frame.start container offset items).shift k).isFull =
          (Frame.start container offset items).isFull := rfl
      simp only [start, full, Frame.finish_shift]
      split
      · cases h : (Frame.start container offset items).finish [] with
        | ok value => exact close_shift stack ⟨offset, value⟩
        | error e => rfl
      · rfl

theorem takeDeltas_shift (deltas : List Int64) (stack : List Frame) :
    takeDeltas deltas (stack.map (Frame.shift k)) =
      shiftResult k (Progress.shift k) (takeDeltas deltas stack) := by
  cases stack with
  | nil => rfl
  | cons frame rest =>
    simp only [List.map_cons, takeDeltas, Frame.finish_shift]
    cases frame.finish deltas with
    | ok value => exact close_shift rest ⟨frame.offset, value⟩
    | error e => rfl

theorem wantsDeltas_shift (stack : List Frame) :
    wantsDeltas (stack.map (Frame.shift k)) = wantsDeltas stack := by
  cases stack <;> rfl

theorem settle_agrees {take take' : α → Except DecodeError Progress} {r r' : Reading α}
    {more : Bytes} (h : r.Agrees k more Eq r')
    (same : ∀ a, take' a = shiftResult k (Progress.shift k) (take a)) :
    (settle take r).Agrees k more (fun progress progress' => progress' = progress.shift k)
      (settle take' r') := by
  cases h with
  | done equal =>
    subst equal
    simp only [settle, same]
    cases take _ with
    | ok progress => exact .done rfl
    | error e => exact .fail e
  | fail e => exact .fail e
  | starved some => exact .starved some
  | supplied some enough => exact .supplied some enough

/-- A step does the same in another input, with `k` bytes more in front. -/
theorem agrees_readStep (stack : List Frame) :
    (readStep stack).Agrees k (fun progress progress' => progress' = progress.shift k)
      (readStep (stack.map (Frame.shift k))) := by
  intro more place
  simp only [readStep, wantsDeltas_shift]
  split
  · exact settle_agrees (agrees_readDeltas more place) fun deltas => takeDeltas_shift deltas stack
  · exact settle_agrees (Token.agrees_read more place)
      fun token => takeToken_shift stack place.offset token

end Shift

end Telemetry.Bysant
