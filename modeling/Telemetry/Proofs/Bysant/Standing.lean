import Telemetry.Proofs.Bysant.Fallbacks
import Telemetry.Proofs.Bysant.Offsets
/-!
# How a decoder stands between two chunks

The decoder keeps the bytes of the unfinished value, a cursor behind those that it has read, and the
open containers. These stay in step with each other and with the bytes that were fed: each token
moves the cursor over the bytes that it is made of, opens what it announces and closes what it
completes. So no step of the decoder ever lacks what it counts on.
-/

namespace Telemetry.Bysant

/-! ## How much is asked for -/

namespace Reader

variable {α β : Type} {P : α → Prop}

/-- Where bytes are missing, the reader asks for at least one more, and for no more than a body can
have. -/
def Asks (r : Reader α) : Prop :=
  ∀ place missing, r place = .more missing → 0 < missing ∧ missing ≤ maxLength

theorem asks_pure (a : α) : Asks (Reader.pure a) := nofun

theorem asks_fail (e : DecodeError) : Asks (fail e : Reader α) := nofun

theorem asks_offset : Asks offset := nofun

theorem asks_ite {p : Prop} [Decidable p] {r r' : Reader α} (h : p → r.Asks) (h' : ¬ p → r'.Asks) :
    Asks (if p then r else r') := by
  split
  · exact h ‹_›
  · exact h' ‹_›

theorem Asks.bind {r : Reader α} {f : α → Reader β} (first : r.Asks) (gives : r.Gives P)
    (second : ∀ a, P a → (f a).Asks) : (r >>= f).Asks := by
  intro place missing short
  rw [bind_apply] at short
  cases read : r place with
  | more missing' =>
    rw [read] at short
    cases short
    exact first place missing read
  | fail e =>
    rw [read] at short
    cases short
  | done a rest =>
    rw [read] at short
    exact second a (gives place a rest read) rest missing short

/-- When it does not matter for what comes next what was read. -/
theorem Asks.then {r : Reader α} {f : α → Reader β} (first : r.Asks) (second : ∀ a, (f a).Asks) :
    (r >>= f).Asks :=
  first.bind (gives_true r) fun a _ => second a

theorem asks_byte : Asks byte := by
  intro place missing short
  unfold byte at short
  split at short
  · cases short
    exact ⟨Nat.one_pos, by decide⟩
  · cases short

theorem asks_take {n : Nat} (le : n ≤ maxLength) : Asks (take n) := by
  intro place missing short
  simp only [take] at short
  split at short
  · cases short
  · rename_i early
    cases short
    have : (place.bytes.take n).length ≤ n := List.length_take_le ..
    omega

theorem asks_varint : Asks varint := by
  intro place missing short
  unfold varint at short
  split at short
  · cases short
  · cases short
    exact ⟨Nat.one_pos, by decide⟩
  · cases short

theorem asks_length : Asks length :=
  asks_offset.then fun _ => asks_varint.then fun _ =>
    asks_ite (fun _ => asks_pure _) fun _ => asks_fail _

theorem asks_text {n : Nat} (le : n ≤ maxLength) : Asks (text n) := by
  refine asks_offset.then fun start => (asks_take le).then fun body => ?_
  split
  · exact asks_pure _
  · exact asks_fail _

end Reader

theorem Token.asks_afterTag (tag : UInt8) (start : Nat) : (afterTag tag start).Asks := by
  have plain (token : Token) : (Reader.pure token).Asks := Reader.asks_pure token
  have short {n : Nat} (le : n ≤ 0x43) : n ≤ maxLength := Nat.le_trans le (by decide)
  have leaf {α : Type} {r : Reader α} (h : r.Asks) (v : α → Value) :
      (r >>= fun a => Reader.pure (Token.leaf (v a))).Asks := h.then fun a => plain _
  have int {width : Nat} (le : width ≤ 8) :
      (Reader.int width >>= fun i => Reader.pure (Token.leaf (.int i))).Asks :=
    leaf ((Reader.asks_take (short (Nat.le_trans le (by decide)))).then fun _ =>
      Reader.asks_pure _) _
  have sized {α : Type} {r : Nat → Reader α} (h : ∀ n ≤ maxLength, (r n).Asks) (v : α → Value) :
      (Reader.length >>= fun n => r n >>= fun a => Reader.pure (Token.leaf (v a))).Asks :=
    Reader.asks_length.bind Reader.gives_length fun n le => leaf (h n le) v
  unfold afterTag
  repeat' refine Reader.asks_ite (fun _ => ?_) (fun _ => ?_)
  all_goals first
    | exact plain _
    | exact Reader.asks_fail _
    | exact int (by decide)
    | exact leaf (Reader.asks_text (short (by omega))) _
    | exact leaf (Reader.asks_take (short (by omega))) _
    | exact sized (fun n le => Reader.asks_text le) _
    | exact sized (fun n le => Reader.asks_take le) _
    | exact Reader.asks_length.then fun n => plain _

theorem asks_readDeltas : readDeltas.Asks := by
  refine Reader.asks_offset.then fun start => Reader.asks_byte.then fun width => ?_
  refine Reader.asks_ite (fun _ => ?_) fun _ => Reader.asks_fail _
  refine Reader.asks_offset.then fun countStart => Reader.asks_length.then fun count => ?_
  refine Reader.asks_ite (fun _ => Reader.asks_fail _) fun _ => ?_
  refine Reader.asks_ite (fun _ => Reader.asks_fail _) fun short => ?_
  exact (Reader.asks_take (Nat.not_lt.mp short)).then fun body => Reader.asks_pure _

theorem asks_readStep (stack : List Frame) : (readStep stack).Asks := by
  cases wants : wantsDeltas stack with
  | true =>
    rw [readStep_eq_deltas wants]
    refine asks_readDeltas.then fun deltas => ?_
    cases takeDeltas deltas stack with
    | ok progress => exact Reader.asks_pure progress
    | error e => exact Reader.asks_fail e
  | false =>
    rw [readStep_eq_token wants]
    refine Reader.asks_offset.then fun start => ?_
    have read : Token.read.Asks :=
      Reader.asks_offset.then fun start => Reader.asks_byte.then fun tag =>
        Token.asks_afterTag tag start
    refine read.then fun token => ?_
    cases takeToken stack start token with
    | ok progress => exact Reader.asks_pure progress
    | error e => exact Reader.asks_fail e

/-! ## Every step keeps the open containers upright -/

/-- The value is complete, or some containers are open and upright. -/
def Progress.Upright (fed : Bytes) : Progress → Prop
  | inside stack => stack ≠ [] ∧ Bysant.Upright fed stack
  | emitted _ => True

section Stack

variable {fed : Bytes} {stack : List Frame} {progress : Progress}

theorem Upright.shallow (h : Upright fed stack) : stack.length ≤ maxDepth := by
  cases stack with
  | nil => exact Nat.zero_le _
  | cons f rest => exact h.1

theorem Upright.announced (h : Upright fed stack) : ∀ f ∈ stack, f.Announced fed := by
  cases stack with
  | nil => exact List.forall_mem_nil _
  | cons f rest =>
    obtain ⟨-, announced, -, waiting⟩ := h
    exact List.forall_mem_cons.mpr ⟨announced, fun f member => (waiting f member).1⟩

theorem Upright.below (h : Upright fed stack) :
    ∀ f ∈ stack.tail, f.items.length < f.expected := by
  cases stack with
  | nil => exact List.forall_mem_nil _
  | cons f rest =>
    obtain ⟨-, -, -, waiting⟩ := h
    intro f member
    exact Nat.lt_add_of_pos_right (waiting f member).2

theorem Upright.top (h : Upright fed stack) : ∀ f ∈ stack.head?,
    f.items.length < f.expected ∨ f.container = .delta ∧ f.items.length = 2 ∧ f.expected = 2 := by
  cases stack with
  | nil => exact nofun
  | cons f rest =>
    obtain ⟨-, announced, incomplete, -⟩ := h
    rintro f ⟨⟩
    rcases Frame.waits_of_incomplete incomplete with waits | ⟨delta, all⟩
    · exact .inl (Nat.lt_add_of_pos_right waits)
    · have two := announced.length_eq_two delta all
      exact .inr ⟨delta, two, (Frame.length_of_missing_eq_zero all).symm.trans two⟩

/-- A container that is not full stays open, in front of those that wait for it. -/
theorem upright_of_kept {f : Frame} (shallow : stack.length < maxDepth)
    (announced : f.Announced fed) (waiting : Waiting fed stack)
    (handOn : ∀ v, close stack ⟨f.offset, v⟩ = .ok progress → progress.Upright fed)
    (h : (if f.isFull then
        match f.finish [] with
        | .ok v => close stack ⟨f.offset, v⟩
        | .error e => .error e
      else .ok (.inside (f :: stack))) = Except.ok progress) : progress.Upright fed := by
  by_cases full : f.isFull = true
  · rw [if_pos full] at h
    split at h
    · exact handOn _ h
    · cases h
  · rw [if_neg full] at h
    cases h
    exact ⟨List.cons_ne_nil _ _, shallow, announced, Bool.eq_false_iff.mpr full, waiting⟩

theorem close_upright {item : Item} (shallow : stack.length ≤ maxDepth)
    (waiting : Waiting fed stack) (closed : close stack item = .ok progress) :
    progress.Upright fed := by
  -- each container that is full hands its value to the next one, which was waiting too
  induction stack generalizing item with
  | nil =>
    cases closed
    trivial
  | cons f rest ih =>
    obtain ⟨⟨announced, waits⟩, waiting⟩ := List.forall_mem_cons.mp waiting
    exact upright_of_kept shallow (announced.push waits item) waiting
      (fun v handed => ih (Nat.le_of_succ_le shallow) waiting handed) closed

theorem takeToken_upright {token : Token} {o : Nat} {rest : Place}
    (shallow : stack.length ≤ maxDepth) (waiting : Waiting fed stack)
    (read : Token.read (placeAt fed o) = .done token rest)
    (taken : takeToken stack o token = .ok progress) : progress.Upright fed := by
  cases token with
  | leaf v => exact close_upright shallow waiting taken
  | head container items =>
    rw [takeToken] at taken
    by_cases deep : maxDepth ≤ stack.length
    · rw [if_pos deep] at taken
      cases taken
    · rw [if_neg deep] at taken
      have announced : (Frame.start container o items).Announced fed :=
        ⟨rest, by rw [Frame.expected_start]; exact read⟩
      exact upright_of_kept (Nat.not_le.mp deep) announced waiting
        (fun v handed => close_upright shallow waiting handed) taken

theorem takeDeltas_upright {deltas : List Int64} (upright : Upright fed stack)
    (wants : wantsDeltas stack = true) (taken : takeDeltas deltas stack = .ok progress) :
    progress.Upright fed := by
  cases stack with
  | nil => cases wants
  | cons f rest =>
    obtain ⟨shallow, -, -, waiting⟩ := upright
    rw [takeDeltas] at taken
    split at taken
    · exact close_upright (Nat.le_of_lt shallow) waiting taken
    · cases taken

theorem readStep_upright {o : Nat} {rest : Place} (upright : Upright fed stack)
    (step : readStep stack (placeAt fed o) = .done progress rest) : progress.Upright fed := by
  rw [readStep] at step
  cases wants : wantsDeltas stack with
  | true =>
    rw [if_pos wants] at step
    obtain ⟨deltas, -, taken⟩ := of_settle_done step
    exact takeDeltas_upright upright wants taken
  | false =>
    rw [if_neg (by simp [wants])] at step
    obtain ⟨token, read, taken⟩ := of_settle_done step
    exact takeToken_upright upright.shallow (upright.waiting wants) read taken

/-- More bytes behind it do not change what a head announces. -/
theorem Frame.Announced.append {f : Frame} (h : f.Announced fed) (more : Bytes) :
    f.Announced (fed ++ more) := by
  obtain ⟨rest, read⟩ := h
  obtain ⟨used, bytes, -, some⟩ := Token.uses_read _ _ _ read
  have inside : f.offset ≤ fed.length := by
    have length := congrArg List.length bytes
    simp only [placeAt, List.length_drop, List.length_append] at length
    omega
  have longer : placeAt (fed ++ more) f.offset = (placeAt fed f.offset).shift 0 more := by
    rw [placeAt, List.drop_append_of_le_length inside]
    rfl
  have agrees := Token.agrees_read (k := 0) more (placeAt fed f.offset)
  rw [read, ← longer] at agrees
  generalize later : Token.read (placeAt (fed ++ more) f.offset) = reading at agrees
  cases agrees with
  | done same => exact ⟨_, by rw [later, same]⟩

theorem Upright.append (h : Upright fed stack) (more : Bytes) : Upright (fed ++ more) stack := by
  cases stack with
  | nil => trivial
  | cons f rest =>
    obtain ⟨shallow, announced, incomplete, waiting⟩ := h
    refine ⟨shallow, announced.append more, incomplete, fun f member => ?_⟩
    obtain ⟨announced, waits⟩ := waiting f member
    exact ⟨announced.append more, waits⟩

end Stack

namespace Decoder

variable {d : Decoder} {fed : Bytes} {items : List Item}

/-! ## The bytes of the unfinished value -/

/-- How many of the pending bytes belong to whole tokens. -/
def cursor (d : Decoder) : Nat := d.taken.length

/-- Where the pending bytes start in the input. -/
def base (d : Decoder) : Nat := d.offset - d.cursor

/-- The decoder has the bytes of the unfinished value out of the bytes `fed`, and open containers
exactly if it has read some of these. -/
structure Tracks (d : Decoder) (fed : Bytes) : Prop where
  behind : d.cursor ≤ d.offset
  inside : d.offset ≤ fed.length
  pending : d.pending = fed.drop d.base
  upright : Upright fed d.stack
  empty : d.stack = [] ↔ d.cursor = 0
  bounded : d.needed ≤ d.unread.length + maxLength

theorem length_pending (d : Decoder) : d.pending.length = d.cursor + d.unread.length := by
  rw [pending, List.length_append, List.length_reverse, cursor]

theorem tracks_new : new.Tracks [] :=
  ⟨Nat.le_refl 0, Nat.le_refl 0, rfl, trivial, ⟨fun _ => rfl, fun _ => rfl⟩, Nat.zero_le _⟩

/-- What was not read yet starts at the offset. -/
theorem Tracks.unread (h : d.Tracks fed) : d.unread = fed.drop d.offset :=
  calc d.unread
      = d.pending.drop d.cursor := (List.drop_left' (List.length_reverse ..)).symm
    _ = (fed.drop d.base).drop d.cursor := by rw [h.pending]
    _ = fed.drop d.offset := by rw [List.drop_drop, base, Nat.sub_add_cancel h.behind]

theorem Tracks.placeAt (h : d.Tracks fed) :
    (⟨d.offset, d.unread⟩ : Place) = placeAt fed d.offset := by
  rw [Bysant.placeAt, h.unread]

theorem Tracks.length_unread (h : d.Tracks fed) : d.unread.length = fed.length - d.offset := by
  rw [h.unread, List.length_drop]

/-- A token stands in the bytes that were fed. -/
theorem Tracks.step (h : d.Tracks fed) {progress : Progress} {rest : Place}
    (step : readStep d.stack ⟨d.offset, d.unread⟩ = .done progress rest) :
    rest = Bysant.placeAt fed rest.offset ∧ d.offset < rest.offset ∧ rest.offset ≤ fed.length := by
  rw [h.placeAt] at step
  exact (uses_readStep d.stack).placeAt step h.inside

@[simp] theorem offset_advance (rest : Place) (progress : Progress) :
    (d.advance rest progress).offset = rest.offset := by
  cases progress <;> rfl

/-- Inside a value, the cursor moves over the token. -/
theorem cursor_inside {stack : List Frame} {rest : Place}
    (enough : rest.offset - d.offset ≤ d.unread.length) :
    (d.advance rest (.inside stack)).cursor = rest.offset - d.offset + d.cursor := by
  simp [cursor, advance, enough]

/-- Inside a value, its bytes start where they started. -/
theorem base_inside {stack : List Frame} {rest : Place} (behind : d.cursor ≤ d.offset)
    (forward : d.offset < rest.offset) (enough : rest.offset - d.offset ≤ d.unread.length) :
    (d.advance rest (.inside stack)).base = d.base := by
  rw [base, base, cursor_inside enough, offset_advance]
  omega

/-- Every token keeps the bytes and the open containers in step. -/
theorem Tracks.advance (h : d.Tracks fed) {progress : Progress} {rest : Place}
    (step : readStep d.stack ⟨d.offset, d.unread⟩ = .done progress rest) :
    (d.advance rest progress).Tracks fed := by
  obtain ⟨here, forward, inside⟩ := h.step step
  have upright : progress.Upright fed := by
    have step := step
    rw [h.placeAt] at step
    exact readStep_upright h.upright step
  cases progress with
  | inside stack =>
    obtain ⟨some, upright⟩ := upright
    have enough : rest.offset - d.offset ≤ d.unread.length := by
      rw [h.length_unread]
      omega
    have behind := h.behind
    refine ⟨?_, inside, ?_, upright, ?_, Nat.zero_le _⟩
    · rw [cursor_inside enough, offset_advance]
      omega
    · rw [pending_inside step, base_inside behind forward enough]
      exact h.pending
    · refine ⟨fun none => absurd none some, fun zero => ?_⟩
      rw [cursor_inside enough] at zero
      omega
  | emitted item =>
    exact ⟨Nat.zero_le _, inside, congrArg Place.bytes here, trivial,
      ⟨fun _ => rfl, fun _ => rfl⟩, Nat.zero_le _⟩

/-- A token that is not whole leaves everything where it is. -/
theorem Tracks.more (h : d.Tracks fed) {missing : Nat}
    (step : readStep d.stack ⟨d.offset, d.unread⟩ = .more missing) :
    Tracks { d with needed := d.unread.length + missing } fed := by
  obtain ⟨-, le⟩ := asks_readStep _ _ _ step
  exact ⟨h.behind, h.inside, h.pending, h.upright, h.empty, Nat.add_le_add_left le _⟩

theorem Tracks.append (h : d.Tracks fed) (chunk : Bytes) : (d.append chunk).Tracks (fed ++ chunk) := by
  obtain ⟨behind, inside, pending, upright, empty, bounded⟩ := h
  refine ⟨behind, ?_, ?_, upright.append chunk, empty, ?_⟩
  · rw [List.length_append]
    exact Nat.le_add_right_of_le inside
  · have base : d.base ≤ fed.length := Nat.le_trans (Nat.sub_le _ _) inside
    show (d.append chunk).pending = (fed ++ chunk).drop d.base
    rw [pending_append, pending, List.drop_append_of_le_length base]
  · show d.needed ≤ (d.unread ++ chunk).length + maxLength
    rw [List.length_append]
    omega

/-- Reading on keeps everything in step, and nothing has to be made up on the way. -/
theorem Tracks.drain (h : d.Tracks fed) (items : List Item) :
    (d.drain items).1.Tracks fed ∧ d.drain? items = some (d.drain items) := by
  -- along the tokens; none of the outcomes of a step stops the decoder without fallbacks
  fun_induction Decoder.drain d items with
  | case1 d items starved =>
    rw [drain?, if_pos starved]
    exact ⟨h, rfl⟩
  | case2 d items ready missing step =>
    rw [drain?, if_neg ready, readStep?_eq h.upright, step]
    exact ⟨h.more step, if_pos (asks_readStep _ _ _ step)⟩
  | case3 d items ready e step =>
    rw [drain?, if_neg ready, readStep?_eq h.upright, step]
    exact ⟨⟨h.behind, h.inside, h.pending, h.upright, h.empty, h.bounded⟩, rfl⟩
  | case4 d items ready progress rest step ih =>
    obtain ⟨-, forward, -⟩ := h.step step
    have skipped := (uses_readStep d.stack).cuts _ _ _ step
    rw [drain?, if_neg ready, readStep?_eq h.upright, step]
    obtain ⟨tracks, same⟩ := ih (h.advance step)
    exact ⟨tracks, (if_pos ⟨forward, skipped⟩).trans same⟩

/-! ## Chunk by chunk -/

/-- Between two chunks, a decoder that has not failed keeps everything in step. -/
def Stays (d : Decoder) (fed : Bytes) : Prop := d.failure = none → d.AtRest ∧ d.Tracks fed

theorem Stays.feed (h : d.Stays fed) (chunk : Bytes) : (d.feed chunk).1.Stays (fed ++ chunk) := by
  intro alive
  cases failure : d.failure with
  | some e =>
    rw [feed_of_failure failure, failure] at alive
    cases alive
  | none =>
    obtain ⟨rest, tracks⟩ := h failure
    refine ⟨rest.feed alive, ?_⟩
    rw [rest.feed_eq]
    exact ((tracks.append chunk).drain []).1

theorem Stays.feed?_eq (h : d.Stays fed) (chunk : Bytes) : d.feed? chunk = some (d.feed chunk) := by
  cases failure : d.failure with
  | some e =>
    rw [feed_of_failure failure]
    simp only [feed?, failure]
  | none =>
    obtain ⟨rest, tracks⟩ := h failure
    rw [rest.feed_eq]
    simp only [feed?, failure, rest.unfinished, ((tracks.append chunk).drain []).2]
    rfl

theorem stays_behind (chunks : List Bytes) :
    (behind (chunks.map .chunk)).Stays chunks.flatten := by
  induction chunks using List.reverseRecOn with
  | nil => exact fun _ => ⟨atRest_new, tracks_new⟩
  | append_singleton chunks chunk ih =>
    rw [List.map_append, behind, List.foldl_append, List.flatten_append, List.flatten_singleton]
    exact ih.feed chunk

/-- How a decoder that was fed the bytes `fed` stands between two chunks. -/
structure Standing (d : Decoder) (fed : Bytes) : Prop where
  /-- The cursor stands among the pending bytes. -/
  cursor_le : d.cursor ≤ d.pending.length
  base_add_cursor : d.base + d.cursor = d.offset
  base_add_length : d.base + d.pending.length = fed.length
  /-- The pending bytes are the last ones that were fed. -/
  pending : d.pending = fed.drop d.base
  shallow : d.stack.length ≤ maxDepth
  empty : d.stack = [] ↔ d.cursor = 0
  /-- Each open container was announced where it says, with as many items as it expects. -/
  announced : ∀ f ∈ d.stack, f.Announced fed
  /-- Around the innermost container, each one waits for an item. -/
  below : ∀ f ∈ d.stack.tail, f.items.length < f.expected
  /-- So does the innermost one, or it waits for differences. -/
  top : ∀ f ∈ d.stack.head?, f.items.length < f.expected ∨
    f.container = .delta ∧ f.items.length = 2 ∧ f.expected = 2
  /-- Everything is read, or the next token is known not to be whole. -/
  starved : d.cursor = d.pending.length ∨ d.pending.length < d.cursor + d.needed
  /-- Not more is asked for than a body can have. -/
  bounded : d.cursor + d.needed ≤ d.pending.length + maxLength

theorem Tracks.standing (h : d.Tracks fed) (starved : d.isStarved = true) : d.Standing fed := by
  obtain ⟨behind, inside, pending, upright, empty, bounded⟩ := h
  have length := length_pending d
  refine ⟨?_, Nat.sub_add_cancel behind, ?_, pending, upright.shallow, empty, upright.announced,
    upright.below, upright.top, ?_, ?_⟩
  · rw [length]
    exact Nat.le_add_right ..
  · have base : d.base ≤ fed.length := Nat.le_trans (Nat.sub_le ..) inside
    rw [pending, List.length_drop, Nat.add_sub_cancel' base]
  · rw [length]
    rcases (isStarved_iff d).mp starved with none | few
    · left
      rw [none, List.length_nil, Nat.add_zero]
    · right
      exact Nat.add_lt_add_left few _
  · rw [length, Nat.add_assoc]
    exact Nat.add_le_add_left bounded _

/-- Behind any chunks, a decoder that has not failed holds the last bytes that were fed, with a cursor
among them, and open containers as they were announced, each of which waits for an item or, if it is
the innermost, for differences. It has read all that it could. And whatever comes next, nothing has
to be made up: no item or differences that are not there, no container that is not open, no bytes
behind the last one, neither where a token ends nor where a reader cuts off a body or a number. -/
theorem standing_behind (chunks : List Bytes) :
    let d := behind (chunks.map .chunk)
    (d.failure = none → d.Standing chunks.flatten) ∧
      (∀ chunk, d.feed? chunk = some (d.feed chunk)) ∧
      (∀ n, (Reader.take n).Cuts) ∧ Reader.varint.Cuts := by
  intro d
  have stays := stays_behind chunks
  refine ⟨fun alive => ?_, stays.feed?_eq, fun n => (Reader.uses_take n).cuts, Reader.uses_varint.cuts⟩
  obtain ⟨rest, tracks⟩ := stays alive
  exact tracks.standing rest.starved

/-- In a list, the two numbers of a delta vector are in, and the last byte of its differences is not. -/
theorem standing_behind_splitVector :
    let fed : List Bytes := [[0x47, 0x6D, 0xC1], [0xC2, 0x02, 0x01, 0xFF]]
    let d := behind (fed.map .chunk)
    d.failure = none ∧ d.stack.map (fun f => (f.container, f.missing)) = [(.delta, 0), (.list, 2)] ∧
      d.cursor = 4 ∧ d.needed = 4 ∧ d.Standing fed.flatten ∧ d.feed? [0x38] = some (d.feed [0x38]) := by
  intro fed d
  obtain ⟨stands, reads, -⟩ := standing_behind fed
  have alive : d.failure = none := by decide +kernel
  exact ⟨alive, by decide +kernel, by decide +kernel, by decide +kernel, stands alive, reads _⟩

end Decoder

end Telemetry.Bysant
