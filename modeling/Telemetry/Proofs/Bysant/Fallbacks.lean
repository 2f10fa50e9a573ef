import Telemetry.Proofs.Bysant.Descent
import Telemetry.Proofs.Bysant.Places
import Telemetry.Proofs.Bysant.Soundness
/-!
# Nothing to fall back on

Where less is there than it counts on, the decoder goes on all the same: an item that a container
lacks is null, differences that were not read are none, with no open container there is nothing to
close, a slice ends where its bytes end, and a count does not fall below zero. Here are the same steps
without any of that: each of them stops where it would have to make something up. They agree with
the steps of the decoder as long as the open containers are what their heads announced.
-/

namespace Telemetry.Bysant

/-! ## The steps without fallbacks -/

/-- The place `n` bytes further on, if there are as many. -/
def Place.skip? (place : Place) (n : Nat) : Option Place :=
  if n ≤ place.bytes.length then some ⟨place.offset + n, place.bytes.drop n⟩ else none

theorem Place.skip?_eq_some_iff {place rest : Place} {n : Nat} : place.skip? n = some rest ↔
    n ≤ place.bytes.length ∧ rest = ⟨place.offset + n, place.bytes.drop n⟩ := by
  rw [skip?]
  split
  · simp [eq_comm, *]
  · simp [*]

/-- Whatever the reader takes is there. -/
def Reader.Cuts {α : Type} (r : Reader α) : Prop :=
  ∀ place a rest, r place = .done a rest → place.skip? (rest.offset - place.offset) = some rest

theorem Reader.Uses.cuts {α : Type} {least : Nat} {r : Reader α} (uses : r.Uses least) : r.Cuts := by
  intro place a rest read
  obtain ⟨used, bytes, offset, -⟩ := uses place a rest read
  have length : rest.offset - place.offset = used.length := by
    rw [offset, Nat.add_sub_cancel_left]
  rw [length, Place.skip?_eq_some_iff, bytes, List.drop_left, ← offset, List.length_append]
  exact ⟨Nat.le_add_right .., rfl⟩

/-- Cuts bytes into big-endian numbers that fit into a word. No number may be cut short, and nothing
may be left over. -/
def unpackInts? (width : Nat) : (count : Nat) → Bytes → Option (List Int64)
  | 0, b => if b = [] then some [] else none
  | count + 1, b =>
    if 0 < width ∧ width ≤ 8 ∧ width ≤ b.length then
      (unpackInts? width count (b.drop width)).map (Int64.ofInt (Bytes.toInt (b.take width)) :: ·)
    else none

/-- The differences of a delta vector, none if their bytes do not come out even. -/
def readDeltas? : Reader (Option (List Int64)) := do
  let start ← Reader.offset
  let width ← Reader.byte
  if width.toNat = 1 ∨ width.toNat = 2 ∨ width.toNat = 4 ∨ width.toNat = 8 then
    let countStart ← Reader.offset
    let count ← Reader.length
    if maxVectorSamples ≤ count then
      Reader.fail (.vectorTooLarge maxVectorSamples countStart)
    else if maxLength < count * width.toNat then
      Reader.fail (.lengthOverflow (count * width.toNat) maxLength countStart)
    else
      let body ← Reader.take (count * width.toNat)
      pure (unpackInts? width.toNat count body)
  else Reader.fail (.wrongType "delta width 1, 2, 4 or 8" (toString width.toNat) start)

/-- The value of a container that has all the items that its kind is made of, and differences exactly
if it is a delta vector. -/
def Frame.finish? (f : Frame) (deltas : Option (List Int64)) : Option (Except DecodeError Value) :=
  match f.container, f.items.reverse, deltas with
  | .list, items, none => some (.ok (.list (items.map Item.value)))
  | .map, items, none =>
    if items.length % 2 = 0 then some (.ok (.map (pairUp items))) else none
  | .delta, [factor, start], some deltas => some (deltaOf factor start deltas)
  | .quasi, [period, start, shifts], none => some (quasiOf f.offset period start shifts)
  | .envelope, [header, payload, footer], none => some (envelopeOf header payload footer)
  | .message, [path, ticket, body], none => some (messageOf path ticket body)
  | .response, [ticket, status, message], none => some (responseOf ticket status message)
  | _, _, _ => none

/-- Goes on with a value, if it was made. -/
def handOn? (value : Option (Except DecodeError Value))
    (next : Value → Option (Except DecodeError Progress)) : Option (Except DecodeError Progress) :=
  match value with
  | none => none
  | some (.error e) => some (.error e)
  | some (.ok value) => next value

/-- Goes on with the value of a container that is full, and keeps any other one open. -/
def keep? (frame : Frame) (rest : List Frame)
    (next : Value → Option (Except DecodeError Progress)) : Option (Except DecodeError Progress) :=
  if frame.isFull then handOn? (frame.finish? none) next
  else some (.ok (.inside (frame :: rest)))

/-- Hands a value to the innermost open container, which has to wait for one. -/
def close? : List Frame → Item → Option (Except DecodeError Progress)
  | [], item => some (.ok (.emitted item))
  | frame :: rest, item =>
    if frame.missing = 0 then none
    else keep? (frame.push item) rest fun value => close? rest ⟨frame.offset, value⟩

def takeToken? (stack : List Frame) (offset : Nat) : Token → Option (Except DecodeError Progress)
  | .leaf value => close? stack ⟨offset, value⟩
  | .head container items =>
    if maxDepth ≤ stack.length then some (.error (.tooDeep maxDepth offset))
    else keep? (Frame.start container offset items) stack fun value => close? stack ⟨offset, value⟩

/-- Takes in differences, for which a delta vector has to wait. -/
def takeDeltas? (deltas : Option (List Int64)) : List Frame → Option (Except DecodeError Progress)
  | [] => none
  | frame :: rest => handOn? (frame.finish? deltas) fun value => close? rest ⟨frame.offset, value⟩

def settle? {α : Type} (take : α → Option (Except DecodeError Progress)) :
    Reading α → Option (Reading Progress)
  | .done a rest =>
    match take a with
    | none => none
    | some (.error e) => some (.fail e)
    | some (.ok progress) => some (.done progress rest)
  | .more missing => some (.more missing)
  | .fail e => some (.fail e)

def readStep? (stack : List Frame) (place : Place) : Option (Reading Progress) :=
  if wantsDeltas stack then settle? (takeDeltas? · stack) (readDeltas? place)
  else settle? (takeToken? stack place.offset) (Token.read place)

namespace Decoder

/-- Reads as many tokens as there are. Each of them has to take some of the bytes that are there, and
nothing may have to be made up for it; a token that is not whole has to ask for a bounded number of
bytes. -/
def drain? (d : Decoder) (items : List Item) : Option (Decoder × List Item) :=
  if d.isStarved then some (d, items)
  else
    match readStep? d.stack ⟨d.offset, d.unread⟩ with
    | none => none
    | some (.more missing) =>
      if 0 < missing ∧ missing ≤ maxLength then
        some ({ d with needed := d.unread.length + missing }, items)
      else none
    | some (.fail e) => some ({ d with failure := some e }, items)
    | some (.done progress rest) =>
      if d.offset < rest.offset ∧
          Place.skip? ⟨d.offset, d.unread⟩ (rest.offset - d.offset) = some rest then
        (d.advance rest progress).drain? (progress.item?.toList ++ items)
      else none
termination_by d.unread.length
decreasing_by
  rename_i moves
  obtain ⟨forward, skipped⟩ := moves
  obtain ⟨enough, behind⟩ := Place.skip?_eq_some_iff.mp skipped
  have shorter : rest.bytes.length = d.unread.length - (rest.offset - d.offset) :=
    (congrArg (fun place => place.bytes.length) behind).trans (List.length_drop ..)
  have enough : rest.offset - d.offset ≤ d.unread.length := enough
  cases progress <;> simp only [advance] <;> omega

/-- Takes in a chunk as `feed` does, unless something would have to be made up. -/
def feed? (d : Decoder) (chunk : Bytes) :
    Option (Decoder × List Item × Except DecodeError Unit) :=
  match d.failure with
  | some e => some (d, [], .error e)
  | none =>
    if d.finished then some (d, [], .error .finished)
    else ((d.append chunk).drain? []).map fun after => (after.1, after.2.reverse, after.1.status)

end Decoder

/-! ## Containers as they were announced -/

/-- A container of this kind can have so many items. -/
def Container.Admits : Container → Nat → Prop
  | .list, n => n ≤ maxLength
  | .map, n => ∃ pairs ≤ maxLength, n = 2 * pairs
  | .delta, n => n = 2
  | _, n => n = 3

/-- A head announces as many items as its container can have. -/
def Token.Admissible : Token → Prop
  | .leaf _ => True
  | .head container items => container.Admits items

theorem Token.admissible_afterTag (tag : UInt8) (start : Nat) :
    (afterTag tag start).Gives Token.Admissible := by
  have plain {token : Token} (admissible : token.Admissible) :
      (Reader.pure token).Gives Token.Admissible := Reader.gives_pure admissible
  have leaf {α : Type} (r : Reader α) (v : α → Value) :
      (r >>= fun a => Reader.pure (Token.leaf (v a))).Gives Token.Admissible :=
    (Reader.gives_true r).bind fun a _ => plain trivial
  have sized {α : Type} (r : Nat → Reader α) (v : α → Value) :
      (Reader.length >>= fun n => r n >>= fun a => Reader.pure (Token.leaf (v a))).Gives
        Token.Admissible := (Reader.gives_true _).bind fun n _ => leaf (r n) v
  have short {n : Nat} (le : n ≤ 15) : n ≤ maxLength := Nat.le_trans le (by decide)
  unfold afterTag
  repeat' refine Reader.gives_ite (fun _ => ?_) (fun _ => ?_)
  all_goals first
    | exact plain trivial
    | exact plain rfl
    | exact leaf _ _
    | exact sized _ _
    | exact plain (short (by omega))
    | exact plain ⟨_, short (by omega), rfl⟩
    | exact Reader.gives_length.bind fun n le => plain le
    | exact Reader.gives_length.bind fun n le => plain ⟨n, le, rfl⟩
    | exact Reader.gives_fail _

theorem Token.admissible_read : Token.read.Gives Token.Admissible :=
  (Reader.gives_true _).bind fun start _ => (Reader.gives_true _).bind fun tag _ =>
    admissible_afterTag tag start

section Frames

variable {fed : Bytes} {f : Frame} {stack : List Frame}

/-- How many items the container was opened for. -/
def Frame.expected (f : Frame) : Nat := f.items.length + f.missing

@[simp] theorem Frame.expected_start (container : Container) (offset items : Nat) :
    (Frame.start container offset items).expected = items := Nat.zero_add items

/-- A container that waits for an item is opened for as many of them after it came. -/
theorem Frame.expected_push (waits : 0 < f.missing) (item : Item) :
    (f.push item).expected = f.expected := by
  simp only [expected, push, List.length_cons]
  omega

/-- In the bytes `fed`, the head of the container announces the items that it was opened for. -/
def Frame.Announced (fed : Bytes) (f : Frame) : Prop :=
  ∃ rest, Token.read (placeAt fed f.offset) = .done (.head f.container f.expected) rest

theorem Frame.Announced.admits (h : f.Announced fed) : f.container.Admits f.expected := by
  obtain ⟨rest, read⟩ := h
  exact Token.admissible_read _ _ _ read

theorem Frame.Announced.push (h : f.Announced fed) (waits : 0 < f.missing) (item : Item) :
    (f.push item).Announced fed := by
  obtain ⟨rest, read⟩ := h
  exact ⟨rest, by rw [expected_push waits]; exact read⟩

/-- All of these containers wait for an item. -/
def Waiting (fed : Bytes) (stack : List Frame) : Prop :=
  ∀ f ∈ stack, f.Announced fed ∧ 0 < f.missing

/-- What the open containers are like between two tokens: there are not too many of them, and only the
innermost may have all its items, if it is a delta vector that waits for its differences. -/
def Upright (fed : Bytes) : List Frame → Prop
  | [] => True
  | f :: rest => rest.length < maxDepth ∧ f.Announced fed ∧ f.isFull = false ∧ Waiting fed rest

/-- A container that is not full waits for an item, or for differences. -/
theorem Frame.waits_of_incomplete (incomplete : f.isFull = false) :
    0 < f.missing ∨ f.container = .delta ∧ f.missing = 0 := by
  by_cases all : f.missing = 0
  · refine .inr ⟨?_, all⟩
    by_contra other
    simp [isFull, all, other] at incomplete
  · exact .inl (Nat.pos_of_ne_zero all)

theorem Frame.isFull_iff : f.isFull = true ↔ f.missing = 0 ∧ f.container ≠ .delta := by
  simp [isFull]

theorem Frame.awaitsDeltas_iff : f.awaitsDeltas = true ↔ f.container = .delta ∧ f.missing = 0 := by
  simp [awaitsDeltas]

theorem Frame.length_of_missing_eq_zero (all : f.missing = 0) : f.items.length = f.expected := by
  rw [expected, all, Nat.add_zero]

/-- Three items stand where they are looked for. -/
theorem Frame.items_of_length_eq_three (three : f.items.length = 3) :
    f.items.reverse = [f.item 0, f.item 1, f.item 2] := by
  obtain ⟨container, offset, items, missing⟩ := f
  obtain ⟨third, second, first, rfl⟩ := List.length_eq_three.mp three
  rfl

theorem Frame.items_of_length_eq_two (two : f.items.length = 2) :
    f.items.reverse = [f.item 0, f.item 1] := by
  obtain ⟨container, offset, items, missing⟩ := f
  obtain ⟨second, first, rfl⟩ := List.length_eq_two.mp two
  rfl

/-- A full container has what it is made of. -/
theorem Frame.finish?_none (admits : f.container.Admits f.items.length)
    (simple : f.container ≠ .delta) : f.finish? none = some (f.finish []) := by
  cases kind : f.container with
  | list => simp only [finish?, finish, kind]
  | map =>
    rw [kind] at admits
    obtain ⟨pairs, -, count⟩ := admits
    have even : f.items.reverse.length % 2 = 0 := by
      rw [List.length_reverse]
      omega
    simp only [finish?, finish, kind, if_pos even]
  | delta => exact absurd kind simple
  | quasi | envelope | message | response =>
    rw [kind] at admits
    simp only [finish?, finish, kind, items_of_length_eq_three admits]

/-- The numbers of a delta vector are there when its differences are. -/
theorem Frame.finish?_some (delta : f.container = .delta) (two : f.items.length = 2)
    (deltas : List Int64) : f.finish? (some deltas) = some (f.finish deltas) := by
  simp only [finish?, finish, delta, items_of_length_eq_two two]

section Closing

variable {next : Value → Option (Except DecodeError Progress)}
variable {next' : Value → Except DecodeError Progress}

theorem handOn?_some {value : Except DecodeError Value} (same : ∀ v, next v = some (next' v)) :
    handOn? (some value) next = some (match value with
      | .ok v => next' v
      | .error e => .error e) := by
  cases value with
  | ok v => exact same v
  | error e => rfl

/-- A container that has as many items as it was opened for can be finished. -/
theorem keep?_eq (admits : f.container.Admits f.expected) (same : ∀ v, next v = some (next' v)) :
    keep? f stack next = some (if f.isFull then
        match f.finish [] with
        | .ok v => next' v
        | .error e => .error e
      else .ok (.inside (f :: stack))) := by
  rw [keep?]
  by_cases full : f.isFull = true
  · obtain ⟨all, simple⟩ := Frame.isFull_iff.mp full
    have admits : f.container.Admits f.items.length := by
      rw [Frame.length_of_missing_eq_zero all]
      exact admits
    rw [if_pos full, if_pos full, Frame.finish?_none admits simple, handOn?_some same]
  · rw [if_neg full, if_neg full]

end Closing

theorem close?_eq (waiting : Waiting fed stack) (item : Item) :
    close? stack item = some (close stack item) := by
  -- from the innermost container outwards, as far as they are full
  induction stack generalizing item with
  | nil => rfl
  | cons f rest ih =>
    obtain ⟨⟨announced, waits⟩, waiting⟩ := List.forall_mem_cons.mp waiting
    rw [close?, if_neg (Nat.ne_of_gt waits), close]
    exact keep?_eq (announced.push waits item).admits fun v => ih waiting _

/-- A vector that was opened for one item would be closed with nulls in the place of the others. -/
example : close? [Frame.start .quasi 0 1] ⟨1, .null⟩ = none := rfl

theorem takeToken?_eq {token : Token} (waiting : Waiting fed stack) (offset : Nat)
    (admissible : token.Admissible) :
    takeToken? stack offset token = some (takeToken stack offset token) := by
  cases token with
  | leaf v => exact close?_eq waiting _
  | head container items =>
    rw [takeToken?, takeToken]
    by_cases deep : maxDepth ≤ stack.length
    · rw [if_pos deep, if_pos deep]
    · rw [if_neg deep, if_neg deep]
      refine keep?_eq ?_ fun v => close?_eq waiting _
      rw [Frame.expected_start]
      exact admissible

/-- A delta vector that waits for its differences has its two numbers. -/
theorem Frame.Announced.length_eq_two (h : f.Announced fed) (delta : f.container = .delta)
    (all : f.missing = 0) : f.items.length = 2 := by
  have admits := h.admits
  rw [delta] at admits
  rw [length_of_missing_eq_zero all]
  exact admits

theorem takeDeltas?_eq {rest : List Frame} (wants : f.awaitsDeltas = true)
    (announced : f.Announced fed) (waiting : Waiting fed rest) (deltas : List Int64) :
    takeDeltas? (some deltas) (f :: rest) = some (takeDeltas deltas (f :: rest)) := by
  obtain ⟨delta, all⟩ := Frame.awaitsDeltas_iff.mp wants
  have two := announced.length_eq_two delta all
  rw [takeDeltas?, Frame.finish?_some delta two, handOn?_some fun v => close?_eq waiting _]
  rfl

end Frames

/-! ## Differences that come out even -/

theorem unpackInts?_eq {width count : Nat} {b : Bytes} (valid : IsWidth width)
    (long : b.length = count * width) :
    unpackInts? width count b = some (unpackInts width count b) := by
  induction count generalizing b with
  | zero =>
    have none : b = [] := List.length_eq_zero_iff.mp (by rw [long, Nat.zero_mul])
    rw [unpackInts?, if_pos none, unpackInts]
  | succ count ih =>
    rw [Nat.succ_mul] at long
    have fits : 0 < width ∧ width ≤ 8 ∧ width ≤ b.length := by
      rcases valid with rfl | rfl | rfl | rfl <;> omega
    have others : (b.drop width).length = count * width := by
      rw [List.length_drop, long, Nat.add_sub_cancel]
    rw [unpackInts?, if_pos fits, ih others, unpackInts, Option.map_some]

namespace Reader

variable {α : Type}

/-- What comes behind a byte string may count on its length. -/
theorem take_bind_congr {n : Nat} {r r' : Bytes → Reader α}
    (same : ∀ body : Bytes, body.length = n → r body = r' body) :
    take n >>= r = take n >>= r' := by
  refine ext fun place => ?_
  rw [bind_apply, bind_apply]
  cases read : take n place with
  | done body rest => exact congrFun (same body (gives_take n place body rest read)) rest
  | more missing => rfl
  | fail e => rfl

end Reader

/-- The bytes of differences come out even. -/
theorem readDeltas?_eq : readDeltas? = readDeltas >>= fun deltas => pure (some deltas) := by
  rw [readDeltas, bind_assoc]
  refine bind_congr fun start => ?_
  rw [bind_assoc]
  refine bind_congr fun width => ?_
  by_cases valid : width.toNat = 1 ∨ width.toNat = 2 ∨ width.toNat = 4 ∨ width.toNat = 8
  · rw [if_pos valid, if_pos valid, bind_assoc]
    refine bind_congr fun countStart => ?_
    rw [bind_assoc]
    refine bind_congr fun count => ?_
    by_cases many : maxVectorSamples ≤ count
    · rw [if_pos many, if_pos many, Reader.fail_bind]
    · rw [if_neg many, if_neg many]
      by_cases long : maxLength < count * width.toNat
      · rw [if_pos long, if_pos long, Reader.fail_bind]
      · rw [if_neg long, if_neg long, bind_assoc]
        refine Reader.take_bind_congr fun body length => ?_
        rw [pure_bind, unpackInts?_eq valid length]
  · rw [if_neg valid, if_neg valid, Reader.fail_bind]

/-! ## One step -/

theorem settle?_eq {α : Type} {take? : α → Option (Except DecodeError Progress)}
    {take : α → Except DecodeError Progress} {r : Reading α}
    (same : ∀ a rest, r = .done a rest → take? a = some (take a)) :
    settle? take? r = some (settle take r) := by
  cases r with
  | done a rest =>
    simp only [settle?, settle, same a rest rfl]
    cases take a <;> rfl
  | more missing => rfl
  | fail e => rfl

section Step

variable {fed : Bytes} {stack : List Frame}

theorem Upright.waiting (h : Upright fed stack) (wants : wantsDeltas stack = false) :
    Waiting fed stack := by
  cases stack with
  | nil => exact List.forall_mem_nil _
  | cons f rest =>
    obtain ⟨-, announced, incomplete, waiting⟩ := h
    rcases Frame.waits_of_incomplete incomplete with waits | delta
    · exact List.forall_mem_cons.mpr ⟨⟨announced, waits⟩, waiting⟩
    · have wants : f.awaitsDeltas = false := wants
      rw [Frame.awaitsDeltas_iff.mpr delta] at wants
      cases wants

/-- Nothing has to be made up for the next step. -/
theorem readStep?_eq (upright : Upright fed stack) (place : Place) :
    readStep? stack place = some (readStep stack place) := by
  rw [readStep?, readStep]
  cases wants : wantsDeltas stack with
  | false =>
    refine settle?_eq fun token rest read => ?_
    exact takeToken?_eq (upright.waiting wants) _ (Token.admissible_read _ _ _ read)
  | true =>
    cases stack with
    | nil => cases wants
    | cons f others =>
      obtain ⟨-, announced, -, waiting⟩ := upright
      rw [if_pos rfl, if_pos rfl, readDeltas?_eq, Reader.bind_apply]
      cases readDeltas place with
      | more missing => rfl
      | fail e => rfl
      | done deltas rest =>
        show settle? (takeDeltas? · (f :: others)) (.done (some deltas) rest) = _
        rw [settle?, takeDeltas?_eq wants announced waiting, settle]
        cases takeDeltas deltas (f :: others) <;> rfl

end Step

end Telemetry.Bysant
