import Telemetry.Bysant.Frame
/-!
# The incremental decoder

Bytes arrive in chunks and are kept until the value that they belong to is complete. The decoder
reads one token after the other from those that it has not read yet, as soon as there are as many
as the token is known to need, and never reads a token again. Containers under construction wait on
a stack. The bytes of the unfinished value are kept for whoever goes on reading them elsewhere.
-/

namespace Telemetry.Bysant

/-- A decoder between two chunks of its input. -/
structure Decoder where
  /-- The bytes of the unfinished value that belong to whole tokens, last one first. -/
  taken : Bytes := []
  /-- The bytes behind them. -/
  unread : Bytes := []
  /-- Where the bytes that were not read yet start in the input. -/
  offset : Nat := 0
  /-- How many such bytes the next token needs at least. -/
  needed : Nat := 0
  /-- The open containers, innermost first. -/
  stack : List Frame := []
  /-- Why decoding stopped for good, if it did. -/
  failure : Option DecodeError := none
  /-- The end of the input was announced. -/
  finished : Bool := false

namespace Decoder

def new : Decoder := {}

/-- The bytes of the unfinished value. -/
def pending (d : Decoder) : Bytes := d.taken.reverse ++ d.unread

def hasPending (d : Decoder) : Bool := !(d.taken.isEmpty && d.unread.isEmpty)

def append (d : Decoder) (chunk : Bytes) : Decoder := { d with unread := d.unread ++ chunk }

/-- Whether too few bytes are there for the next token. -/
def isStarved (d : Decoder) : Bool := (d.unread.drop (d.needed - 1)).isEmpty

/-- The decoder behind a token that ends where `rest` starts. The bytes of a value that the token
completes are dropped. -/
def advance (d : Decoder) (rest : Place) : Progress → Decoder
  | .inside stack =>
    { d with
      taken := (d.unread.take (rest.offset - d.offset)).reverse ++ d.taken
      unread := rest.bytes
      offset := rest.offset
      needed := 0
      stack }
  | .emitted _ =>
    { d with taken := [], unread := rest.bytes, offset := rest.offset, needed := 0, stack := [] }

/-- Reads as many tokens as there are. The values that they complete are added in front of those in
`items`. -/
def drain (d : Decoder) (items : List Item) : Decoder × List Item :=
  if d.isStarved then (d, items)
  else
    match _ : readStep d.stack ⟨d.offset, d.unread⟩ with
    | .more missing => ({ d with needed := d.unread.length + missing }, items)
    | .fail e => ({ d with failure := some e }, items)
    | .done progress rest => (d.advance rest progress).drain (progress.item?.toList ++ items)
termination_by d.unread.length
decreasing_by
  obtain ⟨used, bytes, -, some⟩ := uses_readStep _ _ _ _ ‹_›
  have : d.unread.length = used.length + rest.bytes.length := by
    rw [← List.length_append, ← bytes]
  cases progress <;> simp only [advance] <;> omega

@[simp] theorem pending_append (d : Decoder) (chunk : Bytes) :
    (d.append chunk).pending = d.pending ++ chunk := by
  simp [pending, append]

/-- A step leaves the pending bytes as they are, unless it completes a value. -/
theorem pending_advance {d : Decoder} {progress : Progress} {rest : Place}
    (step : readStep d.stack ⟨d.offset, d.unread⟩ = .done progress rest) :
    ∃ dropped : Bytes, d.pending = dropped ++ (d.advance rest progress).pending ∧
      progress.item?.toList.length ≤ dropped.length := by
  obtain ⟨used, bytes, offset, some⟩ := uses_readStep _ _ _ _ step
  have bytes : d.unread = used ++ rest.bytes := bytes
  cases progress with
  | inside stack =>
    refine ⟨[], ?_, Nat.le_refl 0⟩
    have length : rest.offset - d.offset = used.length := by
      rw [offset]
      exact Nat.add_sub_cancel_left ..
    simp [pending, advance, bytes, length]
  | emitted item =>
    refine ⟨d.taken.reverse ++ used, ?_, ?_⟩
    · simp [pending, advance, bytes]
    · rw [List.length_append]
      exact Nat.le_trans some (Nat.le_add_left ..)

/-- Every value that is given out takes at least one byte off the front of the pending ones. -/
theorem pending_drain (d : Decoder) (items : List Item) :
    ∃ (dropped : Bytes) (found : List Item), d.pending = dropped ++ (d.drain items).1.pending ∧
      (d.drain items).2 = found ++ items ∧ found.length ≤ dropped.length := by
  fun_induction drain d items with
  | case1 d items => exact ⟨[], [], rfl, rfl, Nat.le_refl 0⟩
  | case2 d items => exact ⟨[], [], rfl, rfl, Nat.le_refl 0⟩
  | case3 d items => exact ⟨[], [], rfl, rfl, Nat.le_refl 0⟩
  | case4 d items starved progress rest step ih =>
    obtain ⟨dropped, pending, some⟩ := pending_advance step
    obtain ⟨dropped', found, pending', items', some'⟩ := ih
    refine ⟨dropped ++ dropped', found ++ progress.item?.toList, ?_, ?_, ?_⟩
    · rw [pending, pending', List.append_assoc]
    · rw [items', List.append_assoc]
    · simp only [List.length_append]
      omega

/-- Whether decoding goes on. -/
def status (d : Decoder) : Except DecodeError Unit :=
  match d.failure with
  | some e => .error e
  | none => .ok ()

/-- Takes in a chunk. Gives the values that it completes, also those before an error. A decoder that
failed answers with the same error from then on. -/
def feed (d : Decoder) (chunk : Bytes) : Decoder × List Item × Except DecodeError Unit :=
  match d.failure with
  | some e => (d, [], .error e)
  | none =>
    if d.finished then (d, [], .error .finished)
    else
      let (d, items) := (d.append chunk).drain []
      (d, items.reverse, d.status)

/-- A chunk that completes a value leaves fewer bytes pending than were there with it. -/
theorem pending_lt_of_feed {d d' : Decoder} {chunk : Bytes} {items : List Item}
    {result : Except DecodeError Unit} (h : d.feed chunk = (d', items, result)) (some : items ≠ []) :
    d'.pending.length < d.pending.length + chunk.length := by
  unfold feed at h
  split at h
  · cases h
    exact absurd rfl some
  · split at h
    · cases h
      exact absurd rfl some
    · obtain ⟨dropped, found, pending, items', bound⟩ := pending_drain (d.append chunk) []
      have length := congrArg List.length pending
      cases h
      have : found ≠ [] := by
        rintro rfl
        exact some (by rw [items']; rfl)
      have := List.length_pos_iff.mpr this
      simp only [pending_append, List.length_append] at length
      omega

/-- Takes in chunks one after the other, up to an error. Gives what each of them completes. -/
def feedAll : List Bytes → Decoder → Decoder × List (List Item) × Except DecodeError Unit
  | [], d => (d, [], .ok ())
  | chunk :: rest, d =>
    match d.feed chunk with
    | (d, items, .error e) => (d, [items], .error e)
    | (d, items, .ok ()) =>
      let (d, others, result) := feedAll rest d
      (d, items :: others, result)

/-- Announces the end of the input, which should not fall inside a value. -/
def finish (d : Decoder) : Decoder × Except DecodeError Unit :=
  match d.failure with
  | some e => (d, .error e)
  | none =>
    if d.finished then (d, .error .finished)
    else
      ({ d with finished := true },
        if d.hasPending then .error (.trailingBytes d.pending.length) else .ok ())

end Decoder

/-- The values that some bytes encode. -/
def decode (b : Bytes) : Except DecodeError (List Value) :=
  let (d, items, result) := Decoder.new.feed b
  match result with
  | .error e => .error e
  | .ok () =>
    match d.finish.2 with
    | .error e => .error e
    | .ok () => .ok (items.map Item.value)

end Telemetry.Bysant
