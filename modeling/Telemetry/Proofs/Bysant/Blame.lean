import Telemetry.Proofs.Bysant.Extents
import Telemetry.Proofs.Bysant.Places
import Telemetry.Proofs.Bysant.Soundness
/-!
# Malformed values are blamed for what is malformed

The parser of the format fails in a part of a value: in its tag, its length, its characters, an item
or the differences behind the items, or in what a container makes of its items. Case by case, the
error points to that part.
-/

namespace Telemetry.Bysant

variable {b : Bytes} {start o : Nat} {e : DecodeError}

/-! ## Readers that fail -/

namespace Reader

variable {α β : Type} {r : Reader α} {place rest : Place}

theorem of_bind_fail {f : α → Reader β} (h : (r >>= f) place = .fail e) :
    r place = .fail e ∨ ∃ a rest, r place = .done a rest ∧ f a rest = .fail e := by
  rw [bind_apply] at h
  cases read : r place with
  | more missing => simp [read] at h
  | fail e' => exact .inl (by simpa [read] using h)
  | done a rest => exact .inr ⟨a, rest, rfl, by simpa only [read] using h⟩

theorem of_map_fail {f : α → β} (h : (r >>= fun a => Pure.pure (f a)) place = .fail e) :
    r place = .fail e := by
  rcases of_bind_fail h with h | ⟨_, _, _, h⟩
  · exact h
  · cases h

theorem take_ne_fail (n : Nat) : take n place ≠ .fail e := by
  intro h
  simp only [take] at h
  split at h <;> cases h

theorem byte_placeAt {x : UInt8} (here : b[o]? = some x) :
    byte (Bysant.placeAt b o) = .done x (Bysant.placeAt b (o + 1)) := by
  obtain ⟨inside, rfl⟩ := List.getElem?_eq_some_iff.mp here
  rw [Bysant.placeAt, List.drop_eq_getElem_cons inside]
  rfl

/-- A byte is read where there is one. -/
theorem of_byte_bind_fail {f : UInt8 → Reader β}
    (h : (byte >>= f) (Bysant.placeAt b o) = .fail e) :
    ∃ x, b[o]? = some x ∧ f x (Bysant.placeAt b (o + 1)) = .fail e := by
  cases here : b[o]? with
  | some x =>
    rw [bind_apply, byte_placeAt here] at h
    exact ⟨x, rfl, h⟩
  | none =>
    have behind := List.getElem?_eq_none_iff.mp here
    rw [bind_apply, Bysant.placeAt, List.drop_of_length_le behind] at h
    cases h

theorem of_varint_done {value : UInt64} (h : varint (Bysant.placeAt b o) = .done value rest) :
    ∃ used, Varint.read (b.drop o) = .complete value used := by
  unfold varint at h
  split at h
  · rename_i value' used read
    cases h
    exact ⟨used, read⟩
  · cases h
  · cases h

/-- A length is a number that is not above the limit. -/
theorem length_placeAt : length (Bysant.placeAt b o) = (varint >>= fun value =>
    if value.toNat ≤ maxLength then Pure.pure value.toNat
    else fail (.lengthOverflow value.toNat maxLength o)) (Bysant.placeAt b o) := rfl

theorem of_length_done {n : Nat} (h : length (Bysant.placeAt b o) = .done n rest) :
    ∃ (value : UInt64) (used : Nat), Varint.read (b.drop o) = .complete value used ∧
      value.toNat = n := by
  rw [length_placeAt] at h
  obtain ⟨value, behind, read, h⟩ := of_bind_done h
  obtain ⟨used, digits⟩ := of_varint_done read
  refine ⟨value, used, digits, ?_⟩
  split at h <;> cases h
  rfl

theorem times_succ {n : Nat} {first : α} {others : List α} {middle : Place}
    (h : r place = .done first middle) (h' : r.times n middle = .done others rest) :
    r.times (n + 1) place = .done (first :: others) rest := by
  rw [times, bind_apply, h]
  dsimp only
  rw [bind_apply, h']
  rfl

/-- Of some things in a row, one fails behind those in front of it. -/
theorem of_times_fail {n : Nat} (h : r.times n place = .fail e) : ∃ k < n, ∃ front middle,
    r.times k place = .done front middle ∧ r middle = .fail e := by
  induction n generalizing place with
  | zero => cases h
  | succ n ih =>
    rcases of_bind_fail h with h | ⟨first, middle, read, h⟩
    · exact ⟨0, Nat.succ_pos n, [], place, rfl, h⟩
    · obtain ⟨k, less, front, middle', reads, fails⟩ := ih (of_map_fail h)
      exact ⟨k + 1, Nat.succ_lt_succ less, first :: front, middle', times_succ read reads, fails⟩

/-- Each of some things in a row is read behind those in front of it. -/
theorem of_times_done {n : Nat} {as : List α} (h : r.times n place = .done as rest) :
    as.length = n ∧ ∀ a ∈ as, ∃ k < n, ∃ front middle after,
      r.times k place = .done front middle ∧ r middle = .done a after := by
  induction n generalizing place as with
  | zero =>
    cases h
    exact ⟨rfl, nofun⟩
  | succ n ih =>
    obtain ⟨first, middle, read, h⟩ := of_bind_done h
    obtain ⟨others, behind, reads, h⟩ := of_bind_done h
    cases h
    obtain ⟨length, each⟩ := ih reads
    refine ⟨congrArg (· + 1) length, List.forall_mem_cons.mpr ⟨?_, fun a member => ?_⟩⟩
    · exact ⟨0, Nat.succ_pos n, [], place, middle, rfl, read⟩
    · obtain ⟨k, less, front, middle', after, reads, read'⟩ := each a member
      exact ⟨k + 1, Nat.succ_lt_succ less, first :: front, middle', after,
        times_succ read reads, read'⟩

end Reader

open Reader (of_bind_done of_bind_fail of_map_fail of_byte_bind_fail)

/-! ## What a malformed part is blamed for -/

theorem blames_of_length (stands : Stands b start .size o)
    (h : Reader.length (placeAt b o) = .fail e) : Blames b start e := by
  rw [Reader.length_placeAt] at h
  rcases of_bind_fail h with h | ⟨value, rest, read, h⟩
  · unfold Reader.varint at h
    split at h
    · cases h
    · cases h
    · rename_i digits
      cases h
      exact .varintOverflow stands digits
  · obtain ⟨used, digits⟩ := Reader.of_varint_done read
    split at h
    · cases h
    · rename_i above
      cases h
      exact .lengthOverflow stands digits (Nat.lt_of_not_le above)

theorem blames_of_characters {length : Nat} (inside : start ≤ b.length)
    (stands : Stands b start (.characters length) o)
    (h : Reader.text length (placeAt b o) = .fail e) : Blames b start e := by
  have bounds := stands.bounds inside
  rcases of_bind_fail (r := Reader.take length) h with h | ⟨body, rest, read, h⟩
  · exact absurd h (Reader.take_ne_fail length)
  · have whole := ((Reader.uses_take length).placeAt read bounds.2).2
    simp only [Reader.take] at read
    split at read
    · cases read
      cases other : Bytes.toString? ((b.drop o).take length) with
      | some s =>
        simp only [placeAt, other] at h
        cases h
      | none =>
        simp only [placeAt, other] at h
        cases h
        exact .invalidUtf8 stands (by omega) other
    · cases read

theorem blames_of_deltas (stands : Stands b start .width o)
    (h : readDeltas (placeAt b o) = .fail e) : Blames b start e := by
  obtain ⟨width, here, h⟩ := of_byte_bind_fail h
  split at h
  · rename_i valid
    have valid : IsWidth width.toNat := valid
    rcases of_bind_fail (r := Reader.length) h with h | ⟨count, rest, read, h⟩
    · exact blames_of_length (.count stands here valid) h
    · obtain ⟨value, used, digits, rfl⟩ := Reader.of_length_done read
      split at h
      · rename_i many
        cases h
        exact .tooManyDeltas stands here valid digits many
      · split at h
        · rename_i long
          cases h
          exact .deltasTooLong stands here valid digits long
        · exact absurd (of_map_fail h) (Reader.take_ne_fail _)
  · rename_i other
    cases h
    exact .width stands here other

section Form

variable {room : Nat} {tag : UInt8} {form : Form} {size : Size}

theorem blames_of_size (stands : Stands b start (.value room) o) (here : b[o]? = some tag)
    (asks : Form.ofTag? tag = some form) (sized : form.size? = some size)
    (h : size.read (placeAt b (o + 1)) = .fail e) : Blames b start e := by
  cases size with
  | inTag n => cases h
  | ahead => exact blames_of_length (.size stands here asks sized) h

/-- The token of a value fails in a part of it. -/
theorem blames_of_token (inside : start ≤ b.length) (stands : Stands b start (.value room) o)
    (here : b[o]? = some tag) (asks : Form.ofTag? tag = some form)
    (h : form.token (placeAt b (o + 1)) = .fail e) : Blames b start e := by
  cases form with
  | constant value => cases h
  | int width => exact absurd (of_map_fail (of_map_fail h)) (Reader.take_ne_fail width)
  | single => exact absurd (of_map_fail h) (Reader.take_ne_fail 4)
  | double => exact absurd (of_map_fail h) (Reader.take_ne_fail 8)
  | text size =>
    rcases of_bind_fail (r := size.read) h with h | ⟨length, behind, read, h⟩
    · exact blames_of_size stands here asks rfl h
    · have bounds := lt_length_of_getElem? here
      obtain ⟨same, -⟩ := size.uses_read.placeAt read bounds
      have stands' := Stands.characters stands here asks read
      rw [same] at h
      exact blames_of_characters inside stands' (of_map_fail h)
  | bytes size =>
    rcases of_bind_fail (r := size.read) h with h | ⟨length, behind, -, h⟩
    · exact blames_of_size stands here asks rfl h
    · exact absurd (of_map_fail h) (Reader.take_ne_fail length)
  | list size => exact blames_of_size stands here asks rfl (of_map_fail h)
  | map size => exact blames_of_size stands here asks rfl (of_map_fail h)
  | delta | quasi | envelope | message | response => cases h

/-- A container has at least as many items as it says something of. -/
theorem gives_token (form : Form) : form.token.Gives fun token =>
    ∀ container count, token = .head container count → container.wants.length ≤ count := by
  have leaf {α : Type} (r : Reader α) (f : α → Value) :
      (r >>= fun a => (Pure.pure (.leaf (f a)) : Reader Token)).Gives fun token =>
        ∀ container count, token = .head container count → container.wants.length ≤ count :=
    (Reader.gives_true r).bind fun a _ => Reader.gives_pure nofun
  have head (container : Container) {n : Nat} (enough : container.wants.length ≤ n) :
      (Pure.pure (.head container n) : Reader Token).Gives fun token =>
        ∀ container count, token = .head container count → container.wants.length ≤ count := by
    refine Reader.gives_pure fun container' count same => ?_
    cases same
    exact enough
  cases form with
  | constant value => exact Reader.gives_pure nofun
  | int width => exact leaf _ _
  | single => exact leaf _ _
  | double => exact leaf _ _
  | text size => exact (Reader.gives_true _).bind fun _ _ => leaf _ _
  | bytes size => exact (Reader.gives_true _).bind fun _ _ => leaf _ _
  | list size => exact (Reader.gives_true _).bind fun _ _ => head .list (Nat.zero_le _)
  | map size => exact (Reader.gives_true _).bind fun _ _ => head .map (Nat.zero_le _)
  | delta => exact head .delta (Nat.le_refl 2)
  | quasi => exact head .quasi (Nat.le_refl 3)
  | envelope => exact head .envelope (Nat.le_refl 3)
  | message => exact head .message (Nat.le_refl 3)
  | response => exact head .response (Nat.le_refl 3)

end Form

/-! ## Values by their tokens -/

/-- The value that a token at `start` begins; `inside` reads the items of a container. -/
def Token.value (inside : Option (Reader Item)) (start : Nat) : Token → Reader Value
  | leaf value => pure value
  | head container count => do
    let item ← enter inside start
    let items ← item.times count
    (items.foldl Frame.push (.start container start count)).value

/-- What a tag asks for is read as its token, and with it the items of a container. -/
theorem Form.value_eq (inside : Option (Reader Item)) (start : Nat) (form : Form) :
    form.value inside start = form.token >>= Token.value inside start := by
  cases form with
  | constant value => rfl
  | int width => simp only [Form.token, Form.value, bind_assoc, pure_bind, Token.value]
  | single => simp only [Form.token, Form.value, bind_assoc, pure_bind, Token.value]
  | double => simp only [Form.token, Form.value, bind_assoc, pure_bind, Token.value]
  | text size => simp only [Form.token, Form.value, bind_assoc, pure_bind, Token.value]
  | bytes size => simp only [Form.token, Form.value, bind_assoc, pure_bind, Token.value]
  | list size => simp only [Form.token, Form.value, bind_assoc, pure_bind, Token.value, value_list]
  | map size =>
    simp only [Form.token, Form.value, bind_assoc, pure_bind, Token.value, value_map]
    congr 1
    funext count
    congr 1
    funext item
    exact (times_pairs item (fun pairs => (pure (.map pairs) : Reader Value)) count).symm
  | delta =>
    have closes (first second : Item) : (((Frame.start .delta start 2).push first).push second).value
        = readDeltas >>= fun deltas => Reader.check (deltaOf first second deltas) := if_pos rfl
    simp only [Form.token, Form.value, bind_assoc, pure_bind, Token.value, Reader.times,
      List.foldl_cons, List.foldl_nil, closes]
  | quasi | envelope | message | response =>
    simp only [Form.token, Form.value, bind_assoc, pure_bind, Token.value, Reader.times,
      List.foldl_cons, List.foldl_nil]
    rfl

theorem Token.read_placeAt {tag : UInt8} {form : Form} (here : b[o]? = some tag)
    (asks : Form.ofTag? tag = some form) :
    Token.read (placeAt b o) = form.token (placeAt b (o + 1)) := by
  show (Reader.byte >>= fun tag => Token.afterTag tag o) (placeAt b o) = _
  rw [Reader.bind_apply, Reader.byte_placeAt here]
  simp only [afterTag_eq, tokenByTable, asks]

/-! ## Malformed values -/

section Items

variable {room count : Nat} {container : Container} {items : List Item} {behind rest : Place}

theorem offset_of_item {place : Place} {item : Item}
    (read : Bysant.item room place = .done item rest) : item.offset = place.offset := by
  rw [item_eq] at read
  obtain ⟨tag, middle, -, read⟩ := of_bind_done (r := Reader.byte) read
  cases asks : Form.ofTag? tag with
  | none =>
    rw [asks] at read
    cases read
  | some form =>
    rw [asks] at read
    obtain ⟨value, _, -, read⟩ := of_bind_done read
    cases read
    rfl

/-- The items of a container begin where they say. -/
theorem Encloses.isItem (h : Encloses b start container o items) (inside : start ≤ b.length) :
    ∀ item ∈ items, IsItem b start item := by
  obtain ⟨room, count, behind, rest, stands, head, reads⟩ := h
  intro item member
  obtain ⟨k, less, front, middle, after, reads, read⟩ := (Reader.of_times_done reads).2 item member
  have here := offset_of_item read
  have stands' := stands.item head less reads
  obtain ⟨same, -⟩ := placeAt_of_times (stands.bounds inside).2 head reads
  rw [← here] at same stands'
  rw [same] at read
  exact ⟨room, after, stands', read⟩

theorem of_check_fail {α : Type} {result : Except DecodeError α} {place : Place}
    (h : Reader.check result place = .fail e) : result = .error e := by
  cases result with
  | ok a => cases h
  | error e' =>
    cases h
    rfl

/-- A container whose items are read fails in the differences behind them, or complains. -/
theorem blames_of_items (inside : start ≤ b.length) (stands : Stands b start (.value (room + 1)) o)
    (head : Token.read (placeAt b o) = .done (.head container count) behind)
    (enough : container.wants.length ≤ count)
    (reads : (Bysant.item room).times count behind = .done items rest)
    (h : (items.foldl Frame.push (.start container o count)).value rest = .fail e) :
    Blames b start e := by
  have encloses : Encloses b start container o items :=
    ⟨room, count, behind, rest, stands, head, reads⟩
  have complaint {deltas : List Int64}
      (h : (items.foldl Frame.push (.start container o count)).finish deltas = .error e) :
      Blames b start e := by
    have length := (Reader.of_times_done reads).1
    rw [foldl_push] at h
    have complains := Frame.complains_of_finish (by simpa [Frame.start, length] using enough) h
    simp only [Frame.start, List.append_nil, List.reverse_reverse] at complains
    exact .complaint encloses (encloses.isItem inside) complains
  unfold Frame.value at h
  split at h
  · rename_i delta
    rw [foldl_push] at delta
    obtain rfl : container = .delta := delta
    rcases of_bind_fail h with h | ⟨deltas, _, -, h⟩
    · obtain ⟨same, -⟩ := placeAt_of_times (stands.bounds inside).2 head reads
      rw [same] at h
      exact blames_of_deltas (.width stands head reads) h
    · exact complaint (of_check_fail h)
  · exact complaint (of_check_fail h)

end Items

/-- A value fails in its tag, in its token or as a container. -/
theorem blames_of_taggedItem {room : Nat} {items : Option (Reader Item)} (inside : start ≤ b.length)
    (stands : Stands b start (.value room) o)
    (h : taggedItem items (placeAt b o) = .fail e)
    (deeper : ∀ container count behind,
      Token.read (placeAt b o) = .done (.head container count) behind →
      container.wants.length ≤ count →
      (Token.head container count).value items o behind = .fail e → Blames b start e) :
    Blames b start e := by
  obtain ⟨tag, here, h⟩ := of_byte_bind_fail h
  cases asks : Form.ofTag? tag with
  | none =>
    rw [asks] at h
    cases h
    exact .invalidTag stands here asks
  | some form =>
    rw [asks] at h
    have h := of_map_fail h
    rw [form.value_eq] at h
    rcases of_bind_fail h with h | ⟨token, behind, read, h⟩
    · exact blames_of_token inside stands here asks h
    · cases token with
      | leaf value => cases h
      | head container count =>
        refine deeper container count behind ?_ (gives_token form _ _ _ read container count rfl) h
        rw [Token.read_placeAt here asks, read]

/-- Whatever a value is malformed by, the error points to what it is about. -/
theorem blames_of_item {room : Nat} (inside : start ≤ b.length)
    (stands : Stands b start (.value room) o) (h : item room (placeAt b o) = .fail e) :
    Blames b start e := by
  -- along the nesting: what fails inside a container is an item, or the container complains
  induction room generalizing o with
  | zero =>
    refine blames_of_taggedItem inside stands h fun container count behind head _ h => ?_
    cases h
    exact .tooDeep stands head
  | succ room ih =>
    refine blames_of_taggedItem inside stands h fun container count behind head enough h => ?_
    rcases of_bind_fail (r := (item room).times count) h with h | ⟨items, rest, reads, h⟩
    · obtain ⟨k, less, front, middle, reads, h⟩ := Reader.of_times_fail h
      obtain ⟨same, -⟩ := placeAt_of_times (stands.bounds inside).2 head reads
      rw [same] at h
      exact ih (stands.item head less reads) h
    · exact blames_of_items inside stands head enough reads h

end Telemetry.Bysant
