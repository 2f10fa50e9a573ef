import Mathlib.Data.List.Induction
import Mathlib.Data.Set.Card
import Mathlib.Order.Lattice.Nat
import Telemetry.Proofs.Bysant.Completeness
import Telemetry.Proofs.Bysant.Soundness
/-!
# Headers as ordered maps

What a header holds is told by the history of its edits: under each key the value that it was set to
last, unless it was removed since, and the keys in the order in which each of them came in, since it
was removed last. The induction is on the edits from behind; it carries how the places of the keys in
the history are ordered.
-/

namespace Telemetry.Bysant.Header

/-! ## Histories -/

/-- A change of a header. -/
inductive Edit where
  | insert (key : HeaderKey) (value : Value)
  | remove (key : HeaderKey)

def Edit.key : Edit → HeaderKey
  | insert key _ => key
  | remove key => key

def edit (h : Header) : Edit → Header
  | .insert key value => h.insert key value
  | .remove key => (h.remove key).2

/-- The header that some edits make of the empty one. -/
def edited (edits : List Edit) : Header := edits.foldl edit empty

/-- The key was set to the value, and behind that neither set again nor removed. -/
def Holds (edits : List Edit) (key : HeaderKey) (value : Value) : Prop :=
  ∃ before after, edits = before ++ .insert key value :: after ∧ ∀ edit ∈ after, edit.key ≠ key

/-- The edit with this number sets the key, and none behind it removes the key. -/
def InsertedAt (edits : List Edit) (key : HeaderKey) (i : Nat) : Prop :=
  (∃ value, edits[i]? = some (.insert key value)) ∧ ∀ j, i < j → edits[j]? ≠ some (.remove key)

/-- The edit with this number is the first one that sets the key since it was removed last. -/
def EntersAt (edits : List Edit) (key : HeaderKey) (i : Nat) : Prop :=
  IsLeast {i | InsertedAt edits key i} i

/-- Both keys are there, and the first of them came in earlier. -/
def EntersBefore (edits : List Edit) (key other : HeaderKey) : Prop :=
  ∃ i j, EntersAt edits key i ∧ EntersAt edits other j ∧ i < j

variable {edits : List Edit} {last : Edit} {key other : HeaderKey} {value : Value} {i : Nat}

/-! ## One more edit -/

theorem holds_append_iff : Holds (edits ++ [last]) key value ↔
    last = .insert key value ∨ last.key ≠ key ∧ Holds edits key value := by
  constructor
  · rintro ⟨before, after, history, others⟩
    rcases List.eq_nil_or_concat after with rfl | ⟨front, final, rfl⟩
    · have := List.append_inj_right' history rfl
      exact .inl (List.singleton_inj.mp this)
    · rw [List.concat_eq_append] at history others
      rw [← List.cons_append, ← List.append_assoc] at history
      obtain ⟨rfl, same⟩ := List.append_inj' history rfl
      obtain rfl := List.singleton_inj.mp same
      exact .inr ⟨others _ (by simp), before, front, rfl,
        fun edit member => others edit (List.mem_append_left _ member)⟩
  · rintro (rfl | ⟨different, before, after, rfl, others⟩)
    · exact ⟨edits, [], rfl, nofun⟩
    · refine ⟨before, after ++ [last], by simp, fun edit member => ?_⟩
      rcases List.mem_append.mp member with member | member
      · exact others edit member
      · exact List.mem_singleton.mp member ▸ different

theorem InsertedAt.lt_length (h : InsertedAt edits key i) : i < edits.length := by
  obtain ⟨⟨value, here⟩, -⟩ := h
  exact (List.getElem?_eq_some_iff.mp here).1

theorem insertedAt_append_iff : InsertedAt (edits ++ [last]) key i ↔
    last ≠ .remove key ∧
      (InsertedAt edits key i ∨ i = edits.length ∧ ∃ value, last = .insert key value) := by
  constructor
  · rintro ⟨⟨value, here⟩, stays⟩
    rcases Nat.lt_trichotomy i edits.length with inside | rfl | behind
    · rw [List.getElem?_append_left inside] at here
      refine ⟨fun removed => stays edits.length inside (by simp [removed]),
        .inl ⟨⟨value, here⟩, fun j later gone => ?_⟩⟩
      have := (List.getElem?_eq_some_iff.mp gone).1
      exact stays j later (by rwa [List.getElem?_append_left this])
    · rw [List.getElem?_concat_length] at here
      obtain rfl := Option.some.inj here
      exact ⟨nofun, .inr ⟨rfl, value, rfl⟩⟩
    · rw [List.getElem?_eq_none (by simpa using behind)] at here
      cases here
  · rintro ⟨stays, inserted | ⟨rfl, value, rfl⟩⟩
    · have inside := inserted.lt_length
      obtain ⟨⟨value, here⟩, kept⟩ := inserted
      refine ⟨⟨value, by rwa [List.getElem?_append_left inside]⟩, fun j later gone => ?_⟩
      rcases Nat.lt_or_ge j edits.length with front | back
      · rw [List.getElem?_append_left front] at gone
        exact kept j later gone
      · rw [List.getElem?_append_right back, List.getElem?_singleton] at gone
        split at gone
        · exact stays (Option.some.inj gone)
        · cases gone
    · refine ⟨⟨value, List.getElem?_concat_length ..⟩, fun j later gone => ?_⟩
      rw [List.getElem?_eq_none (by simpa using later)] at gone
      cases gone

/-- A key is there exactly if some edit sets it and none behind removes it. -/
theorem exists_holds_iff : (∃ value, Holds edits key value) ↔ ∃ i, InsertedAt edits key i := by
  induction edits using List.reverseRecOn with
  | nil => simp [Holds, InsertedAt]
  | append_singleton edits last ih =>
    simp only [holds_append_iff, insertedAt_append_iff]
    cases last with
    | insert key' value' =>
      by_cases same : key' = key
      · subst same
        simp
      · simp [same, Edit.key, ih]
    | remove key' =>
      by_cases same : key' = key
      · simp [same, Edit.key]
      · simp [same, Edit.key, ih]

theorem exists_entersAt (h : InsertedAt edits key i) : ∃ first, EntersAt edits key first :=
  ⟨_, isLeast_csInf ⟨i, h⟩⟩

/-- A key that is not removed keeps its place in the history. -/
theorem EntersAt.append (h : EntersAt edits key i) (stays : last ≠ .remove key) :
    EntersAt (edits ++ [last]) key i := by
  refine ⟨insertedAt_append_iff.mpr ⟨stays, .inl h.1⟩, fun j inserted => ?_⟩
  rcases (insertedAt_append_iff.mp inserted).2 with before | ⟨rfl, -⟩
  · exact h.2 before
  · exact Nat.le_of_lt h.1.lt_length

theorem EntersBefore.append (h : EntersBefore edits key other) (stays : last ≠ .remove key)
    (stays' : last ≠ .remove other) : EntersBefore (edits ++ [last]) key other := by
  obtain ⟨i, j, first, second, earlier⟩ := h
  exact ⟨i, j, first.append stays, second.append stays', earlier⟩

/-- A key that is not there comes in last. -/
theorem entersAt_length (new : ∀ i, ¬ InsertedAt edits key i) :
    EntersAt (edits ++ [.insert key value]) key edits.length := by
  refine ⟨insertedAt_append_iff.mpr ⟨nofun, .inr ⟨rfl, value, rfl⟩⟩, fun j inserted => ?_⟩
  rcases (insertedAt_append_iff.mp inserted).2 with before | ⟨rfl, -⟩
  · exact absurd before (new j)
  · exact Nat.le_refl _

/-! ## Headers against histories -/

/-- A header holds what its history says, in the order that it says. -/
structure Reflects (edits : List Edit) (h : Header) : Prop where
  distinct : h.keys.Nodup
  holds : ∀ key value, h.get? key = some value ↔ Holds edits key value
  ordered : h.keys.Pairwise (EntersBefore edits)

variable {h : Header}

theorem Reflects.mem_keys_iff (r : Reflects edits h) : key ∈ h.keys ↔ ∃ i, InsertedAt edits key i := by
  rw [Header.mem_keys_iff, ← exists_holds_iff]
  simp only [r.holds]

theorem reflects_empty : Reflects [] empty := by
  refine ⟨List.nodup_nil, fun key value => ?_, List.Pairwise.nil⟩
  simp [Holds, empty, get?, lookup]

theorem Reflects.insert (r : Reflects edits h) (key : HeaderKey) (value : Value) :
    Reflects (edits ++ [.insert key value]) (h.insert key value) := by
  refine ⟨nodup_put r.distinct, fun other value' => ?_, ?_⟩
  · rw [holds_append_iff]
    by_cases same : key = other
    · subst same
      simp [get?_insert_self, Edit.key]
    · simp [get?_insert_of_ne same, Edit.key, same, r.holds]
  · by_cases known : key ∈ h.keys
    · rw [keys_insert_of_mem known]
      exact r.ordered.imp fun before => before.append nofun nofun
    · rw [keys_insert_of_not_mem known, List.pairwise_append]
      refine ⟨r.ordered.imp fun before => before.append nofun nofun, List.pairwise_singleton ..,
        fun other member last isLast => ?_⟩
      obtain rfl := List.mem_singleton.mp isLast
      obtain ⟨i, inserted⟩ := r.mem_keys_iff.mp member
      obtain ⟨first, enters⟩ := exists_entersAt inserted
      have new : EntersAt (edits ++ [.insert last value]) last edits.length :=
        entersAt_length (not_exists.mp (mt r.mem_keys_iff.mpr known))
      exact ⟨first, edits.length, enters.append nofun, new, enters.1.lt_length⟩

theorem Reflects.remove (r : Reflects edits h) (key : HeaderKey) :
    Reflects (edits ++ [.remove key]) (h.remove key).2 := by
  rw [remove_eq]
  have gone : key ∉ (h.erase key).keys := by
    rw [Header.mem_keys_iff, get?_erase_self r.distinct]
    nofun
  refine ⟨r.distinct.sublist keys_erase_sublist, fun other value => ?_, ?_⟩
  · rw [holds_append_iff]
    by_cases same : key = other
    · subst same
      simp [get?_erase_self r.distinct, Edit.key]
    · simp [get?_erase_of_ne same, Edit.key, same, r.holds]
  · refine (r.ordered.sublist keys_erase_sublist).imp_of_mem fun first second before => ?_
    refine before.append ?_ ?_ <;> rintro ⟨⟩ <;> exact gone ‹_›

/-- Whatever is done to a header, it holds what the history says. -/
theorem reflects_edited (edits : List Edit) : Reflects edits (edited edits) := by
  induction edits using List.reverseRecOn with
  | nil => exact reflects_empty
  | append_singleton edits last ih =>
    rw [edited, List.foldl_append]
    cases last with
    | insert key value => exact ih.insert key value
    | remove key => exact ih.remove key

/-- There are as many entries as keys that are there. -/
theorem Reflects.size_eq (r : Reflects edits h) :
    h.size = {key | ∃ value, Holds edits key value}.ncard := by
  have keys : {key | ∃ value, Holds edits key value} = (h.keys.toFinset : Set HeaderKey) := by
    ext key
    rw [Set.mem_ofPred_eq, List.coe_toFinset, Set.mem_ofPred_eq, exists_holds_iff, r.mem_keys_iff]
  rw [keys, Set.ncard_coe_finset, List.toFinset_card_of_nodup r.distinct, Header.keys,
    List.length_map, size]

/-! ## Headers on their way -/

/-- Every key that is set is the one that a name stands for. -/
def Canonical (edits : List Edit) : Prop :=
  ∀ key value, .insert key value ∈ edits → ∃ name, key = .ofName name

theorem Reflects.ofName_name (r : Reflects edits h) (canonical : Canonical edits)
    (member : key ∈ h.keys) : HeaderKey.ofName key.name = key := by
  obtain ⟨value, found⟩ := Header.mem_keys_iff.mp member
  obtain ⟨before, after, history, -⟩ := (r.holds key value).mp found
  obtain ⟨name, rfl⟩ := canonical key value (by simp [history])
  rw [HeaderKey.name_ofName]

/-- Keys that names stand for are sent under names of their own. -/
theorem Reflects.nodup_names (r : Reflects edits h) (canonical : Canonical edits) :
    (h.keys.map HeaderKey.name).Nodup := by
  refine r.distinct.map_on ?_
  intro key member other member' same
  rw [← r.ofName_name canonical member, same, r.ofName_name canonical member']

/-- The parts of an envelope keep to the limits of the format. Of its own keys nothing is said but
that their names are not too long. -/
structure PartsFit (e : Envelope) : Prop where
  few : e.header.size ≤ maxLength
  names : ∀ key ∈ e.header.keys, fitsText key.name = true
  values : ∀ entry ∈ e.header.entries, entry.2.Sound (maxDepth - 2)
  payload : e.payload.length ≤ maxLength
  footer : (Value.map e.footer).Sound (maxDepth - 1)

theorem Reflects.decode_encode {e : Envelope} (r : Reflects edits e.header)
    (canonical : Canonical edits) (fit : PartsFit e) : decode e.encode = .ok [.envelope e] := by
  obtain ⟨⟨entries⟩, payload, footer⟩ := e
  have fitting : SoundEntries (maxDepth - 2) entries := by
    refine ⟨?_, r.distinct⟩
    intro entry member
    have key : entry.1 ∈ Header.keys ⟨entries⟩ := List.mem_map_of_mem member
    exact ⟨fit.values entry member, fit.names _ key, r.ofName_name canonical key⟩
  have sound : (Value.envelope ⟨⟨entries⟩, payload, footer⟩).Sound (maxDepth - 1 + 1) :=
    sound_envelope fitting fit.few fit.payload fit.footer
  rw [show maxDepth - 1 + 1 = maxDepth from rfl] at sound
  have decoded := decode_encodeAll_of_sound (List.forall_mem_singleton.mpr sound)
  rw [encodeAll, encodeAll, List.append_nil] at decoded
  exact decoded

/-- Whatever is set and removed in a header that was empty, in any order: its keys are distinct; what
is found under a key, and what a removal gives, is the value that the key was set to last, unless it
was removed since; there are as many entries as such keys; the entries are those keys with those
values, in the order in which each key was first set since it was removed last. If every key is the
one that a name stands for, all are sent under names of their own, and an envelope with that header
decodes to itself, the entries in the same order. -/
theorem edited_is_ordered_map (edits : List Edit) :
    let h := edited edits
    h.keys.Nodup ∧ (∀ key value, h.get? key = some value ↔ Holds edits key value) ∧
      (∀ key value, (h.remove key).1 = some value ↔ Holds edits key value) ∧
      h.size = {key | ∃ value, Holds edits key value}.ncard ∧
      (∀ key value, (key, value) ∈ h.entries ↔ Holds edits key value) ∧
      h.keys.Pairwise (EntersBefore edits) ∧
      (Canonical edits → (h.keys.map HeaderKey.name).Nodup ∧
        ∀ e : Envelope, e.header = h → PartsFit e → decode e.encode = .ok [.envelope e]) := by
  intro h
  have r : Reflects edits h := reflects_edited edits
  refine ⟨r.distinct, r.holds, ?_, r.size_eq, ?_, r.ordered, ?_⟩
  · intro key value
    rw [remove_eq]
    exact r.holds key value
  · intro key value
    exact (mem_entries_iff r.distinct).trans (r.holds key value)
  · intro canonical
    refine ⟨r.nodup_names canonical, ?_⟩
    intro e same fit
    exact Reflects.decode_encode (same ▸ r) canonical fit

/-- The sender is set twice and keeps its place; the fresh text is removed and set again, and comes
behind an unknown key that was set meanwhile. -/
def rejoining : List Edit :=
  [.insert .id (.text "dev-1"), .insert .nonce (.bytes [1]), .insert (.ofName "x-custom") (.int 7),
    .insert .id (.text "dev-2"), .remove .nonce, .insert .nonce (.bytes [2])]

theorem edited_rejoining : Canonical rejoining ∧
    (edited rejoining).entries =
      [(.id, .text "dev-2"), (.other "x-custom", .int 7), (.nonce, .bytes [2])] ∧
    PartsFit (.ofPayload (edited rejoining) [3]) ∧
    decode (Envelope.ofPayload (edited rejoining) [3]).encode =
      .ok [.envelope (.ofPayload (edited rejoining) [3])] := by
  have canonical : Canonical rejoining := by
    intro key value member
    refine ⟨key.name, ?_⟩
    simp only [rejoining, List.mem_cons, Edit.insert.injEq, reduceCtorEq, List.not_mem_nil,
      or_false, false_or] at member
    rcases member with ⟨rfl, -⟩ | ⟨rfl, -⟩ | ⟨rfl, -⟩ | ⟨rfl, -⟩ | ⟨rfl, -⟩ <;> decide
  have entries : (edited rejoining).entries =
      [(.id, .text "dev-2"), (.other "x-custom", .int 7), (.nonce, .bytes [2])] := rfl
  have fit : PartsFit (.ofPayload (edited rejoining) [3]) := by
    have footer : (Value.map []).Sound (maxDepth - 1) := sound_map (by decide) (by decide) nofun
    refine ⟨by decide, by decide +kernel, ?_, by decide, footer⟩
    show ∀ entry ∈ (edited rejoining).entries, entry.2.Sound (maxDepth - 2)
    rw [entries]
    simp only [List.forall_mem_cons]
    refine ⟨.of_leaf rfl ?_, .of_leaf rfl ?_, .of_leaf rfl ?_, nofun⟩ <;> decide +kernel
  obtain ⟨-, -, -, -, -, -, travels⟩ := edited_is_ordered_map rejoining
  exact ⟨canonical, entries, fit, (travels canonical).2 _ rfl fit⟩

end Telemetry.Bysant.Header
