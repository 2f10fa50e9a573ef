import Telemetry.Bysant.Header
/-!
# Setting and removing keys of a header

Setting a key changes what is under that key and nothing else. It keeps the keys distinct, and a new
key goes to the end. Removing a key leaves the others as they are, in the same order.
-/

namespace Telemetry.Bysant.Header

variable {entries : List (HeaderKey × Value)} {key : HeaderKey} {value : Value}

theorem length_put_le : (put key value entries).length ≤ entries.length + 1 := by
  induction entries with
  | nil => simp [put]
  | cons entry rest ih =>
    unfold put
    split
    · simp
    · simpa using ih

theorem mem_put {entry : HeaderKey × Value} (member : entry ∈ put key value entries) :
    entry = (key, value) ∨ entry ∈ entries := by
  induction entries with
  | nil => simpa [put] using member
  | cons first rest ih =>
    unfold put at member
    split at member
    · rename_i same
      subst same
      rcases List.mem_cons.mp member with rfl | member
      · exact .inl rfl
      · exact .inr (List.mem_cons_of_mem _ member)
    · rcases List.mem_cons.mp member with rfl | member
      · exact .inr List.mem_cons_self
      · rcases ih member with rfl | member
        · exact .inl rfl
        · exact .inr (List.mem_cons_of_mem _ member)

theorem put_of_not_mem (new : key ∉ entries.map Prod.fst) :
    put key value entries = entries ++ [(key, value)] := by
  induction entries with
  | nil => rfl
  | cons entry rest ih =>
    obtain ⟨different, others⟩ := not_or.mp (mt List.mem_cons.mpr new)
    unfold put
    rw [if_neg fun same => different same.symm, ih others]
    rfl

theorem nodup_put (distinct : (entries.map Prod.fst).Nodup) :
    ((put key value entries).map Prod.fst).Nodup := by
  induction entries with
  | nil => simp [put]
  | cons entry rest ih =>
    obtain ⟨first, others⟩ := List.nodup_cons.mp distinct
    unfold put
    split
    · exact List.nodup_cons.mpr ⟨first, others⟩
    · rename_i different
      refine List.nodup_cons.mpr ⟨fun member => ?_, ih others⟩
      obtain ⟨again, inside, same⟩ := List.mem_map.mp member
      rcases mem_put inside with rfl | inside
      · exact different same.symm
      · exact first (List.mem_map.mpr ⟨again, inside, same⟩)

/-! ## Reading a header -/

variable {h : Header} {other : HeaderKey}

theorem lookup_put_self : lookup key (put key value entries) = some value := by
  induction entries with
  | nil => rw [put, lookup, if_pos rfl]
  | cons entry rest ih =>
    unfold put
    split
    · rw [lookup, if_pos ‹_›]
    · rw [lookup, if_neg ‹_›, ih]

theorem lookup_put_of_ne (different : key ≠ other) :
    lookup other (put key value entries) = lookup other entries := by
  induction entries with
  | nil => exact if_neg different
  | cons entry rest ih =>
    unfold put
    split
    · rename_i same
      rw [lookup, lookup, if_neg (same ▸ different), if_neg (same ▸ different)]
    · rw [lookup, lookup, ih]

theorem get?_insert_self : (h.insert key value).get? key = some value := lookup_put_self

theorem get?_insert_of_ne (different : key ≠ other) :
    (h.insert key value).get? other = h.get? other := lookup_put_of_ne different

theorem bytes?_insert_self : (h.insert key value).bytes? key = value.bytes? := by
  rw [bytes?, get?_insert_self, Option.bind_some]

theorem bytes?_insert_of_ne (different : key ≠ other) :
    (h.insert key value).bytes? other = h.bytes? other := by
  rw [bytes?, get?_insert_of_ne different, bytes?]

theorem contains_insert_of_ne (different : key ≠ other) :
    (h.insert key value).contains other = h.contains other := by
  rw [contains, get?_insert_of_ne different, contains]

theorem lookup_eq_none_iff : lookup key entries = none ↔ key ∉ entries.map Prod.fst := by
  induction entries with
  | nil => simp [lookup]
  | cons entry rest ih =>
    by_cases same : entry.1 = key
    · simp [lookup, same]
    · simp [lookup, same, ih, Ne.symm same]

theorem mem_keys_iff : key ∈ h.keys ↔ ∃ value, h.get? key = some value := by
  rw [← Option.ne_none_iff_exists', ne_eq, get?, lookup_eq_none_iff, Decidable.not_not, keys]

/-- Where keys are distinct, an entry is what is found under its key. -/
theorem mem_entries_iff (distinct : (entries.map Prod.fst).Nodup) :
    (key, value) ∈ entries ↔ lookup key entries = some value := by
  induction entries with
  | nil => simp [lookup]
  | cons entry rest ih =>
    obtain ⟨k, old⟩ := entry
    obtain ⟨first, others⟩ := List.nodup_cons.mp distinct
    by_cases same : k = key
    · subst same
      have elsewhere : (k, value) ∉ rest := fun inside =>
        first (List.mem_map.mpr ⟨_, inside, rfl⟩)
      simp [lookup, elsewhere, eq_comm]
    · simp [lookup, same, ih others, Ne.symm same]

theorem map_fst_put_of_mem (known : key ∈ entries.map Prod.fst) :
    (put key value entries).map Prod.fst = entries.map Prod.fst := by
  induction entries with
  | nil => cases known
  | cons entry rest ih =>
    unfold put
    split
    · rfl
    · rename_i different
      have inside : key ∈ rest.map Prod.fst :=
        (List.mem_cons.mp known).resolve_left (Ne.symm different)
      rw [List.map_cons, List.map_cons, ih inside]

/-- A key that is set again keeps its place. -/
theorem keys_insert_of_mem (known : key ∈ h.keys) : (h.insert key value).keys = h.keys :=
  map_fst_put_of_mem known

theorem keys_insert_of_not_mem (new : key ∉ h.keys) : (h.insert key value).keys = h.keys ++ [key] := by
  have entries : (h.insert key value).entries = h.entries ++ [(key, value)] := put_of_not_mem new
  rw [keys, entries, List.map_append]
  rfl

/-! ## Removing a key -/

theorem drop_sublist : (drop key entries).Sublist entries := by
  induction entries with
  | nil => exact .refl _
  | cons entry rest ih =>
    unfold drop
    split
    · exact List.sublist_cons_self ..
    · exact ih.cons_cons _

theorem keys_erase_sublist : (h.erase key).keys.Sublist h.keys := drop_sublist.map Prod.fst

theorem lookup_drop_self (distinct : (entries.map Prod.fst).Nodup) :
    lookup key (drop key entries) = none := by
  induction entries with
  | nil => rfl
  | cons entry rest ih =>
    obtain ⟨first, others⟩ := List.nodup_cons.mp distinct
    unfold drop
    split
    · rename_i same
      rw [lookup_eq_none_iff]
      exact same ▸ first
    · rw [lookup, if_neg ‹_›, ih others]

theorem lookup_drop_of_ne (different : key ≠ other) :
    lookup other (drop key entries) = lookup other entries := by
  induction entries with
  | nil => rfl
  | cons entry rest ih =>
    unfold drop
    split
    · rename_i same
      rw [lookup, if_neg (same ▸ different)]
    · rw [lookup, lookup, ih]

theorem get?_erase_self (distinct : h.keys.Nodup) : (h.erase key).get? key = none :=
  lookup_drop_self distinct

theorem get?_erase_of_ne (different : key ≠ other) : (h.erase key).get? other = h.get? other :=
  lookup_drop_of_ne different

/-- What is taken out is what was under the key; the other entries stay. -/
theorem remove_eq (h : Header) (key : HeaderKey) : h.remove key = (h.get? key, h.erase key) := by
  obtain ⟨entries⟩ := h
  induction entries with
  | nil => rfl
  | cons entry rest ih =>
    unfold remove get? erase at ih ⊢
    by_cases same : entry.1 = key
    · simp [List.findIdx?_cons, same, lookup, drop]
    · rw [lookup, drop, if_neg same, if_neg same]
      cases place : rest.findIdx? fun entry => decide (entry.1 = key) with
      | none =>
        simp only [place, Prod.mk.injEq, mk.injEq] at ih
        simp [List.findIdx?_cons, same, place, ← ih.1, ← ih.2]
      | some i =>
        simp only [place, Prod.mk.injEq, mk.injEq] at ih
        simp [List.findIdx?_cons, same, place, ← ih.1, ← ih.2]

end Telemetry.Bysant.Header
