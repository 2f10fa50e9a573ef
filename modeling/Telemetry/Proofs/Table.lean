import Mathlib.Data.List.Induction
import Mathlib.Data.List.Sort
import Telemetry.Table
/-!
# Tables stay in order

Setting a key keeps a table in increasing order of its keys, and a key behind all others goes to
the end. What is under the other keys stays. Entries that are gathered by key keep, under each key,
what comes of the entries with that key in their order.
-/

namespace Telemetry.Table

variable {κ α : Type} [LT κ] [DecidableLT κ] [DecidableEq κ] {t : Table κ α} {key other : κ}
  {value : α}

/-- The entries are in increasing order of their keys. -/
def Ordered (t : Table κ α) : Prop := (keys t).Pairwise (· < ·)

theorem length_put_le : (put key value t).length ≤ t.length + 1 := by
  induction t with
  | nil => simp [put]
  | cons entry rest ih =>
    unfold put
    split
    · simp
    · split
      · simp
      · simpa using ih

theorem length_le_put : t.length ≤ (put key value t).length := by
  induction t with
  | nil => exact Nat.zero_le _
  | cons entry rest ih =>
    unfold put
    split
    · exact Nat.le_succ _
    · split
      · exact Nat.le_refl _
      · exact Nat.succ_le_succ ih

theorem mem_put {entry : κ × α} (member : entry ∈ put key value t) :
    entry = (key, value) ∨ entry ∈ t := by
  induction t with
  | nil => simpa [put] using member
  | cons first rest ih =>
    unfold put at member
    split at member
    · simpa using member
    · split at member <;> rcases List.mem_cons.mp member with rfl | member
      · exact .inl rfl
      · exact .inr (List.mem_cons_of_mem _ member)
      · exact .inr List.mem_cons_self
      · rcases ih member with rfl | member
        · exact .inl rfl
        · exact .inr (List.mem_cons_of_mem _ member)

theorem mem_keys_put {k : κ} (member : k ∈ keys (put key value t)) : k = key ∨ k ∈ keys t := by
  obtain ⟨entry, inside, rfl⟩ := List.mem_map.mp member
  rcases mem_put inside with rfl | inside
  · exact .inl rfl
  · exact .inr (List.mem_map_of_mem inside)

/-- A key in front of all others goes to the front. -/
theorem put_of_forall_gt (first : ∀ k ∈ keys t, key < k) :
    put key value t = (key, value) :: t := by
  cases t with
  | nil => rfl
  | cons entry rest => exact if_pos (first _ List.mem_cons_self)

/-- A key goes between those that are smaller and those that are larger. -/
theorem put_append [Std.Asymm (α := κ) (· < ·)] {t' : Table κ α} (front : ∀ k ∈ keys t, k < key)
    (back : ∀ k ∈ keys t', key < k) : put key value (t ++ t') = t ++ (key, value) :: t' := by
  induction t with
  | nil => exact put_of_forall_gt back
  | cons entry rest ih =>
    obtain ⟨first, others⟩ := List.forall_mem_cons.mp front
    have before : ¬ key < entry.1 := Std.Asymm.asymm _ _ first
    have different : entry.1 ≠ key := by
      rintro rfl
      exact before first
    rw [List.cons_append]
    unfold put
    rw [if_neg before, if_neg different, ih others]
    rfl

/-- A key behind all others goes to the end. -/
theorem put_of_forall_lt [Std.Asymm (α := κ) (· < ·)] (last : ∀ k ∈ keys t, k < key) :
    put key value t = t ++ [(key, value)] := by
  have whole : put key value (t ++ []) = t ++ [(key, value)] := put_append last (by simp [keys])
  rwa [List.append_nil] at whole

theorem Ordered.put [Std.Trichotomous (α := κ) (· < ·)] [Trans (α := κ) (· < ·) (· < ·) (· < ·)]
    (h : t.Ordered) : (put key value t).Ordered := by
  induction t with
  | nil => exact List.pairwise_singleton _ _
  | cons entry rest ih =>
    obtain ⟨first, others⟩ := List.pairwise_cons.mp h
    unfold Table.put
    split
    · rename_i lt
      refine List.pairwise_cons.mpr ⟨fun k member => ?_, h⟩
      rcases List.mem_cons.mp member with rfl | member
      · exact lt
      · exact Trans.trans lt (first k member)
    · rename_i before
      split
      · rename_i same
        subst same
        exact List.pairwise_cons.mpr ⟨first, others⟩
      · rename_i different
        refine List.pairwise_cons.mpr ⟨fun k member => ?_, ih others⟩
        rcases mem_keys_put member with rfl | member
        · exact Decidable.byContradiction fun behind =>
            different (Std.Trichotomous.trichotomous _ _ behind before)
        · exact first k member

/-! ## Looking up a key -/

theorem get?_put_self : get? key (put key value t) = some value := by
  induction t with
  | nil => exact if_pos rfl
  | cons entry rest ih =>
    unfold put
    split
    · exact if_pos rfl
    · split
      · exact if_pos rfl
      · rename_i different
        rw [get?, if_neg different, ih]

theorem get?_put_of_ne (different : key ≠ other) : get? other (put key value t) = get? other t := by
  induction t with
  | nil => exact if_neg different
  | cons entry rest ih =>
    unfold put
    split
    · rw [get?, if_neg different]
    · split
      · rename_i same
        subst same
        rw [get?, get?, if_neg different, if_neg different]
      · rw [get?, get?, ih]

omit [LT κ] [DecidableLT κ] in
theorem mem_of_get? (found : get? key t = some value) : (key, value) ∈ t := by
  induction t with
  | nil => cases found
  | cons entry rest ih =>
    unfold get? at found
    split at found
    · rename_i same
      obtain rfl := Option.some.inj found
      exact same ▸ List.mem_cons_self
    · exact List.mem_cons_of_mem _ (ih found)

omit [LT κ] [DecidableLT κ] in
theorem isSome_get?_iff : (get? key t).isSome ↔ key ∈ keys t := by
  induction t with
  | nil => simp [get?, keys]
  | cons entry rest ih =>
    rw [get?, keys, List.map_cons, List.mem_cons]
    by_cases same : entry.1 = key
    · simp [same]
    · rw [if_neg same, ih, or_iff_right (Ne.symm same), keys]

omit [DecidableLT κ] in
/-- In a table in order, an entry is what its key is looked up as. -/
theorem mem_iff_get? [Std.Irrefl (α := κ) (· < ·)] (ordered : t.Ordered) :
    (key, value) ∈ t ↔ get? key t = some value := by
  refine ⟨fun member => ?_, mem_of_get?⟩
  induction t with
  | nil => cases member
  | cons entry rest ih =>
    obtain ⟨first, others⟩ := List.pairwise_cons.mp ordered
    rcases List.mem_cons.mp member with rfl | later
    · exact if_pos rfl
    · have different : entry.1 ≠ key := by
        rintro rfl
        exact Std.Irrefl.irrefl _ (first _ (List.mem_map.mpr ⟨_, later, rfl⟩))
      rw [get?, if_neg different, ih others later]

omit [DecidableLT κ] [DecidableEq κ] in
/-- A table in order is known by its entries. -/
theorem Ordered.eq_of_mem_iff [Std.Asymm (α := κ) (· < ·)] {t' : Table κ α} (ordered : t.Ordered)
    (ordered' : t'.Ordered) (same : ∀ entry, entry ∈ t ↔ entry ∈ t') : t = t' := by
  have asymm : Std.Asymm fun a b : κ × α => a.1 < b.1 := ⟨fun a b => Std.Asymm.asymm a.1 b.1⟩
  exact List.Pairwise.eq_of_mem_iff (List.pairwise_map.mp ordered) (List.pairwise_map.mp ordered')
    same

/-! ## Grouping -/

variable {β : Type}

/-- Entries gathered under their keys: `gather` makes the value of a key from the one so far and the
next one that comes under the key. -/
def gathered (gather : Option α → β → α) (entries : List (κ × β)) : Table κ α :=
  entries.foldl (fun t entry => alter entry.1 (fun old => gather old entry.2) t) []

theorem gathered_concat (gather : Option α → β → α) (entries : List (κ × β)) (entry : κ × β) :
    gathered gather (entries ++ [entry]) =
      alter entry.1 (fun old => gather old entry.2) (gathered gather entries) := by
  rw [gathered, List.foldl_append, List.foldl_cons, List.foldl_nil]
  rfl

theorem ordered_gathered [Std.Trichotomous (α := κ) (· < ·)]
    [Trans (α := κ) (· < ·) (· < ·) (· < ·)] (gather : Option α → β → α)
    (entries : List (κ × β)) : (gathered gather entries).Ordered := by
  induction entries using List.reverseRecOn with
  | nil => exact List.Pairwise.nil
  | append_singleton entries entry ih =>
    rw [gathered_concat]
    exact ih.put

/-- What is gathered under a key depends only on what comes under that key. -/
theorem get?_gathered (gather : Option α → β → α) (key : κ) (entries : List (κ × β)) :
    get? key (gathered gather entries) =
      ((entries.filter (·.1 = key)).map Prod.snd).foldl (some <| gather · ·) none := by
  induction entries using List.reverseRecOn with
  | nil => rfl
  | append_singleton entries entry ih =>
    rw [gathered_concat, List.filter_append, List.map_append, List.foldl_append, ← ih, alter]
    by_cases same : entry.1 = key
    · subst same
      rw [get?_put_self]
      simp
    · rw [get?_put_of_ne same]
      simp [same]

/-! ## Tables of lists -/

theorem ofList_eq_gathered (entries : List (κ × α)) :
    ofList entries = gathered (fun _ value => value) entries :=
  rfl

theorem ofList_concat (entries : List (κ × α)) (entry : κ × α) :
    ofList (entries ++ [entry]) = put entry.1 entry.2 (ofList entries) :=
  gathered_concat (fun _ value => value) entries entry

theorem ordered_ofList [Std.Trichotomous (α := κ) (· < ·)]
    [Trans (α := κ) (· < ·) (· < ·) (· < ·)] (entries : List (κ × α)) :
    (ofList entries).Ordered :=
  ordered_gathered (fun _ value => value) entries

/-- A table is what the list of its entries gives. -/
theorem Ordered.ofList_eq [Std.Asymm (α := κ) (· < ·)] (ordered : t.Ordered) : ofList t = t := by
  induction t using List.reverseRecOn with
  | nil => rfl
  | append_singleton front entry ih =>
    rw [Ordered, keys, List.map_append, List.pairwise_append] at ordered
    obtain ⟨inFront, -, last⟩ := ordered
    rw [ofList_concat, ih inFront]
    exact put_of_forall_lt fun k member => last k member _ List.mem_cons_self

/-- Of the values that are given to a key, the last one counts. -/
theorem get?_ofList (key : κ) (entries : List (κ × α)) : get? key (ofList entries) =
    ((entries.filter (·.1 = key)).getLast?).map Prod.snd := by
  have last (values : List α) : values.foldl (fun _ value => some value) none = values.getLast? := by
    induction values using List.reverseRecOn with
    | nil => rfl
    | append_singleton values value => simp
  rw [ofList_eq_gathered, get?_gathered, last, List.getLast?_map]

theorem mem_keys_ofList_iff {entries : List (κ × α)} :
    key ∈ keys (ofList entries) ↔ key ∈ entries.map Prod.fst := by
  rw [← isSome_get?_iff, get?_ofList, Option.isSome_map, List.getLast?_isSome, ne_eq,
    List.filter_eq_nil_iff]
  simp

end Telemetry.Table
