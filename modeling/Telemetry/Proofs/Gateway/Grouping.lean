import Telemetry.Gateway.Admin
import Telemetry.Proofs.Table
/-!
# Received data by name

What administrators are shown of the received envelopes: an entry for every name that a column has,
with the samples of all columns of that name, the newest first. No sample is lost, added or moved to
another name, and samples of one time stay in the order in which they came.
-/

namespace Telemetry.Admin

variable {arrived series series' : Series} {name : String} {envelopes : List Store.ReceivedEnvelope}

/-! ## Newest first -/

/-- A series holds the samples that arrived, newest first; samples of one time stay in the order of
their arrival. -/
structure NewestFirst (arrived series : Series) : Prop where
  perm : series.Perm arrived
  newest : series.Pairwise fun a b => b.1 ≤ a.1
  stable : ∀ time : Int, series.filter (·.1 = time) = arrived.filter (·.1 = time)

theorem newestFirst_mergeSort (arrived : Series) :
    NewestFirst arrived (arrived.mergeSort fun a b => b.1 ≤ a.1) := by
  have trans (a b c : Int × Json) :
      decide (b.1 ≤ a.1) → decide (c.1 ≤ b.1) → decide (c.1 ≤ a.1) := by
    simp only [decide_eq_true_eq]
    omega
  have total (a b : Int × Json) : decide (b.1 ≤ a.1) || decide (a.1 ≤ b.1) := by
    simp only [Bool.or_eq_true, decide_eq_true_eq]
    omega
  have perm := List.mergeSort_perm arrived fun a b => decide (b.1 ≤ a.1)
  refine ⟨perm, ?_, fun time => ?_⟩
  · exact (List.pairwise_mergeSort trans total arrived).imp of_decide_eq_true
  · -- samples of one time are in order already, and sorting keeps ordered parts together
    have level : (arrived.filter (·.1 = time)).Pairwise fun a b => decide (b.1 ≤ a.1) := by
      refine List.pairwise_of_forall_mem_list fun a insideA b insideB => ?_
      have timeA := of_decide_eq_true (List.mem_filter.mp insideA).2
      have timeB := of_decide_eq_true (List.mem_filter.mp insideB).2
      exact decide_eq_true (by omega)
    have kept := (List.sublist_mergeSort trans total level List.filter_sublist).filter (·.1 = time)
    rw [List.filter_filter] at kept
    refine (List.Sublist.eq_of_length ?_ ((perm.filter _).length_eq.symm)).symm
    simpa using kept

theorem mem_iff_of_levels
    (same : ∀ time : Int, series.filter (·.1 = time) = series'.filter (·.1 = time))
    (sample : Int × Json) : sample ∈ series ↔ sample ∈ series' := by
  have level := congrArg (sample ∈ ·) (same sample.1)
  simpa [List.mem_filter] using level

/-- A series in which the newest sample comes first is known by its samples of each time. -/
theorem eq_of_levels (newest : series.Pairwise fun a b => b.1 ≤ a.1)
    (newest' : series'.Pairwise fun a b => b.1 ≤ a.1)
    (same : ∀ time : Int, series.filter (·.1 = time) = series'.filter (·.1 = time)) :
    series = series' := by
  induction series generalizing series' with
  | nil =>
    refine (List.eq_nil_iff_forall_not_mem.mpr fun sample inside => ?_).symm
    exact List.not_mem_nil ((mem_iff_of_levels same sample).mpr inside)
  | cons a rest ih =>
    have shared := mem_iff_of_levels same
    cases series' with
    | nil => exact absurd ((shared a).mp List.mem_cons_self) List.not_mem_nil
    | cons b rest' =>
      obtain ⟨first, others⟩ := List.pairwise_cons.mp newest
      obtain ⟨first', others'⟩ := List.pairwise_cons.mp newest'
      -- neither of the two first samples is newer than the other
      have level : a.1 = b.1 := by
        have before : b.1 ≤ a.1 := by
          rcases List.mem_cons.mp ((shared b).mpr List.mem_cons_self) with rfl | inside
          · exact Int.le_refl _
          · exact first b inside
        have after : a.1 ≤ b.1 := by
          rcases List.mem_cons.mp ((shared a).mp List.mem_cons_self) with rfl | inside
          · exact Int.le_refl _
          · exact first' a inside
        omega
      have heads := same a.1
      rw [List.filter_cons_of_pos (by simp), List.filter_cons_of_pos (by simp [level])] at heads
      obtain ⟨rfl, -⟩ := List.cons.inj heads
      have tails (time : Int) : rest.filter (·.1 = time) = rest'.filter (·.1 = time) := by
        have both := same time
        rw [List.filter_cons, List.filter_cons] at both
        split at both
        · exact (List.cons.inj both).2
        · exact both
      rw [ih others others' tails]

/-- There is only one such series. -/
theorem NewestFirst.unique (first : NewestFirst arrived series)
    (second : NewestFirst arrived series') : series = series' :=
  eq_of_levels first.newest second.newest fun time =>
    (first.stable time).trans (second.stable time).symm

/-! ## Columns by name -/

/-- Some message has a column of this name. -/
def Occurs (name : String) (envelopes : List Store.ReceivedEnvelope) : Prop :=
  ∃ envelope ∈ envelopes, ∃ message ∈ envelope.messages, ∃ column ∈ message.data,
    message.path ++ "." ++ column.1 = name

/-- The samples of all columns of a name, in the order of envelopes, messages and samples. -/
def arrivals (name : String) (envelopes : List Store.ReceivedEnvelope) : Series :=
  envelopes.flatMap fun envelope =>
    envelope.messages.flatMap fun message =>
      message.data.flatMap fun column =>
        if message.path ++ "." ++ column.1 = name then
          column.2.map fun sample => (sample.time.toInt, sample.value.toJson)
        else []

theorem exists_mem_columnsOf_iff : (∃ column ∈ columnsOf envelopes, column.1 = name) ↔
    Occurs name envelopes := by
  simp only [columnsOf, List.mem_flatMap, List.mem_map, Occurs]
  constructor
  · rintro ⟨-, ⟨envelope, insideE, message, insideM, column, insideC, rfl⟩, named⟩
    exact ⟨envelope, insideE, message, insideM, column, insideC, named⟩
  · rintro ⟨envelope, insideE, message, insideM, column, insideC, named⟩
    exact ⟨_, ⟨envelope, insideE, message, insideM, column, insideC, rfl⟩, named⟩

theorem flatMap_columnsOf (name : String) (envelopes : List Store.ReceivedEnvelope) :
    ((columnsOf envelopes).filter (·.1 = name)).flatMap Prod.snd = arrivals name envelopes := by
  have own (path : String) (data : Table String (List Store.Sample)) :
      ((data.map fun column => (nameOf path column.1, column.2.map fun sample =>
        (sample.time.toInt, sample.value.toJson))).filter (·.1 = name)).flatMap Prod.snd =
      data.flatMap fun column => if path ++ "." ++ column.1 = name then
        column.2.map fun sample => (sample.time.toInt, sample.value.toJson) else [] := by
    induction data with
    | nil => rfl
    | cons column rest ih =>
      rw [List.map_cons, List.filter_cons, List.flatMap_cons, ← ih]
      by_cases named : path ++ "." ++ column.1 = name <;> simp [nameOf, named]
  simp only [columnsOf, List.filter_flatMap, List.flatMap_assoc]
  exact congrArg envelopes.flatMap (funext fun envelope =>
    congrArg envelope.messages.flatMap (funext fun message => own message.path message.data))

/-! ## All of it -/

/-- The samples of columns one behind the other, without any if there are no columns. -/
theorem foldl_append_series (columns : List Series) :
    columns.foldl (fun old series => some (old.getD [] ++ series)) none =
      if columns = [] then none else some columns.flatten := by
  have further (start : Series) (columns : List Series) :
      columns.foldl (fun old series => some (old.getD [] ++ series)) (some start) =
        some (start ++ columns.flatten) := by
    induction columns generalizing start with
    | nil => simp
    | cons column rest ih => simp [ih]
  cases columns with
  | nil => rfl
  | cons column rest => simp [further]

/-- The columns put together by name, not sorted yet. -/
def byName (envelopes : List Store.ReceivedEnvelope) : Table String Series :=
  Table.gathered (fun old series => old.getD [] ++ series) (columnsOf envelopes)

theorem ordered_byName (envelopes : List Store.ReceivedEnvelope) : (byName envelopes).Ordered :=
  Table.ordered_gathered ..

theorem groupReceived_eq (envelopes : List Store.ReceivedEnvelope) : groupReceived envelopes =
    (byName envelopes).map fun entry => (entry.1, entry.2.mergeSort fun a b => b.1 ≤ a.1) :=
  rfl

theorem keys_groupReceived (envelopes : List Store.ReceivedEnvelope) :
    Table.keys (groupReceived envelopes) = Table.keys (byName envelopes) := by
  rw [groupReceived_eq, Table.keys, List.map_map]
  rfl

/-- Under a name are the samples that arrived for it. -/
theorem mem_byName_iff : (name, arrived) ∈ byName envelopes ↔
    Occurs name envelopes ∧ arrived = arrivals name envelopes := by
  have none_iff : ((columnsOf envelopes).filter (·.1 = name)).map Prod.snd = [] ↔
      ¬ Occurs name envelopes := by
    rw [← exists_mem_columnsOf_iff, List.map_eq_nil_iff, List.filter_eq_nil_iff]
    simp only [decide_eq_true_eq, not_exists, not_and]
  rw [Table.mem_iff_get? (ordered_byName envelopes), byName, Table.get?_gathered,
    foldl_append_series, ← List.flatMap_def, flatMap_columnsOf]
  by_cases occurs : Occurs name envelopes
  · rw [if_neg fun none => none_iff.mp none occurs, Option.some.injEq]
    exact ⟨fun same => ⟨occurs, same.symm⟩, fun same => same.2.symm⟩
  · rw [if_pos (none_iff.mpr occurs)]
    exact iff_of_false (by simp) fun found => occurs found.1

theorem mem_groupReceived_iff : (name, series) ∈ groupReceived envelopes ↔
    Occurs name envelopes ∧ NewestFirst (arrivals name envelopes) series := by
  rw [groupReceived_eq, List.mem_map]
  constructor
  · rintro ⟨⟨name, arrived⟩, inside, same⟩
    cases same
    obtain ⟨occurs, rfl⟩ := mem_byName_iff.mp inside
    exact ⟨occurs, newestFirst_mergeSort _⟩
  · rintro ⟨occurs, newestFirst⟩
    refine ⟨(name, arrivals name envelopes), mem_byName_iff.mpr ⟨occurs, rfl⟩, ?_⟩
    rw [newestFirst.unique (newestFirst_mergeSort _)]

/-- Received data has one entry for every name that a column has, in the order of names. Under it
are the samples of all columns of that name and no others, newest first, those of one time in the order
in which they arrived. -/
theorem groupReceived_spec (envelopes : List Store.ReceivedEnvelope) :
    Table.Ordered (groupReceived envelopes) ∧
      (∀ name, name ∈ Table.keys (groupReceived envelopes) ↔ Occurs name envelopes) ∧
      ∀ name series, (name, series) ∈ groupReceived envelopes ↔
        Occurs name envelopes ∧ NewestFirst (arrivals name envelopes) series := by
  refine ⟨?_, fun name => ?_, fun name series => mem_groupReceived_iff⟩
  · rw [Table.Ordered, keys_groupReceived]
    exact ordered_byName envelopes
  · rw [keys_groupReceived, Table.keys, List.mem_map]
    constructor
    · rintro ⟨⟨name, arrived⟩, inside, rfl⟩
      exact (mem_byName_iff.mp inside).1
    · intro occurs
      exact ⟨_, mem_byName_iff.mpr ⟨occurs, rfl⟩, rfl⟩

/-- Columns of different paths and keys may have the same name. -/
example :
    groupReceived [⟨0, [⟨"a", [("b.c", [⟨5, .int 1⟩, ⟨7, .int 2⟩])]⟩]⟩,
        ⟨1, [⟨"a.b", [("c", [⟨7, .int 3⟩])]⟩]⟩] =
      [("a.b.c", [(7, .int 2), (7, .int 3), (5, .int 1)])] := by
  cbv

end Telemetry.Admin
