import Mathlib.Data.List.Forall2
import Telemetry.Proofs.Bytes
import Telemetry.Proofs.Number.Binary
import Telemetry.Store.Ingest
/-!
# The times of samples

The columns of a message that is received are stamped row by row: whatever the columns are, a row has
one time. Where the times come from a column of their own, a row is stamped with the number in the
same place among the numbers of that column. This is the number in its own place only as long as no
entry before it is something else, as entries that are no numbers leave no gap.

The law is stated over the integers. A stamp is the signed word of 64 bits that stands for the time
of its row, so that it is this time itself unless that lies outside of their range.
-/

namespace Telemetry.Store

open Bysant (Value Message Number)

variable {now : Int64} {m : Message} {column value : Value} {timeOf : Nat → Int}

/-! ## What a column holds -/

/-- The elements of a value: the items of a list, the samples of a vector, or the value alone. -/
def elements : Value → List Value
  | .list items => items
  | .delta vector => vector.samples.map Value.ofNumber
  | .quasi vector => vector.samples.map Value.ofNumber
  | value => [value]

/-- What a sample shows of an element. -/
inductive Shows : Value → Value → Prop where
  /-- Bytes of a text are shown as the text. -/
  | text (s : String) : Shows (.bytes (Bytes.ofString s)) (.text s)
  /-- Anything else is shown as it is. -/
  | same {value : Value} (other : ∀ s, value ≠ .bytes (Bytes.ofString s)) : Shows value value

theorem shows_textify (value : Value) : Shows value (textify value) := by
  cases value with
  | bytes b =>
    rw [textify]
    cases read : Bytes.toString? b with
    | some s =>
      rw [← Bytes.ofString_of_toString? read]
      exact .text s
    | none =>
      refine .same fun s same => ?_
      cases same
      rw [Bytes.toString?_ofString] at read
      cases read
  | null | bool | int | float | text | list | map | delta | quasi | envelope | message | response =>
    exact .same fun s same => by cases same

theorem shows_ofNumber (n : Number) : Shows (Value.ofNumber n) (Value.ofNumber n) := by
  cases n <;> exact .same fun s same => by cases same

/-- A column has one row for each element, in order. -/
theorem shows_rows (value : Value) : List.Forall₂ Shows (elements value) (rows value) := by
  have numbers (samples : List Number) : List.Forall₂ Shows (samples.map Value.ofNumber)
      (samples.map Value.ofNumber) := by
    rw [List.forall₂_map_left_iff, List.forall₂_map_right_iff, List.forall₂_same]
    exact fun n _ => shows_ofNumber n
  cases value with
  | list items =>
    show List.Forall₂ Shows items (items.map textify)
    rw [List.forall₂_map_right_iff, List.forall₂_same]
    exact fun item _ => shows_textify item
  | delta vector => exact numbers vector.samples
  | quasi vector => exact numbers vector.samples
  | null | bool | int | float | bytes | text | map | envelope | message | response =>
    exact .cons (shows_textify _) .nil

/-- The time that a number stands for: as many seconds, in milliseconds. Times outside of the range
of signed words of 64 bits count as its ends. A float is multiplied as a float, and loses its
fraction then; NaN counts as zero. -/
def timeIn? : Value → Option Int
  | .int seconds => some (max Int64.minValue.toInt (min Int64.maxValue.toInt (seconds.toInt * 1000)))
  | .float seconds => some (seconds * 1000.0).toModel.toInt64.toInt
  | _ => none

/-- The times that a column holds: those of its numbers. -/
def timesIn (column : Value) : List Int := (elements column).filterMap timeIn?

theorem isSome_timeIn? (value : Value) : (timeIn? value).isSome = value.number?.isSome := by
  cases value <;> rfl

theorem toInt_ofIntClamp (n : Int) :
    (Int64.ofIntClamp n).toInt = max Int64.minValue.toInt (min Int64.maxValue.toInt n) := by
  have room : Int64.minValue.toInt ≤ Int64.maxValue.toInt := by decide
  by_cases above : Int64.minValue.toInt ≤ n
  · by_cases below : n ≤ Int64.maxValue.toInt
    · rw [Int64.toInt_ofIntClamp above below]
      omega
    · rw [Int64.ofIntClamp, dif_pos above, dif_neg below]
      omega
  · rw [Int64.ofIntClamp, dif_neg above]
    omega

theorem timesOf_eq (column : Value) : (timesOf column).map Int64.toInt = timesIn column := by
  have plain (value : Value) : (textify value).number? = value.number? := by
    cases value with
    | bytes b =>
      rw [textify]
      cases Bytes.toString? b <;> rfl
    | null | bool | int | float | text | list | map | delta | quasi | envelope | message
      | response => rfl
  have same : (rows column).filterMap Value.number? = (elements column).filterMap Value.number? := by
    cases column with
    | list items =>
      show (items.map textify).filterMap Value.number? = items.filterMap Value.number?
      rw [List.filterMap_map]
      exact congrArg (List.filterMap · items) (funext plain)
    | delta | quasi => rfl
    | null | bool | int | float | bytes | text | map | envelope | message | response =>
      simp only [rows, elements, List.filterMap_cons, plain]
  rw [timesOf, same, List.map_map, List.map_filterMap, timesIn]
  congr 1
  funext value
  cases value with
  | int seconds => exact congrArg some (toInt_ofIntClamp _)
  | float seconds => exact congrArg some (congrArg Int64.toInt (Binary.truncate64_eq _))
  | null | bool | bytes | text | list | map | delta | quasi | envelope | message | response => rfl

/-! ## The time of a row -/

/-- The time of a row: the one in its place, or for a row behind the last time as many milliseconds
later as it lies behind it. When there are no times, rows follow `now`. -/
def timeOfRow (now : Int) (times : List Int) (row : Nat) : Int :=
  match times[row]? with
  | some time => time
  | none => times.getLast?.getD now + (row - times.length + 1 : Nat)

theorem timeOfRow_nil (now : Int) (row : Nat) : timeOfRow now [] row = now + (row + 1 : Nat) := rfl

theorem timeOfRow_cons_succ (now time : Int) (times : List Int) (row : Nat) :
    timeOfRow now (time :: times) (row + 1) = timeOfRow time times row := by
  simp only [timeOfRow, List.getElem?_cons_succ, List.getLast?_cons, Option.getD_some,
    List.length_cons, Nat.add_sub_add_right]

/-- A word that is counted up has wrapped around if the integer has no word. -/
theorem ofInt_add_succ (last : Int64) (row : Nat) :
    Int64.ofInt ((last + 1).toInt + (row + 1 : Nat)) = .ofInt (last.toInt + (row + 1 + 1 : Nat)) := by
  have split : last.toInt + (row + 1 + 1 : Nat) = last.toInt + 1 + (row + 1 : Nat) := by omega
  rw [split, Int64.ofInt_add, Int64.ofInt_add (last.toInt + 1), Int64.ofInt_add last.toInt,
    Int64.ofInt_toInt, Int64.ofInt_toInt]
  rfl

/-- Stamping gives every row its time, although it only looks at the time before. -/
theorem stamp_eq (now : Int64) (times : List Int64) (values : List Value) :
    stamp now times values = values.mapIdx fun row value =>
      ⟨.ofInt (timeOfRow now.toInt (times.map Int64.toInt) row), value⟩ := by
  induction values generalizing now times with
  | nil => cases times <;> rfl
  | cons value rest ih =>
    cases times with
    | nil =>
      have first : now + 1 = .ofInt (now.toInt + (0 + 1 : Nat)) := by
        rw [Int64.ofInt_add, Int64.ofInt_toInt]
        rfl
      simp only [stamp, ih, List.map_nil, List.mapIdx_cons, timeOfRow_nil, ofInt_add_succ, ← first]
    | cons time times =>
      have first : .ofInt (timeOfRow now.toInt (time.toInt :: times.map Int64.toInt) 0) = time :=
        Int64.ofInt_toInt time
      simp only [stamp, ih, List.map_cons, List.mapIdx_cons, timeOfRow_cons_succ, first]

/-! ## Columns -/

/-- The samples of a column: they show its elements in order, each at the time of its row. -/
structure Column (timeOf : Nat → Int) (value : Value) (samples : List Sample) : Prop where
  values : List.Forall₂ Shows (elements value) (samples.map Sample.value)
  times : ∀ (row : Nat) (sample : Sample), samples[row]? = some sample →
    sample.time = .ofInt (timeOf row)

/-- A time that signed words of 64 bits hold is stamped as it is. -/
theorem Column.toInt_time {samples : List Sample} {row : Nat} {sample : Sample}
    (h : Column timeOf value samples) (found : samples[row]? = some sample)
    (above : Int64.minValue.toInt ≤ timeOf row) (below : timeOf row ≤ Int64.maxValue.toInt) :
    sample.time.toInt = timeOf row := by
  rw [h.times row sample found, Int64.toInt_ofInt_of_le above (Int.lt_add_one_of_le below)]

theorem column_mapIdx (timeOf : Nat → Int) (value : Value) :
    Column timeOf value ((rows value).mapIdx fun row value => ⟨.ofInt (timeOf row), value⟩) where
  values := by
    have same : ((rows value).mapIdx fun row value => (⟨.ofInt (timeOf row), value⟩ : Sample)).map
        Sample.value = rows value := by
      apply List.ext_getElem <;> simp
    rw [same]
    exact shows_rows value
  times row sample found := by
    rw [List.getElem?_mapIdx, Option.map_eq_some_iff] at found
    obtain ⟨value, -, rfl⟩ := found
    rfl

/-- The columns of a table of values, under the same keys. -/
def Columns (timeOf : Nat → Int) (entries : List (String × Value))
    (data : Table String (List Sample)) : Prop :=
  List.Forall₂ (fun entry column => column.1 = entry.1 ∧ Column timeOf entry.2 column.2) entries data

theorem Columns.exists_column {entries : List (String × Value)} {data : Table String (List Sample)}
    (h : Columns timeOf entries data) {key : String} {samples : List Sample}
    (member : (key, samples) ∈ data) :
    ∃ value, (key, value) ∈ entries ∧ Column timeOf value samples := by
  induction h with
  | nil => cases member
  | @cons entry column _ _ first _ ih =>
    obtain ⟨same, own⟩ := first
    rcases List.mem_cons.mp member with here | later
    · subst here
      have same : key = entry.1 := same
      exact ⟨entry.2, same ▸ List.mem_cons_self, own⟩
    · obtain ⟨value, inside, own⟩ := ih later
      exact ⟨value, List.mem_cons_of_mem _ inside, own⟩

/-! ## Messages -/

/-- Values that may have several rows. -/
inductive Series : Value → Prop where
  | list (items : List Value) : Series (.list items)
  | delta (vector : Bysant.DeltaVector) : Series (.delta vector)
  | quasi (vector : Bysant.QuasiPeriodicVector) : Series (.quasi vector)

theorem isSeries_iff : isSeries value = true ↔ Series value := by
  constructor
  · intro several
    cases value with
    | list items => exact .list items
    | delta vector => exact .delta vector
    | quasi vector => exact .quasi vector
    | _ => cases several
  · intro several
    cases several <;> rfl

/-- Some value of the message is a list or a compressed vector. -/
def Correlated (m : Message) : Prop := ∃ entry ∈ m.body, Series entry.2

theorem any_isSeries_iff : (m.body.any fun entry => isSeries entry.2) = true ↔ Correlated m := by
  simp only [List.any_eq_true, isSeries_iff, Correlated]

/-- The message has a column of times: under the first key, or under the second one if there is
nothing under the first. -/
def HasTimes (m : Message) (column : Value) : Prop :=
  Table.get? "timestamp" m.body = some column ∨
    Table.get? "timestamp" m.body = none ∧ Table.get? "timestamps" m.body = some column

/-- The message has nothing under either key for times. -/
def Untimed (m : Message) : Prop :=
  Table.get? "timestamp" m.body = none ∧ Table.get? "timestamps" m.body = none

theorem timeColumn?_of_correlated (correlated : Correlated m) :
    timeColumn? m = timeKeys.findSome? fun key => Table.get? key m.body :=
  if_pos (any_isSeries_iff.mpr correlated)

theorem timeColumn?_eq_none (plain : ¬ Correlated m ∨ Untimed m) : timeColumn? m = none := by
  by_cases correlated : Correlated m
  · rcases plain with single | ⟨first, second⟩
    · exact absurd correlated single
    · rw [timeColumn?_of_correlated correlated]
      simp [timeKeys, first, second]
  · exact if_neg (mt any_isSeries_iff.mp correlated)

theorem timeColumn?_eq_some (correlated : Correlated m) (times : HasTimes m column) :
    timeColumn? m = some column := by
  rw [timeColumn?_of_correlated correlated]
  rcases times with first | ⟨first, second⟩
  · simp [timeKeys, first]
  · simp [timeKeys, first, second]

/-- Every message is of one of these kinds. -/
theorem plain_or_timed (m : Message) :
    (¬ Correlated m ∨ Untimed m) ∨ ∃ column, Correlated m ∧ HasTimes m column := by
  by_cases correlated : Correlated m
  · cases first : Table.get? "timestamp" m.body with
    | some column => exact .inr ⟨column, correlated, .inl first⟩
    | none =>
      cases second : Table.get? "timestamps" m.body with
      | some column => exact .inr ⟨column, correlated, .inr ⟨first, second⟩⟩
      | none => exact .inl (.inr ⟨first, second⟩)
  · exact .inl (.inl correlated)

/-- Without a column of times, all columns are kept, and taken when the message was received. -/
theorem columns_of_plain (plain : ¬ Correlated m ∨ Untimed m) (now : Int64) :
    Columns (fun _ => now.toInt) m.body (ReceivedMessage.ofMessage now m).data := by
  rw [ReceivedMessage.ofMessage, timeColumn?_eq_none plain]
  rw [Columns, List.forall₂_map_right_iff, List.forall₂_same]
  intro entry _
  refine ⟨rfl, ?_⟩
  have same : ((rows entry.2).map fun value => (⟨now, value⟩ : Sample)) =
      (rows entry.2).mapIdx fun _ value => ⟨.ofInt now.toInt, value⟩ := by
    rw [Int64.ofInt_toInt]
    apply List.ext_getElem <;> simp
  rw [same]
  exact column_mapIdx (fun _ => now.toInt) entry.2

/-- With a column of times, the other columns are stamped row by row. -/
theorem columns_of_times (correlated : Correlated m) (times : HasTimes m column) (now : Int64) :
    Columns (timeOfRow now.toInt (timesIn column))
      (m.body.filter fun entry => entry.1 ≠ "timestamp" ∧ entry.1 ≠ "timestamps")
      (ReceivedMessage.ofMessage now m).data := by
  have others : (m.body.filter fun entry => entry.1 ∉ timeKeys) =
      m.body.filter fun entry => entry.1 ≠ "timestamp" ∧ entry.1 ≠ "timestamps" := by
    simp [timeKeys]
  rw [ReceivedMessage.ofMessage, timeColumn?_eq_some correlated times]
  dsimp only
  rw [others, Columns, List.forall₂_map_right_iff, List.forall₂_same]
  intro entry _
  refine ⟨rfl, ?_⟩
  rw [stamp_eq, timesOf_eq]
  exact column_mapIdx _ entry.2

/-- What a message that was received at `now` reports. -/
inductive Reports (now : Int64) (m : Message) : ReceivedMessage → Prop where
  /-- No value has rows, or there is no column of times: everything is kept as of `now`. -/
  | atOnce {data : Table String (List Sample)} (plain : ¬ Correlated m ∨ Untimed m)
      (columns : Columns (fun _ => now.toInt) m.body data) : Reports now m ⟨m.path, data⟩
  /-- Some value has rows, and there is a column of times, which is not kept itself. -/
  | byRow {column : Value} {data : Table String (List Sample)} (correlated : Correlated m)
      (times : HasTimes m column)
      (columns : Columns (timeOfRow now.toInt (timesIn column))
        (m.body.filter fun entry => entry.1 ≠ "timestamp" ∧ entry.1 ≠ "timestamps") data) :
      Reports now m ⟨m.path, data⟩

/-- Every message is stamped at once or by its column of times, with one time for a row in all
columns. -/
theorem reports_ofMessage (now : Int64) (m : Message) :
    Reports now m (ReceivedMessage.ofMessage now m) := by
  have path : ReceivedMessage.ofMessage now m = ⟨m.path, (ReceivedMessage.ofMessage now m).data⟩ := by
    unfold ReceivedMessage.ofMessage
    split <;> rfl
  rw [path]
  rcases plain_or_timed m with plain | ⟨column, correlated, times⟩
  · exact .atOnce plain (columns_of_plain plain now)
  · exact .byRow correlated times (columns_of_times correlated times now)

/-- Four rows with two times, and a text that the client has sent as bytes. -/
def timedReport : Message :=
  ⟨"@sys", none, [("level", .list [.int 1, .int 2, .int 3, .int 4]),
    ("name", .bytes (Bytes.ofString "pump")), ("timestamp", .list [.int 10, .float 20.5])]⟩

/-- The text has the time of the first row, and the last two rows follow the second one. -/
theorem reports_timedReport : Reports 7 timedReport (ReceivedMessage.ofMessage 7 timedReport) ∧
    (ReceivedMessage.ofMessage 7 timedReport).data =
      [("level", [⟨10000, .int 1⟩, ⟨20500, .int 2⟩, ⟨20501, .int 3⟩, ⟨20502, .int 4⟩]),
        ("name", [⟨10000, .text "pump"⟩])] :=
  ⟨reports_ofMessage 7 timedReport, rfl⟩

/-- A column of times without any is one, too; then the rows follow the reception. -/
example :
    let m : Message := ⟨"@sys", none, [("level", .list [.int 1, .int 2]), ("timestamp", .list []),
      ("timestamps", .list [.int 5])]⟩
    (ReceivedMessage.ofMessage 7 m).data.map (fun column => (column.1, column.2.map Sample.time)) =
      [("level", [8, 9])] := by
  decide

/-! ## Entries that are no numbers -/

/-- The row that an entry of a column of times stamps, if it is a number: as many numbers as are
before it are rows before that one. -/
def stampedRow (column : Value) (entry : Nat) : Nat :=
  ((elements column).take entry).countP fun value => value.number?.isSome

/-- What comes of an item is found behind what comes of the items before. -/
theorem getElem?_filterMap {α β : Type} {f : α → Option β} {items : List α} {i : Nat} {a : α} {b : β}
    (item : items[i]? = some a) (gives : f a = some b) :
    (items.filterMap f)[(items.take i).countP fun a => (f a).isSome]? = some b := by
  induction items generalizing i with
  | nil => cases item
  | cons first rest ih =>
    cases i with
    | zero =>
      cases item
      simp [gives]
    | succ i =>
      have later := ih item
      rw [List.take_succ_cons, List.countP_cons]
      cases here : f first with
      | none => simpa [here] using later
      | some c => simpa [here] using later

/-- An integer in a column of times stamps the row that has as many rows before it as there are
numbers before the integer, in every column, whatever else the column of times holds. That is the row
in its own place exactly if all entries before it are numbers. -/
theorem time_of_entry {entry : Nat} {seconds : Int64} (correlated : Correlated m)
    (times : HasTimes m column) (holds : (elements column)[entry]? = some (.int seconds))
    (now : Int64) :
    let row := stampedRow column entry
    row ≤ entry ∧
      (row = entry ↔ ∀ value ∈ (elements column).take entry, value.number?.isSome = true) ∧
      ∀ key samples, (key, samples) ∈ (ReceivedMessage.ofMessage now m).data →
        ∀ sample, samples[row]? = some sample →
          sample.time.toInt =
            max Int64.minValue.toInt (min Int64.maxValue.toInt (seconds.toInt * 1000)) := by
  intro row
  have inside : entry < (elements column).length := (List.getElem?_eq_some_iff.mp holds).1
  have front : ((elements column).take entry).length = entry := by
    rw [List.length_take, Nat.min_eq_left (Nat.le_of_lt inside)]
  have time : timeOfRow now.toInt (timesIn column) row =
      max Int64.minValue.toInt (min Int64.maxValue.toInt (seconds.toInt * 1000)) := by
    have found := getElem?_filterMap holds (show timeIn? (.int seconds) = some _ from rfl)
    simp only [isSome_timeIn?] at found
    have found : (timesIn column)[row]? = _ := found
    rw [timeOfRow, found]
  refine ⟨?_, ?_, ?_⟩
  · have few : row ≤ ((elements column).take entry).length := List.countP_le_length
    rwa [front] at few
  · conv => lhs; rhs; rw [← front]
    exact List.countP_eq_length
  · intro key samples member sample found
    obtain ⟨value, -, stamped⟩ := (columns_of_times correlated times now).exists_column member
    have room : Int64.minValue.toInt ≤ Int64.maxValue.toInt := by decide
    rw [stamped.toInt_time found (by omega) (by omega), time]

/-- Times of four rows, of which the second was not known. -/
def gapped : Value := .list [.int 10, .null, .int 30, .int 40]

/-- Four rows with these times. -/
def gappedReport : Message :=
  ⟨"@sys", none, [("temp", .list [.int 1, .int 2, .int 3, .int 4]), ("timestamp", gapped)]⟩

theorem correlated_gappedReport : Correlated gappedReport := ⟨_, List.mem_cons_self, .list _⟩

theorem hasTimes_gappedReport : HasTimes gappedReport gapped := .inl (by rfl)

/-- The last of the times, which is the third number, stamps the third row. -/
theorem time_of_entry_gapped :
    (Correlated gappedReport ∧ HasTimes gappedReport gapped ∧
        (elements gapped)[3]? = some (.int 40)) ∧ stampedRow gapped 3 = 2 ∧
      ∀ key samples, (key, samples) ∈ (ReceivedMessage.ofMessage 0 gappedReport).data →
        ∀ sample, samples[2]? = some sample → sample.time.toInt = 40000 := by
  obtain ⟨-, -, stamps⟩ := time_of_entry correlated_gappedReport hasTimes_gappedReport
    (show (elements gapped)[3]? = some (.int 40) from rfl) 0
  exact ⟨⟨correlated_gappedReport, hasTimes_gappedReport, rfl⟩, rfl, stamps⟩

/-- It is not so that every integer in a column of times stamps the row in its own place. -/
theorem misses_own_row : ¬ ∀ (now : Int64) (m : Message) (column : Value) (entry : Nat)
    (seconds : Int64), Correlated m → HasTimes m column →
      (elements column)[entry]? = some (.int seconds) →
      ∀ key samples, (key, samples) ∈ (ReceivedMessage.ofMessage now m).data →
        ∀ sample, samples[entry]? = some sample →
          sample.time.toInt =
            max Int64.minValue.toInt (min Int64.maxValue.toInt (seconds.toInt * 1000)) := by
  intro own
  have data : (ReceivedMessage.ofMessage 0 gappedReport).data =
      [("temp", [⟨10000, .int 1⟩, ⟨30000, .int 2⟩, ⟨40000, .int 3⟩, ⟨40001, .int 4⟩])] := rfl
  have last := own 0 gappedReport gapped 3 40 correlated_gappedReport hasTimes_gappedReport rfl
    "temp" _ (by rw [data]; exact List.mem_cons_self) ⟨40001, .int 4⟩ rfl
  exact absurd last (by decide)

end Telemetry.Store
