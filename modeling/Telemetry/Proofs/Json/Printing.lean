import Telemetry.Json.Basic
import Telemetry.Json.Source
/-!
# Reading what was printed

A value that is printed over several lines is read back as its tree, whatever stands behind it. The
escapes of strings are undone, and the blanks in front of items, fields and closing brackets are
skipped. Numbers are left out here: what their digits stand for is a matter of its own.

The induction is over the value. Its hypothesis gives reading twice as many steps as characters were
printed, which is enough for every part, as a part is shorter by at least one character.
-/

namespace Telemetry.Json

/-! ## Trees -/

mutual

/-- The tree that the text of a value without numbers is read as. -/
def source? : Json → Option Source
  | null => some .null
  | bool value => some (.bool value)
  | text value => some (.text (some value))
  | array items => (itemSources? items).map .array
  | object fields => (fieldSources? fields).map .object
  | int _ | float _ => none
termination_by structural json => json

def itemSources? : List Json → Option (List Source)
  | [] => some []
  | item :: rest => do return (← item.source?) :: (← itemSources? rest)
termination_by structural items => items

def fieldSources? : List (String × Json) → Option (List (Option String × Source))
  | [] => some []
  | (name, value) :: rest => do return (some name, ← value.source?) :: (← fieldSources? rest)
termination_by structural fields => fields

end

namespace Source

variable {depth fuel : Nat} {rest : List Char}

/-! ## Strings -/

/-- Whether a character inside quotes is written by its number. -/
def isNumbered (c : Char) : Bool :=
  c.toNat < 0x20 ∧ c ∉ ['\x08', '\x0c', '\n', '\r', '\t']

/-- The unit of a string that a character is written as. -/
def unitOf (c : Char) : Char ⊕ Nat := if isNumbered c then .inr c.toNat else .inl c

theorem hexFour?_digitChar {n : Nat} (small : n < 0x20) :
    hexFour? '0' '0' (Nat.digitChar (n / 16)) (Nat.digitChar (n % 16)) = some n := by
  have all : ∀ n < 0x20,
      hexFour? '0' '0' (Nat.digitChar (n / 16)) (Nat.digitChar (n % 16)) = some n := by decide
  exact all n small

theorem readUnits_escapeChar (units : List (Char ⊕ Nat)) (c : Char) (rest : List Char) :
    readUnits units (escapeChar c ++ rest) = readUnits (unitOf c :: units) rest := by
  unfold escapeChar
  split
  case h_8 quote backslash b f n r t =>
    have special : c ∉ ['\x08', '\x0c', '\n', '\r', '\t'] := by simpa using ⟨b, f, n, r, t⟩
    split
    · rename_i small
      have numbered : unitOf c = .inr c.toNat := if_pos (decide_eq_true ⟨small, special⟩)
      simp only [List.cons_append, List.nil_append, readUnits, hexFour?_digitChar small, numbered]
    · rename_i large
      have plain : unitOf c = .inl c := by simp [unitOf, isNumbered, large]
      rw [List.singleton_append, readUnits, if_neg large, plain]
      · exact quote
      · rintro _ _ _ _ _ rfl
        contradiction
      · exact fun _ _ same => absurd same backslash
  all_goals rfl

theorem readUnits_flatMap (units : List (Char ⊕ Nat)) (cs rest : List Char) :
    readUnits units (cs.flatMap escapeChar ++ '"' :: rest) =
      some (units.reverse ++ cs.map unitOf, rest) := by
  induction cs generalizing units with
  | nil => simp [readUnits]
  | cons c cs ih =>
    rw [List.flatMap_cons, List.append_assoc, readUnits_escapeChar, ih]
    simp

/-- A unit that is no half of a surrogate pair stands for a character. -/
theorem joinUnits_number {n : Nat} (small : n < 0x20) (units : List (Char ⊕ Nat)) :
    joinUnits (.inr n :: units) = (joinUnits units).map (Char.ofNat n :: ·) := by
  have notHigh : ¬ (0xD800 ≤ n ∧ n ≤ 0xDBFF) := by omega
  have notLow : ¬ (0xDC00 ≤ n ∧ n ≤ 0xDFFF) := by omega
  have notHalf : ¬ (0xD800 ≤ n ∧ n ≤ 0xDFFF) := by omega
  match units with
  | .inr low :: units => rw [joinUnits, if_neg notHigh, if_neg notLow]
  | .inl c :: units => simp [joinUnits, notHalf]
  | [] => simp [joinUnits, notHalf]

theorem joinUnits_unitOf (cs : List Char) : joinUnits (cs.map unitOf) = some cs := by
  induction cs with
  | nil => rfl
  | cons c cs ih =>
    rw [List.map_cons]
    by_cases numbered : isNumbered c
    · rw [unitOf, if_pos numbered, joinUnits_number (of_decide_eq_true numbered).1, ih,
        Char.ofNat_toNat]
      rfl
    · rw [unitOf, if_neg numbered, joinUnits, ih]
      rfl

theorem quoted_append (s : String) (rest : List Char) :
    quoted s ++ rest = '"' :: (s.toList.flatMap escapeChar ++ '"' :: rest) := by
  rw [quoted, List.cons_append, List.append_assoc, List.singleton_append]

/-- A string in quotes is read back, behind its first quote. -/
theorem readText_escaped (s : String) (rest : List Char) :
    readText (s.toList.flatMap escapeChar ++ '"' :: rest) = some (some s, rest) := by
  rw [readText, readUnits_flatMap]
  show some ((joinUnits (s.toList.map unitOf)).map String.ofList, rest) = _
  rw [joinUnits_unitOf, Option.map_some, String.ofList_toList]

/-! ## Blanks -/

theorem skipBlank_newLine (depth : Nat) (cs : List Char) :
    skipBlank (newLine depth ++ cs) = skipBlank cs := by
  have spaces (n : Nat) : skipBlank (List.replicate n ' ' ++ cs) = skipBlank cs := by
    induction n with
    | zero => rfl
    | succ n ih => exact ih
  exact spaces (2 * depth)

theorem skipBlank_skipBlank (cs : List Char) : skipBlank (skipBlank cs) = skipBlank cs := by
  induction cs with
  | nil => rfl
  | cons c rest ih =>
    by_cases blank : c = ' ' ∨ c = '\n' ∨ c = '\t' ∨ c = '\r'
    · rw [skipBlank, if_pos blank, ih]
    · rw [skipBlank, if_neg blank, skipBlank, if_neg blank]

/-- Reading a value starts behind the blanks. -/
theorem readValue_congr {cs cs' : List Char} (same : skipBlank cs = skipBlank cs') (fuel : Nat) :
    readValue fuel cs = readValue fuel cs' := by
  cases fuel with
  | zero => rfl
  | succ fuel => rw [readValue, readValue, same]

theorem readValue_space (fuel : Nat) (cs : List Char) :
    readValue fuel (' ' :: cs) = readValue fuel cs := by
  have skipped : skipBlank (' ' :: cs) = skipBlank cs := rfl
  exact readValue_congr skipped fuel

theorem readItems_congr {cs cs' : List Char} (same : skipBlank cs = skipBlank cs') (fuel : Nat) :
    readItems fuel cs = readItems fuel cs' := by
  cases fuel with
  | zero => rfl
  | succ fuel => rw [readItems, readItems, readValue_congr same]

theorem readFields_congr {cs cs' : List Char} (same : skipBlank cs = skipBlank cs') (fuel : Nat) :
    readFields fuel cs = readFields fuel cs' := by
  cases fuel with
  | zero => rfl
  | succ fuel => rw [readFields, readFields, same]

/-! ## Brackets -/

theorem readValue_quote (fuel : Nat) (s : String) (rest : List Char) :
    readValue (fuel + 1) (quoted s ++ rest) = (text (some s), some rest) := by
  rw [quoted_append, readValue]
  simp [skipBlank, readText_escaped]

theorem readValue_bracket {cs : List Char} (fuel : Nat) (more : ∀ rest, skipBlank cs ≠ ']' :: rest) :
    readValue (fuel + 1) ('[' :: cs) = (array (readItems fuel cs).1, (readItems fuel cs).2) := by
  rw [readValue]
  simp only [skipBlank, Char.reduceEq, or_self, if_false]
  rw [readItems_congr (skipBlank_skipBlank cs)]

theorem readValue_brace {cs : List Char} (fuel : Nat)
    (more : ∀ rest, skipBlank cs ≠ '\x7d' :: rest) :
    readValue (fuel + 1) ('\x7b' :: cs) =
      (object (readFields fuel cs).1, (readFields fuel cs).2) := by
  rw [readValue]
  simp only [skipBlank, Char.reduceEq, or_self, if_false]
  rw [readFields_congr (skipBlank_skipBlank cs)]

theorem readItems_last {item : Source} {cs : List Char}
    (read : readValue fuel cs = (item, some (newLine depth ++ ']' :: rest))) :
    readItems (fuel + 1) cs = ([item], some rest) := by
  have closes : skipBlank (newLine depth ++ ']' :: rest) = ']' :: rest := skipBlank_newLine _ _
  rw [readItems, read]
  dsimp only
  rw [closes]
  rfl

theorem readItems_more {item : Source} {cs : List Char}
    (read : readValue fuel cs = (item, some (',' :: rest))) :
    readItems (fuel + 1) cs = (item :: (readItems fuel rest).1, (readItems fuel rest).2) := by
  rw [readItems, read]
  rfl

theorem readFields_last {name : String} {value : Source} {cs : List Char}
    (read : readValue fuel cs = (value, some (newLine depth ++ '\x7d' :: rest))) :
    readFields (fuel + 1) (quoted name ++ ':' :: cs) = ([(some name, value)], some rest) := by
  have closes : skipBlank (newLine depth ++ '\x7d' :: rest) = '\x7d' :: rest :=
    skipBlank_newLine _ _
  rw [quoted_append, readFields]
  simp [skipBlank, readText_escaped, read, closes]

theorem readFields_more {name : String} {value : Source} {cs : List Char}
    (read : readValue fuel cs = (value, some (',' :: rest))) :
    readFields (fuel + 1) (quoted name ++ ':' :: cs) =
      ((some name, value) :: (readFields fuel rest).1, (readFields fuel rest).2) := by
  rw [quoted_append, readFields]
  simp [skipBlank, readText_escaped, read]

/-! ## Values -/

/-- A printed value does not start with a blank or a closing bracket. -/
theorem skipBlank_prettyChars {json : Json} {source : Source} (tree : json.source? = some source)
    (depth : Nat) (tail rest : List Char) : skipBlank (prettyChars depth json ++ tail) ≠ ']' :: rest := by
  have start {c : Char} {cs : List Char}
      (significant : c ∈ ['n', 't', 'f', '"', '[', '\x7b']) : skipBlank (c :: cs) ≠ ']' :: rest := by
    simp only [List.mem_cons, List.not_mem_nil, or_false] at significant
    rcases significant with rfl | rfl | rfl | rfl | rfl | rfl <;> simp [skipBlank]
  cases json with
  | null => exact start (by decide)
  | bool value => cases value <;> exact start (by decide)
  | int | float => cases tree
  | text value => exact start (by decide)
  | array items => cases items <;> exact start (by decide)
  | object fields => cases fields <;> exact start (by decide)

theorem itemSources?_cons {item : Json} {items : List Json} {sources : List Source}
    (trees : itemSources? (item :: items) = some sources) : ∃ first others,
    item.source? = some first ∧ itemSources? items = some others ∧ first :: others = sources := by
  simpa [itemSources?, Option.bind_eq_some_iff] using trees

theorem fieldSources?_cons {name : String} {value : Json} {fields : List (String × Json)}
    {sources : List (Option String × Source)}
    (trees : fieldSources? ((name, value) :: fields) = some sources) : ∃ first others,
    value.source? = some first ∧ fieldSources? fields = some others ∧
      (some name, first) :: others = sources := by
  simpa [fieldSources?, Option.bind_eq_some_iff] using trees

theorem prettyItems_cons_cons (depth : Nat) (item next : Json) (items : List Json) :
    prettyItems depth (item :: next :: items) = prettyChars (depth + 1) item ++
      ',' :: (newLine (depth + 1) ++ prettyItems depth (next :: items)) :=
  rfl

theorem prettyFields_cons_cons (depth : Nat) (name : String) (value : Json)
    (next : String × Json) (fields : List (String × Json)) :
    prettyFields depth ((name, value) :: next :: fields) =
      quoted name ++ ':' :: ' ' :: (prettyChars (depth + 1) value ++
        ',' :: (newLine (depth + 1) ++ prettyFields depth (next :: fields))) :=
  rfl

theorem prettyItems_cons (depth : Nat) (item : Json) (items : List Json) :
    ∃ tail, prettyItems depth (item :: items) = prettyChars (depth + 1) item ++ tail := by
  cases items with
  | nil => exact ⟨newLine depth ++ [']'], List.append_assoc _ _ _⟩
  | cons => exact ⟨_, rfl⟩

mutual

theorem readValue_pretty : (json : Json) → {source : Source} → json.source? = some source →
    (depth fuel : Nat) → (rest : List Char) → 2 * (prettyChars depth json).length ≤ fuel →
    readValue fuel (prettyChars depth json ++ rest) = (source, some rest)
  | .null, _, rfl, _, fuel + 1, _, _ => rfl
  | .bool true, _, rfl, _, fuel + 1, _, _ => rfl
  | .bool false, _, rfl, _, fuel + 1, _, _ => rfl
  | .text value, _, rfl, _, fuel + 1, rest, _ => readValue_quote fuel value rest
  | .array [], _, rfl, _, fuel + 1, _, _ => rfl
  | .object [], _, rfl, _, fuel + 1, _, _ => rfl
  | .array (item :: items), source, tree, depth, fuel + 1, rest, enough => by
    obtain ⟨sources, trees, rfl⟩ := Option.map_eq_some_iff.mp tree
    rw [prettyChars, List.length_cons, List.length_append] at enough
    obtain ⟨first, others, one, -, -⟩ := itemSources?_cons trees
    have opened : ∀ rest', skipBlank (newLine (depth + 1) ++
        (prettyItems depth (item :: items) ++ rest)) ≠ ']' :: rest' := fun rest' => by
      obtain ⟨tail, starts⟩ := prettyItems_cons depth item items
      rw [skipBlank_newLine, starts, List.append_assoc]
      exact skipBlank_prettyChars one (depth + 1) _ rest'
    have items := readItems_pretty (item :: items) (List.cons_ne_nil _ _) trees depth fuel rest
      (by omega)
    rw [prettyChars, List.cons_append, List.append_assoc, readValue_bracket fuel opened,
      readItems_congr (skipBlank_newLine _ _), items]
  | .object (field :: fields), source, tree, depth, fuel + 1, rest, enough => by
    obtain ⟨sources, trees, rfl⟩ := Option.map_eq_some_iff.mp tree
    rw [prettyChars, List.length_cons, List.length_append] at enough
    have opened : ∀ rest', skipBlank (newLine (depth + 1) ++
        (prettyFields depth (field :: fields) ++ rest)) ≠ '\x7d' :: rest' := fun rest' => by
      obtain ⟨name, value⟩ := field
      rw [skipBlank_newLine]
      cases fields <;> simp [prettyFields, quoted, skipBlank]
    have fields := readFields_pretty (field :: fields) (List.cons_ne_nil _ _) trees depth fuel rest
      (by omega)
    rw [prettyChars, List.cons_append, List.append_assoc, readValue_brace fuel opened,
      readFields_congr (skipBlank_newLine _ _), fields]

theorem readItems_pretty : (items : List Json) → items ≠ [] → {sources : List Source} →
    itemSources? items = some sources → (depth fuel : Nat) → (rest : List Char) →
    2 * (prettyItems depth items).length ≤ fuel →
    readItems fuel (prettyItems depth items ++ rest) = (sources, some rest)
  | [item], _, sources, trees, depth, fuel, rest, enough => by
    obtain ⟨first, _, one, ⟨⟩, rfl⟩ := itemSources?_cons trees
    rw [prettyItems, List.length_append, List.length_append, List.length_singleton] at enough
    obtain ⟨fuel, rfl⟩ : ∃ less, fuel = less + 1 := ⟨fuel - 1, by omega⟩
    have read := readValue_pretty item one (depth + 1) fuel (newLine depth ++ ']' :: rest) (by omega)
    rw [prettyItems, List.append_assoc, List.append_assoc, List.singleton_append]
    exact readItems_last read
  | item :: next :: items, _, sources, trees, depth, fuel, rest, enough => by
    obtain ⟨first, others, one, more, rfl⟩ := itemSources?_cons trees
    rw [prettyItems_cons_cons, List.length_append, List.length_cons, List.length_append] at enough
    obtain ⟨fuel, rfl⟩ : ∃ less, fuel = less + 1 := ⟨fuel - 1, by omega⟩
    have read := readValue_pretty item one (depth + 1) fuel
      (',' :: (newLine (depth + 1) ++ (prettyItems depth (next :: items) ++ rest))) (by omega)
    have items := readItems_pretty (next :: items) (List.cons_ne_nil _ _) more depth fuel rest (by omega)
    rw [prettyItems_cons_cons, List.append_assoc, List.cons_append, List.append_assoc,
      readItems_more read,
      readItems_congr (skipBlank_newLine _ _), items]

theorem readFields_pretty : (fields : List (String × Json)) → fields ≠ [] →
    {sources : List (Option String × Source)} → fieldSources? fields = some sources →
    (depth fuel : Nat) → (rest : List Char) → 2 * (prettyFields depth fields).length ≤ fuel →
    readFields fuel (prettyFields depth fields ++ rest) = (sources, some rest)
  | [(name, value)], _, sources, trees, depth, fuel, rest, enough => by
    obtain ⟨first, _, one, ⟨⟩, rfl⟩ := fieldSources?_cons trees
    simp only [prettyFields, List.length_append, List.length_cons] at enough
    obtain ⟨fuel, rfl⟩ : ∃ less, fuel = less + 1 := ⟨fuel - 1, by omega⟩
    have read := readValue_pretty value one (depth + 1) fuel (newLine depth ++ '\x7d' :: rest)
      (by omega)
    rw [← readValue_space] at read
    simp only [prettyFields, List.append_assoc, List.cons_append, List.nil_append]
    exact readFields_last read
  | (name, value) :: next :: fields, _, sources, trees, depth, fuel, rest, enough => by
    obtain ⟨first, others, one, more, rfl⟩ := fieldSources?_cons trees
    simp only [prettyFields_cons_cons, List.length_append, List.length_cons] at enough
    obtain ⟨fuel, rfl⟩ : ∃ less, fuel = less + 1 := ⟨fuel - 1, by omega⟩
    have read := readValue_pretty value one (depth + 1) fuel
      (',' :: (newLine (depth + 1) ++ (prettyFields depth (next :: fields) ++ rest))) (by omega)
    have fields := readFields_pretty (next :: fields) (List.cons_ne_nil _ _) more depth fuel rest
      (by omega)
    rw [← readFields_congr (skipBlank_newLine (depth + 1) _)] at fields
    rw [← readValue_space] at read
    simp only [prettyFields_cons_cons, List.append_assoc, List.cons_append]
    rw [readFields_more read, fields]

end

/-- The text of a value without numbers is read as the tree of the value, to its end. -/
theorem read_pretty {json : Json} {source : Source} (tree : json.source? = some source) :
    read json.pretty = (source, some []) := by
  have whole := readValue_pretty json tree 0 (2 * json.pretty.length + 2) []
    (by simp only [pretty, String.length_ofList]; omega)
  rw [List.append_nil] at whole
  rw [read, pretty, String.toList_ofList]
  exact whole

end Source

end Telemetry.Json
