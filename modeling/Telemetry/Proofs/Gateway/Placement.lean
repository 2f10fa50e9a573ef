import Telemetry.Gateway.Admin
import Telemetry.Proofs.Table
/-!
# Settings by path

The messages that bring settings to a device are known by what they hold: under every path and key
the value of the last setting of that name, and nothing else. A name is taken apart at its last dot,
so that each name with a dot stands for one path and one key, which has no dot in it. Neither the
order of settings with different names nor a name without a dot has a part in the messages.
-/

namespace Telemetry.Admin

open Bysant (Message Value)

variable {settings settings' : List (String × Json)} {messages messages' : List Message}
  {name path key : String} {value : Value}

/-! ## Names -/

/-- The part in front of the last dot, which may have dots itself, and the part behind it. -/
theorem splitName?_nameOf (path : String) {key : String} (undotted : '.' ∉ key.toList) :
    splitName? (nameOf path key) = some (path, key) := by
  have behind : ∀ c ∈ key.toList.reverse, (c != '.') = true := by
    intro c member
    rw [bne_iff_ne]
    rintro rfl
    exact undotted (List.mem_reverse.mp member)
  have reversed : (nameOf path key).toList.reverse =
      key.toList.reverse ++ '.' :: path.toList.reverse := by
    simp [nameOf]
  rw [splitName?, reversed, List.dropWhile_append_of_pos behind,
    List.takeWhile_append_of_pos behind]
  simp

theorem of_splitName? (split : splitName? name = some (path, key)) :
    name = nameOf path key ∧ '.' ∉ key.toList := by
  have parts := List.takeWhile_append_dropWhile (p := (· != '.')) (l := name.toList.reverse)
  have behind : ∀ c ∈ name.toList.reverse.takeWhile (· != '.'), (c != '.') = true :=
    fun c member => List.all_eq_true.mp List.all_takeWhile c member
  unfold splitName? at split
  dsimp only at split
  generalize name.toList.reverse.takeWhile (· != '.') = back at parts behind split
  split at split
  · cases split
  · rename_i c front rest
    obtain ⟨rfl, rfl⟩ := Prod.mk.inj (Option.some.inj split)
    have dot : c = '.' := by
      have first := List.head?_dropWhile_not (· != '.') name.toList.reverse
      rw [rest] at first
      simpa using first
    rw [rest, dot] at parts
    refine ⟨String.toList_inj.mp ?_, fun member => ?_⟩
    · rw [← List.reverse_inj, ← parts]
      simp [nameOf]
    · rw [String.toList_ofList, List.mem_reverse] at member
      exact absurd (behind '.' member) (by decide)

theorem splitName?_eq_some_iff :
    splitName? name = some (path, key) ↔ name = nameOf path key ∧ '.' ∉ key.toList := by
  refine ⟨of_splitName?, ?_⟩
  rintro ⟨rfl, undotted⟩
  exact splitName?_nameOf path undotted

theorem isSome_splitName?_iff : (splitName? name).isSome ↔ '.' ∈ name.toList := by
  constructor
  · intro some
    obtain ⟨⟨path, key⟩, split⟩ := Option.isSome_iff_exists.mp some
    rw [(of_splitName? split).1, nameOf]
    simp
  · intro dotted
    have some : name.toList.reverse.dropWhile (· != '.') ≠ [] := by
      intro none
      have parts := List.takeWhile_append_dropWhile (p := (· != '.')) (l := name.toList.reverse)
      rw [none, List.append_nil] at parts
      have inside : '.' ∈ name.toList.reverse.takeWhile (· != '.') :=
        parts.symm ▸ List.mem_reverse.mpr dotted
      exact absurd (List.all_eq_true.mp List.all_takeWhile '.' inside) (by decide)
    unfold splitName?
    dsimp only
    split
    · rename_i none
      exact absurd none some
    · rfl

/-- A name with a dot stands for one path and one key. -/
theorem existsUnique_split (dotted : '.' ∈ name.toList) : ∃! parts : String × String,
    name = nameOf parts.1 parts.2 ∧ '.' ∉ parts.2.toList := by
  obtain ⟨parts, split⟩ := Option.isSome_iff_exists.mp (isSome_splitName?_iff.mpr dotted)
  refine ⟨parts, of_splitName? split, fun other is => ?_⟩
  exact Option.some.inj ((splitName?_eq_some_iff.mpr is).symm.trans split)

/-! ## What messages are to hold -/

/-- Of the settings of a name, the last one has this value. -/
def LastSetting (settings : List (String × Json)) (name : String) (value : Json) : Prop :=
  ∃ before after, settings = before ++ (name, value) :: after ∧ ∀ later ∈ after, later.1 ≠ name

/-- The messages hold what the settings ask for and nothing else: there is one for each path, in
order, without a ticket and with a table of some values, and the value under a path and a key is that
of the last setting of this name. -/
structure Conveys (settings : List (String × Json)) (messages : List Message) : Prop where
  paths : (messages.map Message.path).Pairwise (· < ·)
  unticketed : ∀ m ∈ messages, m.ticket = none
  ordered : ∀ m ∈ messages, Table.Ordered m.body
  some : ∀ m ∈ messages, m.body ≠ []
  undotted : ∀ m ∈ messages, ∀ key ∈ Table.keys m.body, '.' ∉ key.toList
  holds : ∀ path key value, '.' ∉ key.toList →
    ((∃ m ∈ messages, m.path = path ∧ (key, value) ∈ m.body) ↔
      ∃ json, LastSetting settings (nameOf path key) json ∧ value = Value.ofJson json)

theorem lastSetting_iff {value : Json} : LastSetting settings name value ↔
    ((settings.filter (·.1 = name)).getLast?).map Prod.snd = some value := by
  have found : ((settings.filter (·.1 = name)).getLast?).map Prod.snd = some value ↔
      settings.reverse.find? (·.1 = name) = some (name, value) := by
    rw [List.getLast?_filter, Option.map_eq_some_iff]
    constructor
    · rintro ⟨⟨other, _⟩, found, rfl⟩
      have named := List.find?_some found
      obtain rfl : other = name := of_decide_eq_true named
      exact found
    · exact fun found => ⟨_, found, rfl⟩
  rw [found, List.find?_eq_some_iff_append]
  constructor
  · rintro ⟨before, after, rfl, others⟩
    refine ⟨by simp, after.reverse, before.reverse, by simp, fun later member => ?_⟩
    simpa using others later (List.mem_reverse.mp member)
  · rintro ⟨-, after, before, parts, others⟩
    refine ⟨before.reverse, after.reverse, ?_, fun later member => ?_⟩
    · rw [← List.reverse_reverse settings, parts]
      simp
    · simpa using others later (List.mem_reverse.mp member)

/-- There is a last setting of a name if there is any. -/
theorem exists_lastSetting_iff :
    (∃ json, LastSetting settings name json) ↔ name ∈ settings.map Prod.fst := by
  simp only [lastSetting_iff]
  rw [← Option.isSome_iff_exists, Option.isSome_map, List.getLast?_isSome, ne_eq,
    List.filter_eq_nil_iff]
  simp

/-- Where the paths of messages are distinct, one path has one message. -/
theorem Conveys.eq_of_path (h : Conveys settings messages) {m m' : Message} (member : m ∈ messages)
    (member' : m' ∈ messages) (same : m.path = m'.path) : m = m' := by
  have distinct : (messages.map Message.path).Nodup := h.paths.imp String.ne_of_lt
  exact List.inj_on_of_nodup_map distinct member member' same

/-- A value in a message is one that the settings ask for. -/
theorem Conveys.mem_body_iff (h : Conveys settings messages) {m : Message} (member : m ∈ messages) :
    (key, value) ∈ m.body ↔ '.' ∉ key.toList ∧
      ∃ json, LastSetting settings (nameOf m.path key) json ∧ value = Value.ofJson json := by
  constructor
  · intro inside
    have undotted := h.undotted m member key (List.mem_map_of_mem inside)
    exact ⟨undotted, (h.holds m.path key value undotted).mp ⟨m, member, rfl, inside⟩⟩
  · rintro ⟨undotted, asked⟩
    obtain ⟨m', member', same, inside⟩ := (h.holds m.path key value undotted).mpr asked
    exact h.eq_of_path member' member same ▸ inside

theorem Conveys.mem_of_mem (h : Conveys settings messages) (h' : Conveys settings messages')
    {m : Message} (member : m ∈ messages) : m ∈ messages' := by
  obtain ⟨⟨key, value⟩, inside⟩ := List.exists_mem_of_ne_nil _ (h.some m member)
  obtain ⟨undotted, asked⟩ := (h.mem_body_iff member).mp inside
  obtain ⟨m', member', samePath, -⟩ := (h'.holds m.path key value undotted).mpr asked
  have sameBody : m'.body = m.body := by
    refine (h'.ordered m' member').eq_of_mem_iff (h.ordered m member) fun ⟨key, value⟩ => ?_
    rw [h'.mem_body_iff member', h.mem_body_iff member, samePath]
  have sameTicket : m'.ticket = m.ticket :=
    (h'.unticketed m' member').trans (h.unticketed m member).symm
  obtain ⟨path, ticket, body⟩ := m
  obtain ⟨path', ticket', body'⟩ := m'
  obtain rfl : path' = path := samePath
  obtain rfl : ticket' = ticket := sameTicket
  obtain rfl : body' = body := sameBody
  exact member'

/-- There is a message with a key if there is a setting of that name. -/
theorem Conveys.exists_key_iff (h : Conveys settings messages) (undotted : '.' ∉ key.toList) :
    (∃ m ∈ messages, m.path = path ∧ key ∈ Table.keys m.body) ↔
      nameOf path key ∈ settings.map Prod.fst := by
  rw [← exists_lastSetting_iff]
  constructor
  · rintro ⟨m, member, same, inside⟩
    obtain ⟨⟨_, value⟩, entry, rfl⟩ := List.mem_map.mp inside
    obtain ⟨json, last, -⟩ := (h.holds path _ value undotted).mp ⟨m, member, same, entry⟩
    exact ⟨json, last⟩
  · rintro ⟨json, last⟩
    obtain ⟨m, member, same, entry⟩ := (h.holds path key _ undotted).mpr ⟨json, last, rfl⟩
    exact ⟨m, member, same, List.mem_map_of_mem entry⟩

/-- Only one list of messages holds what the settings ask for. -/
theorem Conveys.unique (h : Conveys settings messages) (h' : Conveys settings messages') :
    messages = messages' := by
  have asymm : Std.Asymm fun a b : Message => a.path < b.path :=
    ⟨fun a b => Std.Asymm.asymm a.path b.path⟩
  exact List.Pairwise.eq_of_mem_iff (List.pairwise_map.mp h.paths) (List.pairwise_map.mp h'.paths)
    fun m => ⟨h.mem_of_mem h', h'.mem_of_mem h⟩

/-- What the messages hold depends on the last settings only. -/
theorem Conveys.congr (h : Conveys settings messages)
    (same : ∀ path key json, '.' ∉ key.toList → (LastSetting settings (nameOf path key) json ↔
      LastSetting settings' (nameOf path key) json)) : Conveys settings' messages where
  paths := h.paths
  unticketed := h.unticketed
  ordered := h.ordered
  some := h.some
  undotted := h.undotted
  holds path key value undotted := by
    rw [h.holds path key value undotted]
    exact exists_congr fun json => and_congr_left' (same path key json undotted)

/-! ## What messages do hold -/

/-- Where a setting goes, if its name has a path: under which path, and as which entry there. -/
def placed? (setting : String × Json) : Option (String × (String × Value)) :=
  (splitName? setting.1).map fun parts => (parts.1, (parts.2, Value.ofJson setting.2))

/-- The entries that come under a path, in the order of their settings. -/
def entriesUnder (path : String) (settings : List (String × Json)) : List (String × Value) :=
  ((settings.filterMap placed?).filter (·.1 = path)).map Prod.snd

theorem foldl_addSetting (settings : List (String × Json)) : settings.foldl addSetting [] =
    Table.gathered (fun body entry => Table.put entry.1 entry.2 (body.getD []))
      (settings.filterMap placed?) := by
  rw [Table.gathered, List.foldl_filterMap]
  congr 1
  funext bodies setting
  unfold addSetting placed?
  cases splitName? setting.1 <;> rfl

theorem foldl_put (entries : List (String × Value)) :
    entries.foldl (fun body entry => some (Table.put entry.1 entry.2 (body.getD []))) none =
      if entries = [] then none else some (Table.ofList entries) := by
  induction entries using List.reverseRecOn with
  | nil => rfl
  | append_singleton entries entry ih =>
    rw [List.foldl_append, ih, Table.ofList_concat]
    by_cases none : entries = []
    · subst none
      rfl
    · simp [none]

theorem mem_messagesToSend_iff {m : Message} : m ∈ messagesToSend settings ↔
    m.ticket = none ∧ entriesUnder m.path settings ≠ [] ∧
      m.body = Table.ofList (entriesUnder m.path settings) := by
  have body (path : String) (body : Table String Value) :
      (path, body) ∈ settings.foldl addSetting [] ↔
        entriesUnder path settings ≠ [] ∧ body = Table.ofList (entriesUnder path settings) := by
    rw [foldl_addSetting, Table.mem_iff_get? (Table.ordered_gathered ..), Table.get?_gathered,
      foldl_put]
    show (if entriesUnder path settings = [] then none else _) = some body ↔ _
    by_cases none : entriesUnder path settings = []
    · simp [none]
    · rw [if_neg none, Option.some.injEq, and_iff_right none]
      exact eq_comm
  rw [messagesToSend, List.mem_map]
  constructor
  · rintro ⟨⟨path, found⟩, inside, rfl⟩
    exact ⟨rfl, (body path found).mp inside⟩
  · obtain ⟨path, ticket, found⟩ := m
    rintro ⟨rfl, inside⟩
    exact ⟨(path, found), (body path found).mpr inside, rfl⟩

/-- The entries of one key under a path are the settings of one name. -/
theorem filter_entriesUnder (undotted : '.' ∉ key.toList) (settings : List (String × Json)) :
    (entriesUnder path settings).filter (·.1 = key) =
      (settings.filter (·.1 = nameOf path key)).map fun setting =>
        (key, Value.ofJson setting.2) := by
  induction settings with
  | nil => rfl
  | cons setting rest ih =>
    unfold entriesUnder at ih ⊢
    by_cases named : setting.1 = nameOf path key
    · have placed : placed? setting = some (path, (key, Value.ofJson setting.2)) := by
        rw [placed?, named, splitName?_nameOf path undotted]
        rfl
      simpa [List.filterMap_cons, placed, named] using ih
    · rw [List.filter_cons_of_neg (by simpa using named), ← ih, List.filterMap_cons]
      cases placed : placed? setting with
      | none => rfl
      | some entry =>
        obtain ⟨parts, split, rfl⟩ := Option.map_eq_some_iff.mp placed
        obtain ⟨named', -⟩ := of_splitName? split
        by_cases samePath : parts.1 = path
        · have otherKey : parts.2 ≠ key := by
            rintro rfl
            exact named (samePath ▸ named')
          simp [samePath, otherKey]
        · simp [samePath]

theorem mem_ofList_entriesUnder_iff (undotted : '.' ∉ key.toList) :
    (key, value) ∈ Table.ofList (entriesUnder path settings) ↔
      ∃ json, LastSetting settings (nameOf path key) json ∧ value = Value.ofJson json := by
  rw [Table.mem_iff_get? (Table.ordered_ofList _), Table.get?_ofList, filter_entriesUnder undotted,
    List.getLast?_map, Option.map_map, Option.map_eq_some_iff]
  simp only [lastSetting_iff, Option.map_eq_some_iff]
  constructor
  · rintro ⟨setting, last, rfl⟩
    exact ⟨setting.2, ⟨setting, last, rfl⟩, rfl⟩
  · rintro ⟨-, ⟨setting, last, rfl⟩, rfl⟩
    exact ⟨setting, last, rfl⟩

theorem undotted_of_mem_entriesUnder {entry : String × Value}
    (member : entry ∈ entriesUnder path settings) : '.' ∉ entry.1.toList := by
  obtain ⟨placed, inside, rfl⟩ := List.mem_map.mp member
  obtain ⟨setting, -, here⟩ := List.mem_filterMap.mp (List.mem_of_mem_filter inside)
  obtain ⟨parts, split, rfl⟩ := Option.map_eq_some_iff.mp here
  exact (of_splitName? split).2

theorem conveys_messagesToSend (settings : List (String × Json)) :
    Conveys settings (messagesToSend settings) where
  paths := by
    have ordered := Table.ordered_gathered (fun body entry =>
      Table.put entry.1 entry.2 (body.getD [])) (settings.filterMap placed?)
    rw [← foldl_addSetting] at ordered
    rw [messagesToSend, List.map_map]
    exact ordered
  unticketed m member := (mem_messagesToSend_iff.mp member).1
  ordered m member := by
    rw [(mem_messagesToSend_iff.mp member).2.2]
    exact Table.ordered_ofList _
  some m member := by
    obtain ⟨-, some, body⟩ := mem_messagesToSend_iff.mp member
    obtain ⟨entry, inside⟩ := List.exists_mem_of_ne_nil _ some
    have key : entry.1 ∈ Table.keys m.body := by
      rw [body, Table.mem_keys_ofList_iff]
      exact List.mem_map_of_mem inside
    exact List.ne_nil_of_mem (List.mem_map.mp key).choose_spec.1
  undotted m member key holds := by
    obtain ⟨-, -, body⟩ := mem_messagesToSend_iff.mp member
    rw [body, Table.mem_keys_ofList_iff, List.mem_map] at holds
    obtain ⟨entry, inside, rfl⟩ := holds
    exact undotted_of_mem_entriesUnder inside
  holds path key value undotted := by
    rw [← mem_ofList_entriesUnder_iff undotted]
    constructor
    · rintro ⟨m, member, rfl, inside⟩
      exact (mem_messagesToSend_iff.mp member).2.2 ▸ inside
    · intro inside
      have some : entriesUnder path settings ≠ [] := by
        intro none
        rw [none] at inside
        cases inside
      exact ⟨⟨path, none, _⟩, mem_messagesToSend_iff.mpr ⟨rfl, some, rfl⟩, rfl, inside⟩

/-! ## What has no part in them -/

/-- Settings without a dot in their name are the last ones of no path and key. -/
theorem lastSetting_filter_iff {json : Json} (path key : String) :
    LastSetting (settings.filter fun setting => '.' ∈ setting.1.toList) (nameOf path key) json ↔
      LastSetting settings (nameOf path key) json := by
  have dotted : ∀ setting : String × Json,
      (decide (setting.1 = nameOf path key) && decide ('.' ∈ setting.1.toList)) =
        decide (setting.1 = nameOf path key) := by
    intro setting
    by_cases named : setting.1 = nameOf path key
    · simp [named, nameOf]
    · simp [named]
  rw [lastSetting_iff, lastSetting_iff, List.filter_filter]
  simp only [dotted]

/-- Where the names of settings are distinct, each setting is the last one of its name. -/
theorem lastSetting_iff_mem {json : Json} (distinct : (settings.map Prod.fst).Nodup) :
    LastSetting settings name json ↔ (name, json) ∈ settings := by
  constructor
  · rintro ⟨before, after, rfl, -⟩
    simp
  · intro member
    obtain ⟨before, after, rfl⟩ := List.append_of_mem member
    refine ⟨before, after, rfl, fun later inside same => ?_⟩
    rw [List.map_append, List.map_cons] at distinct
    have twice := (List.nodup_cons.mp (List.nodup_append.mp distinct).2.1).1
    exact twice (List.mem_map.mpr ⟨later, inside, same⟩)

/-- The messages to send are the only ones that hold what the settings ask for: one for each path, in
order, and in it under each key the value of the last setting of that name. Every name with a dot has
one path and one key, and there is a message with them exactly if there is a setting of that name. The
settings of other names have no part in the messages, and neither has the order of settings of
different names. -/
theorem messagesToSend_spec (settings : List (String × Json)) :
    (∀ messages, Conveys settings messages ↔ messages = messagesToSend settings) ∧
      (∀ name : String, '.' ∈ name.toList → ∃! parts : String × String,
        name = nameOf parts.1 parts.2 ∧ '.' ∉ parts.2.toList) ∧
      (∀ path key : String, '.' ∉ key.toList →
        ((∃ m ∈ messagesToSend settings, m.path = path ∧ key ∈ Table.keys m.body) ↔
          nameOf path key ∈ settings.map Prod.fst)) ∧
      messagesToSend (settings.filter fun setting => '.' ∈ setting.1.toList) =
        messagesToSend settings ∧
      ∀ settings', settings'.Perm settings → (settings.map Prod.fst).Nodup →
        messagesToSend settings' = messagesToSend settings := by
  have conveys := conveys_messagesToSend settings
  refine ⟨fun messages => ⟨fun other => other.unique conveys, fun same => same ▸ conveys⟩,
    fun name => existsUnique_split, fun path key => conveys.exists_key_iff, ?_,
    fun settings' perm distinct => ?_⟩
  · refine Conveys.unique (conveys_messagesToSend _) (conveys.congr fun path key json _ => ?_)
    exact (lastSetting_filter_iff path key).symm
  · have distinct' : (settings'.map Prod.fst).Nodup := (perm.map Prod.fst).nodup_iff.mpr distinct
    refine Conveys.unique (conveys_messagesToSend _) (conveys.congr fun path key json _ => ?_)
    rw [lastSetting_iff_mem distinct, lastSetting_iff_mem distinct', perm.mem_iff]

/-- A path may have dots or be empty, as may a key be; the last value of a name counts. -/
example : messagesToSend [("a.b.c", .int 1), ("plain", .int 2), (".d", .int 3), ("a.b.", .int 4),
      ("a.b.c", .bool true)] =
    [⟨"", none, [("d", .int 3)]⟩, ⟨"a.b", none, [("", .int 4), ("c", .bool true)]⟩] := by
  cbv

end Telemetry.Admin
