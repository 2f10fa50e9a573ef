import Telemetry.Proofs.Json.Printing
import Telemetry.Proofs.Store.Eviction
/-!
# Security profiles survive in their file

Every profile is kept under the client that it is of, whatever is done to the store. So the file that
is saved names for each profile the client it is looked up by, and loading it into an empty store
gives the same profiles. Loading any file either takes in all that it lists, of which the last for a
client counts, or changes nothing.
-/

namespace Telemetry

open Json (Source)

/-! ## Profiles as JSON -/

namespace Security

theorem Authentication.ofName?_name (a : Authentication) : ofName? a.name = some a := by
  cases a with
  | none => rfl
  | some kind => cases kind <;> rfl

theorem Encryption.ofName?_name (e : Encryption) : ofName? e.name = some e := by
  cases e with
  | none => rfl
  | some cipher => cases cipher <;> rfl

/-- A profile is read back from its JSON, whichever passwords are left out. -/
theorem Profile.exists_source? (p : Profile) : ∃ source, p.toJson.source? = some source ∧
    ∀ room > 1, shape room source = .ok p := by
  obtain ⟨clientId, authentication, encryption, nonce, sharedKey, password⟩ := p
  have authenticated := Authentication.ofName?_name authentication
  have encrypted := Encryption.ofName?_name encryption
  cases sharedKey <;> cases password <;> refine ⟨_, rfl, fun room enough => ?_⟩
  all_goals
    simp [shape, Json.Shape.record, Json.Shape.readNamed, Json.Shape.Field.of, Json.Shape.text,
      Json.Shape.nameOf, Json.Shape.optional, authenticated, encrypted, Except.map,
      Nat.not_le_of_lt enough]

end Security

theorem Json.Shape.mapM_eq_ok_iff {α β ε : Type} {read : α → Except ε β} {as : List α}
    {bs : List β} : as.mapM read = .ok bs ↔ List.Forall₂ (fun a b => read a = .ok b) as bs := by
  induction as generalizing bs with
  | nil => cases bs <;> simp [pure, Except.pure]
  | cons a rest ih =>
    rw [List.mapM_cons]
    cases first : read a with
    | error fault => cases bs <;> simp [bind, Except.bind, first]
    | ok b =>
      cases others : rest.mapM read with
      | error fault => cases bs <;> simp [bind, Except.bind, ← ih, others, first]
      | ok more => cases bs <;> simp [bind, Except.bind, pure, Except.pure, ← ih, others, first]

namespace Store

open Security (Profile)

variable {s : Store} {client : String} {content : String} {profiles : List Profile}

/-! ## What a file lists -/

/-- A file lists profiles when all of it is one array, whose items are these profiles in turn. -/
def ProfileFile.Lists : ProfileFile → List Profile → Prop
  | text content, profiles => ∃ items rest, Source.read content = (.array items, some rest) ∧
      Source.skipBlank rest = [] ∧
      List.Forall₂ (fun item p => Profile.shape (Json.maxNesting - 1) item = .ok p) items profiles
  | missing, _ | directory, _ => False

theorem list_eq_ok_iff {source : Source} : Profile.shape.list Json.maxNesting source = .ok profiles ↔
    ∃ items, source = .array items ∧
      List.Forall₂ (fun item p => Profile.shape (Json.maxNesting - 1) item = .ok p) items profiles := by
  cases source with
  | array items =>
    have room : ¬ Json.maxNesting ≤ 1 := by decide
    rw [Json.Shape.list, if_neg room, Json.Shape.mapM_eq_ok_iff]
    simp
  | _ => simp [Json.Shape.list]

theorem profilesOf?_eq_some_iff :
    profilesOf? content = some profiles ↔ (ProfileFile.text content).Lists profiles := by
  rw [profilesOf?, Json.Shape.readAll, ProfileFile.Lists]
  rcases Source.read content with ⟨source, rest?⟩
  dsimp only
  constructor
  · intro parsed
    cases listed : Profile.shape.list Json.maxNesting source with
    | error => simp [listed, Except.toOption] at parsed
    | ok value =>
      rw [listed] at parsed
      cases rest? with
      | none => cases parsed
      | some rest =>
        by_cases blank : (Source.skipBlank rest).isEmpty
        · dsimp only at parsed
          rw [if_pos blank] at parsed
          cases parsed
          obtain ⟨items, rfl, reads⟩ := list_eq_ok_iff.mp listed
          exact ⟨items, rest, rfl, List.isEmpty_iff.mp blank, reads⟩
        · dsimp only at parsed
          rw [if_neg blank] at parsed
          cases parsed
  · rintro ⟨items, rest, same, blank, reads⟩
    cases same
    rw [list_eq_ok_iff.mpr ⟨items, rfl, reads⟩]
    dsimp only
    rw [if_pos (List.isEmpty_iff.mpr blank)]
    rfl

/-- The file that is saved lists the profiles in the order of the table. -/
theorem lists_profilesText (s : Store) :
    (ProfileFile.text s.profilesText).Lists (s.profiles.map Prod.snd) := by
  have trees (profiles : List Profile) : ∃ sources,
      Json.itemSources? (profiles.map Profile.toJson) = some sources ∧
        List.Forall₂ (fun source p => Profile.shape (Json.maxNesting - 1) source = .ok p) sources
          profiles := by
    induction profiles with
    | nil => exact ⟨[], rfl, .nil⟩
    | cons p rest ih =>
      obtain ⟨source, one, read⟩ := p.exists_source?
      obtain ⟨sources, more, reads⟩ := ih
      refine ⟨source :: sources, ?_, .cons (read _ (by decide)) reads⟩
      rw [List.map_cons, Json.itemSources?, one, more]
      rfl
  obtain ⟨sources, tree, reads⟩ := trees (s.profiles.map Prod.snd)
  refine ⟨sources, [], Source.read_pretty ?_, rfl, reads⟩
  rw [List.map_map] at tree
  rw [Json.source?]
  exact congrArg (Option.map Source.array) tree

/-! ## Profiles are kept under their clients -/

/-- Profiles are a table, each under the client that it is of. -/
structure Filed (s : Store) : Prop where
  ordered : Table.Ordered s.profiles
  own : ∀ entry ∈ s.profiles, entry.2.clientId = entry.1

namespace Filed

theorem congr {s' : Store} (h : s.Filed) (same : s'.profiles = s.profiles) : s'.Filed :=
  ⟨same ▸ h.ordered, same ▸ h.own⟩

theorem addProfile (h : s.Filed) (p : Profile) : (s.addProfile p).Filed where
  ordered := h.ordered.put
  own entry member := by
    rcases Table.mem_put member with rfl | member
    · rfl
    · exact h.own entry member

theorem foldl_addProfile (h : s.Filed) (profiles : List Profile) :
    (profiles.foldl Store.addProfile s).Filed := by
  induction profiles generalizing s with
  | nil => exact h
  | cons p rest ih => exact ih (h.addProfile p)

theorem clientId (h : s.Filed) {p : Profile} (stored : s.profile? client = some p) :
    p.clientId = client :=
  h.own (client, p) (Table.mem_of_get? stored)

/-- A profile is changed where it is, so a change that keeps the client adds it in place of the old. -/
theorem updateProfile (h : s.Filed) {f : Profile → Profile}
    (kept : ∀ p, (f p).clientId = p.clientId) : (s.updateProfile client f).Filed := by
  unfold Store.updateProfile
  split
  · rename_i p stored
    have under : p.clientId = client := h.clientId stored
    have again : { s with profiles := Table.put client (f p) s.profiles } = s.addProfile (f p) := by
      rw [Store.addProfile, kept, under]
    rw [again]
    exact h.addProfile (f p)
  · exact h

theorem load (h : s.Filed) {file : Option ProfileFile} {count : Nat} {loaded : Store}
    (loads : s.load file = .ok (count, loaded)) : loaded.Filed := by
  unfold Store.load at loads
  split at loads
  · cases loads
    exact h
  · cases loads
    exact h
  · cases loads
  · split at loads
    · cases loads
      exact h.foldl_addProfile _
    · cases loads

theorem apply (h : s.Filed) (op : Operation) : (op.apply s).Filed := by
  cases op with
  | receive | enqueue => exact h.congr rfl
  | dequeue client => exact h.congr (profiles_dequeue s client)
  | addProfile p => exact h.addProfile p
  | setNonce | setPassword => exact h.updateProfile fun _ => rfl
  | load file =>
    rw [Operation.apply]
    cases loads : s.load file with
    | ok loaded => exact h.load loads
    | error => exact h

end Filed

theorem filed_afterAll (capacity : Nat) (operations : List Operation) :
    (afterAll capacity operations).Filed := by
  induction operations using List.reverseRecOn with
  | nil => exact ⟨List.Pairwise.nil, fun _ member => by cases member⟩
  | append_singleton operations op ih =>
    rw [afterAll_concat]
    exact ih.apply op

/-! ## Taking in what a file lists -/

/-- Adding profiles changes the profiles only. -/
theorem foldl_addProfile (s : Store) (profiles : List Profile) : profiles.foldl addProfile s =
    { s with
      profiles := profiles.foldl (fun t p => Table.put p.clientId p t) s.profiles } := by
  induction profiles generalizing s with
  | nil => rfl
  | cons p rest ih => exact ih (s.addProfile p)

/-- The last of the profiles that are added for a client takes the place of the old one. -/
theorem profile?_foldl_addProfile (s : Store) (profiles : List Profile) (client : String) :
    (profiles.foldl addProfile s).profile? client =
      (profiles.filter (·.clientId = client)).getLast?.or (s.profile? client) := by
  induction profiles using List.reverseRecOn with
  | nil => rfl
  | append_singleton profiles p ih =>
    rw [List.foldl_append, List.foldl_cons, List.foldl_nil, List.filter_append]
    by_cases same : p.clientId = client
    · subst same
      simp [addProfile, profile?, Table.get?_put_self]
    · rw [profile?, addProfile, Table.get?_put_of_ne same, ← profile?, ih]
      simp [same]

/-- Profiles that are each kept under their client give the same table again. -/
theorem Filed.foldl_addProfile_empty (h : s.Filed) (capacity : Nat) :
    (s.profiles.map Prod.snd).foldl Store.addProfile { capacity } =
      { capacity, profiles := s.profiles } := by
  have again : (s.profiles.map Prod.snd).foldl (fun t p => Table.put p.clientId p t) [] =
      Table.ofList s.profiles := by
    rw [List.foldl_map, Table.ofList]
    refine List.foldl_ext _ _ _ fun t entry member => ?_
    rw [h.own entry member]
  rw [Store.foldl_addProfile]
  exact congrArg (fun profiles => ({ capacity, profiles } : Store))
    (again.trans h.ordered.ofList_eq)

/-! ## Saving and loading -/

/-- Security profiles survive in their file, and a bad file changes nothing. However a store came
about, every profile in it is kept under the client that it is of, and the file that is saved gives
an empty store the same profiles. A file that lists profiles puts the last one listed for a client
in place of the old one and changes nothing else. Any other file that is there is refused, and the
store stays as it is. -/
theorem profiles_survive (capacity : Nat) (operations : List Operation) :
    let s := afterAll capacity operations
    (∀ client p, s.profile? client = some p → p.clientId = client) ∧
    (∀ old ≠ ProfileFile.directory, ∃ file, s.save (some old) = .ok (some file) ∧
      ∀ capacity, load { capacity } (some file) =
        .ok (s.profiles.length, { capacity, profiles := s.profiles })) ∧
    (∀ file profiles, file.Lists profiles → ∃ loaded,
      s.load (some file) = .ok (profiles.length, loaded) ∧
      loaded = { s with profiles := loaded.profiles } ∧
      ∀ client, loaded.profile? client =
        (profiles.filter (·.clientId = client)).getLast?.or (s.profile? client)) ∧
    ∀ file ≠ ProfileFile.missing, (¬ ∃ profiles, file.Lists profiles) →
      (∃ fault, s.load (some file) = .error fault) ∧ (Operation.load (some file)).apply s = s := by
  intro s
  have filed : s.Filed := filed_afterAll capacity operations
  have loads {s : Store} {file : ProfileFile} {profiles : List Profile}
      (lists : file.Lists profiles) :
      s.load (some file) = .ok (profiles.length, profiles.foldl addProfile s) := by
    cases file with
    | text content => rw [load, profilesOf?_eq_some_iff.mpr lists]
    | missing | directory => cases lists
  refine ⟨fun client p => filed.clientId, fun old isFile => ?_, fun file profiles lists => ?_,
    fun file there bad => ?_⟩
  · refine ⟨.text s.profilesText, ?_, fun capacity => ?_⟩
    · cases old with
      | missing | text => rfl
      | directory => exact absurd rfl isFile
    · rw [loads (lists_profilesText s), filed.foldl_addProfile_empty, List.length_map]
  · refine ⟨_, loads lists, ?_, profile?_foldl_addProfile s profiles⟩
    rw [foldl_addProfile]
  · have refused : ∃ fault, s.load (some file) = .error fault := by
      cases file with
      | missing => exact absurd rfl there
      | directory => exact ⟨.inaccessible, rfl⟩
      | text content =>
        refine ⟨.malformed, ?_⟩
        cases parsed : profilesOf? content with
        | none => rw [load, parsed]
        | some profiles => exact absurd ⟨profiles, profilesOf?_eq_some_iff.mp parsed⟩ bad
    obtain ⟨fault, fails⟩ := refused
    refine ⟨⟨fault, fails⟩, ?_⟩
    rw [Operation.apply, fails]

/-- Of two profiles for one client the later counts, and the other client keeps its own. -/
example :
    let s := Store.addProfile { capacity := 1 } (.unsecured "pump")
    let file := ProfileFile.text "[\x7b\"comm_id\": \"dev\", \"nonce\": \"1\"\x7d, [\"dev\"]]"
    (s.load (some file)).map (fun (count, loaded) => (count, loaded.profiles)) =
      .ok (2, [("dev", ⟨"dev", none, none, "", none, none⟩), ("pump", .unsecured "pump")]) := by
  cbv

end Store

end Telemetry
