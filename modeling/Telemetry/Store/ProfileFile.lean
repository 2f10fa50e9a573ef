import Telemetry.Store.Basic
/-!
# The file of security profiles

Profiles can be kept in a file: a JSON array, in the order of the clients. Loading adds those in the
file to the ones that are there; of two for one client the later counts. A file that is no list of
profiles changes nothing.
-/

namespace Telemetry

namespace Store

/-- What is found under the name of the file. -/
inductive ProfileFile where
  /-- Nothing is there. -/
  | missing
  /-- Something that is no file. -/
  | directory
  | text (content : String)
  deriving Repr, DecidableEq

inductive FileError where
  | inaccessible
  | malformed
  deriving Repr, DecidableEq

def profilesText (s : Store) : String :=
  (Json.array (s.profiles.map fun entry => entry.2.toJson)).pretty

def profilesOf? (content : String) : Option (List Security.Profile) :=
  (Json.Shape.readAll (.list Security.Profile.shape) content).toOption

/-- Adds the profiles of the file. Gives how many the file lists. A file that is not there, or that
the store is not set up to have, lists none. -/
def load (s : Store) (file : Option ProfileFile) : Except FileError (Nat × Store) :=
  match file with
  | none | some .missing => .ok (0, s)
  | some .directory => .error .inaccessible
  | some (.text content) =>
    match profilesOf? content with
    | some profiles => .ok (profiles.length, profiles.foldl addProfile s)
    | none => .error .malformed

/-- The file after saving, if the store is set up to have one. -/
def save (s : Store) (file : Option ProfileFile) : Except FileError (Option ProfileFile) :=
  match file with
  | none => .ok none
  | some .directory => .error .inaccessible
  | some _ => .ok (some (.text s.profilesText))

end Store

end Telemetry
