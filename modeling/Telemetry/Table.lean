/-!
# Tables

A table is a list of keys with values in increasing order of the keys, each key once. It is what
message bodies, JSON objects and the store are made of, and it is shown in its order.
-/

namespace Telemetry

/-- Keys with values, in increasing order of the keys. -/
abbrev Table (κ α : Type) := List (κ × α)

namespace Table

variable {κ α : Type} [LT κ] [DecidableLT κ] [DecidableEq κ]

def put (key : κ) (value : α) : Table κ α → Table κ α
  | [] => [(key, value)]
  | (k, old) :: rest =>
    if key < k then (key, value) :: (k, old) :: rest
    else if k = key then (key, value) :: rest
    else (k, old) :: put key value rest

omit [LT κ] [DecidableLT κ] in
def get? (key : κ) : Table κ α → Option α
  | [] => none
  | (k, value) :: rest => if k = key then some value else get? key rest

/-- Sets the value of a key to what `f` makes of the value so far. -/
def alter (key : κ) (f : Option α → α) (t : Table κ α) : Table κ α := put key (f (get? key t)) t

/-- The table that setting keys in turn gives; of equal keys the last counts. -/
def ofList (entries : List (κ × α)) : Table κ α :=
  entries.foldl (fun t entry => put entry.1 entry.2 t) []

def keys {κ α : Type} (t : Table κ α) : List κ := t.map Prod.fst

end Table

end Telemetry
