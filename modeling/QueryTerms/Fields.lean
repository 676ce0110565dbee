/-! Named parts kept in ascending order of their keys, each key once. The order of strings is the order of
their code points, which is also the byte order of their UTF-8 forms. -/

namespace QueryTerms

/-- Entries of a map, in ascending order of the keys when built by `insert`. -/
abbrev Fields (α : Type) := List (String × α)

namespace Fields

/-- Puts a value under a key, replacing the value that was there. -/
def insert (key : String) (value : α) : Fields α → Fields α
  | [] => [(key, value)]
  | (k, v) :: rest =>
    if key < k then (key, value) :: (k, v) :: rest
    else if key = k then (key, value) :: rest
    else (k, v) :: insert key value rest

/-- The map with the given entries; of two entries with one key the later one stays. -/
def ofEntries (entries : List (String × α)) : Fields α :=
  entries.foldl (fun fields (key, value) => insert key value fields) []

/-- The entries in ascending order of their keys; those with equal keys keep their order. -/
def sorted (entries : List (String × α)) : List (String × α) :=
  entries.mergeSort fun a b => decide (a.1 ≤ b.1)

def get? (key : String) (fields : Fields α) : Option α :=
  fields.lookup key

def contains (key : String) (fields : Fields α) : Bool :=
  fields.any fun (k, _) => k == key

def keys (fields : Fields α) : List String :=
  fields.map Prod.fst

def mapValues (f : α → β) (fields : Fields α) : Fields β :=
  fields.map fun (key, value) => (key, f value)

end Fields

end QueryTerms
