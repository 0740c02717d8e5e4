/-!
# Tables with text keys

A table is a list of keys with their values in ascending order of the keys, each key once. Putting a
value under a key that is there already replaces the value.
-/

namespace Rowflow

/-- Puts an entry into an ascending list, in the place of one with the same key. -/
def insertEntry {α : Type} (k : String) (v : α) : List (String × α) → List (String × α)
  | [] => [(k, v)]
  | (k', v') :: rest =>
    if k = k' then (k, v) :: rest
    else if k < k' then (k, v) :: (k', v') :: rest
    else (k', v') :: insertEntry k v rest

/-- Entries in ascending order of their keys; of two with one key the later counts. -/
def sortEntries {α : Type} (entries : List (String × α)) : List (String × α) :=
  entries.foldl (fun sorted (k, v) => insertEntry k v sorted) []

/-- A finite map from texts. -/
structure Table (α : Type) where
  entries : List (String × α) := []
  deriving Inhabited

namespace Table

variable {α : Type}

/-- The table without entries. -/
def empty : Table α := ⟨[]⟩

/-- The table of a list of entries; of two with one key the later counts. -/
def ofList (entries : List (String × α)) : Table α := ⟨sortEntries entries⟩

/-- The value under a key. -/
def find? (t : Table α) (k : String) : Option α := t.entries.lookup k

/-- Whether there is a value under a key. -/
def contains (t : Table α) (k : String) : Bool := (t.find? k).isSome

/-- Puts a value under a key. -/
def insert (t : Table α) (k : String) (v : α) : Table α := ⟨insertEntry k v t.entries⟩

/-- The keys in ascending order. -/
def keys (t : Table α) : List String := t.entries.map (·.1)

/-- The number of entries. -/
def size (t : Table α) : Nat := t.entries.length

/-- The table with all entries of another one put into it. -/
def union (t u : Table α) : Table α :=
  ⟨u.entries.foldl (fun sorted (k, v) => insertEntry k v sorted) t.entries⟩

end Table

end Rowflow
