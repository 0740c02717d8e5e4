import Rowflow.Toml.Basic

/-!
# Tables under construction

A table of a document grows while the document is read: by its header, by headers of tables within
it and by dotted keys. How a table came to be decides what may still be added to it.
-/

namespace Rowflow.Toml

/-- How a table came to be. -/
inductive Origin where
  /-- By its own header, or as the whole document. -/
  | header
  /-- As a part of the path in the header of another table. -/
  | path
  /-- As a part of a dotted key. -/
  | dotted
  deriving DecidableEq, Repr

/-- What stands under a key of a table under construction. -/
inductive Item where
  | value (value : Toml)
  | table (origin : Origin) (members : List (String × Item))
  /-- The elements of an array of tables, the last one first. -/
  | tables (elements : List (List (String × Item)))
  deriving Inhabited

/-- The members of a table under construction. -/
abbrev Draft := List (String × Item)

namespace Draft

/-- Replaces what stands under a key that is there, or appends it. -/
def put (d : Draft) (key : String) (item : Item) : Draft :=
  match d with
  | [] => [(key, item)]
  | (k, v) :: rest => if k = key then (k, item) :: rest else (k, v) :: put rest key item

/-- Appends a member whose key is new. -/
def append? (d : Draft) (key : String) (item : Item) : Option Draft :=
  if (d.lookup key).isSome then none else some (d ++ [(key, item)])

/-! ### Members -/

/-- Adds a value under a dotted key to a table of the given origin. Only tables that dotted keys
have made may be entered, and the last of them must be one. -/
def insert? (origin : Origin) (d : Draft) (path : List String) (key : String) (v : Toml)
    (isInner : Bool) : Option Draft :=
  match path with
  | [] => if isInner && origin ≠ .dotted then none else d.append? key (.value v)
  | name :: path =>
    match d.lookup name with
    | none => (insert? .dotted [] path key v true).map fun t => d.put name (.table .dotted t)
    | some (.table origin t) =>
      if origin = .header then none
      else (insert? origin t path key v true).map fun t => d.put name (.table origin t)
    | some (.tables (t :: ts)) =>
      (insert? .header t path key v true).map fun t => d.put name (.tables (t :: ts))
    | some _ => none

/-! ### Headers -/

/-- Changes the table at a path, entering tables and the last elements of arrays of tables; tables
that are missing on the way are made. -/
def modify? (f : Draft → Option Draft) (d : Draft) : List String → Option Draft
  | [] => f d
  | name :: path =>
    match d.lookup name with
    | none => (modify? f [] path).map fun t => d.put name (.table .path t)
    | some (.table origin t) => (modify? f t path).map fun t => d.put name (.table origin t)
    | some (.tables (t :: ts)) => (modify? f t path).map fun t => d.put name (.tables (t :: ts))
    | some _ => none

/-- The table at a path, if there is one. -/
def find? (d : Draft) : List String → Option Draft
  | [] => some d
  | name :: path =>
    match d.lookup name with
    | some (.table _ t) => find? t path
    | some (.tables (t :: _)) => find? t path
    | _ => none

/-- Starts the table of a header: what headers of tables within it have already put there is taken
out of the document. A table that has been started before is refused. -/
def start? (d : Draft) (path : List String) (key : String) : Option (Draft × Draft) :=
  match ((d.find? path).getD []).lookup key with
  | none => (d.modify? some path).map (·, [])
  | some (.table .path t) =>
    (d.modify? (fun p => some (p.filter (·.1 ≠ key))) path).map (·, t)
  | some _ => none

/-- Starts an element of the array of tables of a header. -/
def startElement? (d : Draft) (path : List String) (key : String) : Option Draft :=
  d.modify? (fun p =>
    match p.lookup key with
    | none => some (p.put key (.tables []))
    | some (.tables _) => some p
    | some _ => none) path

/-- Puts a finished table into the document. -/
def finish? (d : Draft) (path : List String) (key : String) (t : Draft) : Option Draft :=
  d.modify? (fun p => p.append? key (.table .header t)) path

/-- Puts a finished element into its array. -/
def finishElement? (d : Draft) (path : List String) (key : String) (t : Draft) : Option Draft :=
  d.modify? (fun p =>
    match p.lookup key with
    | some (.tables ts) => some (p.put key (.tables (t :: ts)))
    | _ => none) path

end Draft

/-! ### Values -/

mutual

/-- The value of what stands under a key. -/
def Item.toToml : Item → Toml
  | .value v => v
  | .table _ members => .table (membersToToml members)
  | .tables elements => .array (elementsToToml [] elements)

/-- The values of the members of a table. -/
def membersToToml : List (String × Item) → List (String × Toml)
  | [] => []
  | (k, item) :: rest => (k, item.toToml) :: membersToToml rest

/-- The values of elements, the last one first, before those that are given. -/
def elementsToToml (acc : List Toml) : List (List (String × Item)) → List Toml
  | [] => acc
  | members :: rest => elementsToToml (.table (membersToToml members) :: acc) rest

end

end Rowflow.Toml
