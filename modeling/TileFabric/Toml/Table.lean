import TileFabric.Toml

/-!
# Building TOML tables

The entries and headers of a document say piece by piece what is in a table. A table that a header
opens, or that stands in an array of tables, is `explicit`; one that is only on the way to another
is `implied` by a header or `dotted` by a key. A header may open an implied table, once; a dotted
key may go on with a dotted table but not enter an explicit one.
-/

set_option autoImplicit false

namespace TileFabric.Toml

inductive Opening where
  | explicit | implied | dotted
  deriving DecidableEq, Repr, Inhabited

/-- What a key of a table under construction leads to. -/
inductive Node where
  | value (value : Toml)
  | table (opening : Opening) (entries : List (String × Node))
  | tables (items : List (List (String × Node)))
  deriving Inhabited

abbrev Node.Entries := List (String × Node)

mutual

def Node.toToml : Node → Toml
  | .value plain => plain
  | .table _ entries => .table (Node.entriesToToml entries)
  | .tables items => .array (Node.itemsToToml items)

def Node.entriesToToml : List (String × Node) → List (String × Toml)
  | [] => []
  | (key, node) :: rest => (key, node.toToml) :: Node.entriesToToml rest

def Node.itemsToToml : List (List (String × Node)) → List Toml
  | [] => []
  | entries :: rest => .table (Node.entriesToToml entries) :: Node.itemsToToml rest

end

namespace Node.Entries

/-- Puts a node under a key, in the place of the one that was there. -/
def put (entries : Entries) (key : String) (node : Node) : Entries :=
  if (entries.lookup key).isSome then
    entries.map fun (k, old) => if k = key then (k, node) else (k, old)
  else entries ++ [(key, node)]

/-- How a path of keys is gone along: by a header or by a dotted key. -/
inductive Way where
  | header | key
  deriving DecidableEq, Repr, Inhabited

/-- How a table comes about that is only on the way. -/
def Way.opening : Way → Opening
  | .header => .implied
  | .key => .dotted

/--
Changes the table at the end of a path; tables that are not there yet come about. The way goes on
in the last table of an array of tables, and ends at a value.
-/
def along (way : Way) (change : Opening → Entries → Option Entries) :
    List String → Opening → Entries → Option Entries
  | [], opening, entries => change opening entries
  | key :: path, _, entries =>
    match entries.lookup key with
    | none => do
      let inner ← along way change path way.opening []
      some (entries.put key (.table way.opening inner))
    | some (.value _) => none
    | some (.tables items) => do
      let last ← items.getLast?
      let inner ← along way change path .explicit last
      some (entries.put key (.tables (items.dropLast ++ [inner])))
    | some (.table opening inner) =>
      if way = .key ∧ opening = .explicit then none
      else do
        let inner ← along way change path opening inner
        some (entries.put key (.table opening inner))

end Node.Entries

/-- A key with its value; a dotted key leads along a path to its last part. -/
structure Entry where
  path : List String
  key : String
  value : Toml

namespace Entry

/--
Adds an entry to a table. The key has to be new, and a table may get entries of its own by dotted
keys only if dotted keys have made it.
-/
def addTo (entries : Node.Entries) (entry : Entry) : Option Node.Entries :=
  let insert (opening : Opening) (entries : Node.Entries) : Option Node.Entries :=
    if (opening == .dotted) == entry.path.isEmpty then none
    else if (entries.lookup entry.key).isSome then none
    else some (entries ++ [(entry.key, .value entry.value)])
  Node.Entries.along .key insert entry.path .explicit entries

/-- A table that nothing but entries makes. -/
def toTable? (entries : List Entry) : Option Toml :=
  (entries.foldlM addTo []).map fun entries => .table (Node.entriesToToml entries)

end Entry

/-- A header with the entries under it. -/
structure Section where
  /-- Whether the header opens one more table of an array of tables. -/
  repeated : Bool
  path : List String
  key : String
  entries : List Entry

namespace Section

/-- Adds the table of a section to the top table. -/
def addTo (root : Node.Entries) (part : Section) : Option Node.Entries :=
  let fill (entries : Node.Entries) : Option Node.Entries := part.entries.foldlM Entry.addTo entries
  let openTable (entries : Node.Entries) : Option Node.Entries :=
    match part.repeated, entries.lookup part.key with
    | false, none => do some (entries.put part.key (.table .explicit (← fill [])))
    | false, some (.table .implied inner) => do
      some (entries.put part.key (.table .explicit (← fill inner)))
    | true, none => do some (entries.put part.key (.tables [← fill []]))
    | true, some (.tables items) => do some (entries.put part.key (.tables (items ++ [← fill []])))
    | _, _ => none
  Node.Entries.along .header (fun _ entries => openTable entries) part.path .explicit root

end Section

/-- The table of a document: the entries before the first header, then the sections. -/
def ofDocument? (entries : List Entry) (sections : List Section) : Option Toml := do
  let root ← entries.foldlM Entry.addTo []
  let root ← sections.foldlM Section.addTo root
  some (.table (Node.entriesToToml root))

end TileFabric.Toml
