/-
**Tables of TOML.**

A table comes into being in one of three ways: under a header of its own, on the way to a deeper
header, or on the way along a dotted key.  A table may get one header; one that was only passed on
the way to a deeper header may still get its own, one that was made by a dotted key may not.  Dotted
keys may add to tables made by dotted keys only.  A header in double brackets adds one more table to
a list of tables, and later headers that pass the list go into its last table.

Main definitions:

* `Config.Toml.Node` — a part of a document that is still being put together;
* `Config.Toml.Pair`, `Config.Toml.insertPair?` — a value under a key, put into a table;
* `Config.Toml.Section`, `Config.Toml.addSection?` — the pairs under a header, put into a document;
* `Config.Toml.Node.toDoc` — the values of what was put together.
-/

import OrderedDispatch.Config.Doc

set_option relaxedAutoImplicit false
set_option autoImplicit false

namespace OrderedDispatch.Config.Toml

/-- How a table came into being: under a header of its own, on the way to a deeper header, or on the
way along a dotted key. -/
inductive Making where
  | header
  | passed
  | dotted
  deriving DecidableEq, Inhabited

/-- A part of a document that is still being put together.  A list of tables has its latest element
first. -/
inductive Node where
  | value (d : Doc)
  | table (making : Making) (entries : List (Key × Node))
  | tables (elements : List (List (Key × Node)))
  deriving Inhabited

/-- The entries of a table. -/
abbrev Nodes := List (Key × Node)

/-- A value, its key, and the keys before the last point. -/
structure Pair where
  path : List Key
  key : Key
  value : Doc

/-- A table with a pair put into it.  The flag tells whether the table was made by a dotted key, as
is right exactly when points are left behind. -/
def insertAlong? (value : Node) (key : Key) : List Key → Bool → Nodes → Option Nodes
  | [], dotted, entries =>
      if dotted then (if (Entries.get? key entries).isSome then none
        else some (Entries.put key value entries))
      else none
  | k :: path, _, entries =>
      match Entries.get? k entries with
      | none => (insertAlong? value key path true []).map fun es =>
          Entries.put k (.table .dotted es) entries
      | some (.table .header _) => none
      | some (.table making es) =>
          (insertAlong? value key path (making = .dotted) es).map fun es =>
            Entries.put k (.table making es) entries
      | some (.tables (last :: others)) =>
          (insertAlong? value key path false last).map fun es =>
            Entries.put k (.tables (es :: others)) entries
      | some _ => none

/-- A table with a pair put into it. -/
def insertPair? (p : Pair) (entries : Nodes) : Option Nodes :=
  insertAlong? (.value p.value) p.key p.path p.path.isEmpty entries

/-- A table with some pairs put into it, in order. -/
def insertPairs? (entries : Nodes) (pairs : List Pair) : Option Nodes :=
  pairs.foldlM (fun es p => insertPair? p es) entries

/-! ### Headers -/

/-- The pairs under a header: whether the header stands in double brackets, its key, and the
pairs. -/
structure Section where
  isElement : Bool
  path : List Key
  pairs : List Pair

/-- A document with the table at the end of a path changed; tables on the way are made if they are
missing. -/
def alterAt? (f : Nodes → Option Nodes) : List Key → Nodes → Option Nodes
  | [], entries => f entries
  | k :: path, entries =>
      match Entries.get? k entries with
      | none => (alterAt? f path []).map fun es => Entries.put k (.table .passed es) entries
      | some (.table making es) =>
          (alterAt? f path es).map fun es => Entries.put k (.table making es) entries
      | some (.tables (last :: others)) =>
          (alterAt? f path last).map fun es => Entries.put k (.tables (es :: others)) entries
      | some _ => none

/-- The table before the last key of a header, with the header's section put into it. -/
def putSection? (c : Section) (key : Key) (entries : Nodes) : Option Nodes :=
  if c.isElement then
    match Entries.get? key entries with
    | none => (insertPairs? [] c.pairs).map fun es => Entries.put key (.tables [es]) entries
    | some (.tables elements) =>
        (insertPairs? [] c.pairs).map fun es => Entries.put key (.tables (es :: elements)) entries
    | some _ => none
  else
    match Entries.get? key entries with
    | none => (insertPairs? [] c.pairs).map fun es => Entries.put key (.table .header es) entries
    | some (.table .passed old) =>
        (insertPairs? old c.pairs).map fun es => Entries.put key (.table .header es) entries
    | some _ => none

/-- A document with one more section. -/
def addSection? (entries : Nodes) (c : Section) : Option Nodes :=
  match c.path.getLast? with
  | none => none
  | some key => alterAt? (putSection? c key) c.path.dropLast entries

/-! ### Values -/

mutual

/-- The value of a part of a document. -/
def Node.toDoc : Node → Doc
  | .value d => d
  | .table _ entries => .table (entriesToDoc entries)
  | .tables elements => .list (elementsToDoc elements [])

/-- The values of the entries of a table. -/
def entriesToDoc : List (Key × Node) → List (Key × Doc)
  | [] => []
  | (k, n) :: rest => (k, n.toDoc) :: entriesToDoc rest

/-- The values of a list of tables, put before those that come later. -/
def elementsToDoc : List (List (Key × Node)) → List Doc → List Doc
  | [], acc => acc
  | entries :: rest, acc => elementsToDoc rest (.table (entriesToDoc entries) :: acc)

end

/-- The inline table of some pairs. -/
def ofPairs? (pairs : List Pair) : Option Doc :=
  (insertPairs? [] pairs).map fun es => .table (entriesToDoc es)

end OrderedDispatch.Config.Toml
