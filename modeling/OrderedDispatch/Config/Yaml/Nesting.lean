/-
**How large a node of YAML is.**

Readers of YAML guard against texts that are small and spell something enormous.  Lists and tables
may be nested only so deep, and an alias counts for all that it repeats.  Nor may aliases be
followed too often, seen in proportion to the text: a text of ten lines can repeat its first line a
thousand million times.

A node carries its extent with it, so that neither has to be counted in the value itself.

Main definitions:

* `Config.Doc.NestedAtMost` — lists and tables are nested at most so deep;
* `Config.Yaml.Extent`, `Config.Yaml.Extent.isAllowed` — the extent of a node, and whether a whole
  document may have it;
* `Config.Yaml.Node` — a value with its extent, and its text if it may be a key;
* `Config.Yaml.Node.ofItems`, `Config.Yaml.Node.ofEntries` — a list and a table of nodes.

Main results:

* `Config.Yaml.Node.nested_of_isAllowed` — what may be read is nested at most `maxDepth` deep.
-/

import OrderedDispatch.Config.Doc

set_option relaxedAutoImplicit false
set_option autoImplicit false

namespace OrderedDispatch.Config

/-! ### Nested values -/

/-- Lists and tables are nested at most so deep in a value. -/
def Doc.NestedAtMost : Nat → Doc → Prop
  | _, .scalar _ => True
  | 0, _ => False
  | n + 1, .list items => ∀ d ∈ items, d.NestedAtMost n
  | n + 1, .table entries => ∀ e ∈ entries, e.2.NestedAtMost n

namespace Doc.NestedAtMost

theorem scalar (n : Nat) (s : Scalar) : (Doc.scalar s).NestedAtMost n := by
  cases n <;> exact trivial

theorem mono {m n : Nat} {d : Doc} (h : d.NestedAtMost m) (hle : m ≤ n) : d.NestedAtMost n := by
  induction m generalizing d n with
  | zero =>
      cases d with
      | scalar s => exact scalar n s
      | list items => exact h.elim
      | table entries => exact h.elim
  | succ m ih =>
      obtain ⟨n, rfl⟩ := Nat.exists_eq_add_one_of_ne_zero (Nat.ne_zero_of_lt hle)
      have hle := Nat.le_of_succ_le_succ hle
      cases d with
      | scalar s => exact scalar _ s
      | list items => exact fun d hd => ih (h d hd) hle
      | table entries => exact fun e he => ih (h e he) hle

end Doc.NestedAtMost

/-- What holds of all entries of a table and of one that is put into it holds of all entries
then. -/
theorem Entries.forall_put {α : Type} {P : Key × α → Prop} {entries : List (Key × α)} {key : Key}
    {value : α} (h : ∀ e ∈ entries, P e) (hnew : P (key, value)) :
    ∀ e ∈ Entries.put key value entries, P e := by
  induction entries with
  | nil => simpa [put] using hnew
  | cons e rest ih =>
      obtain ⟨hfirst, hrest⟩ := List.forall_mem_cons.1 h
      rw [put]
      split
      · exact List.forall_mem_cons.2 ⟨hnew, hrest⟩
      · split
        · exact List.forall_mem_cons.2 ⟨hnew, h⟩
        · exact List.forall_mem_cons.2 ⟨hfirst, ih hrest⟩

namespace Yaml

/-! ### The extent of a node -/

/-- How large a node is. -/
structure Extent where
  /-- how deep lists and tables are nested in it, in what its aliases repeat too -/
  depth : Nat := 0
  /-- the parts it is written with: one for a scalar or an alias, two for what encloses others -/
  parts : Nat := 1
  /-- how often an alias is followed in it, in what its aliases repeat too -/
  jumps : Nat := 0
  deriving DecidableEq, Inhabited

namespace Extent

/-- The depth of the deepest of some nodes. -/
def deepest (es : List Extent) : Nat := es.foldr (fun e depth => max e.depth depth) 0

theorem depth_le_deepest {es : List Extent} {e : Extent} (h : e ∈ es) : e.depth ≤ deepest es := by
  induction es with
  | nil => cases h
  | cons e' es ih =>
      simp only [deepest, List.foldr_cons] at ih ⊢
      rcases List.mem_cons.1 h with rfl | h
      · exact Nat.le_max_left _ _
      · exact Nat.le_trans (ih h) (Nat.le_max_right _ _)

/-- The extent of what encloses some nodes. -/
def around (es : List Extent) : Extent where
  depth := deepest es + 1
  parts := es.foldr (fun e parts => e.parts + parts) 2
  jumps := es.foldr (fun e jumps => e.jumps + jumps) 0

/-- The extent of an alias of a node. -/
def aliased (e : Extent) : Extent := { depth := e.depth, jumps := e.jumps + 1 }

end Extent

/-- How deep lists and tables may be nested in a document. -/
def maxDepth : Nat := 128

/-- How often aliases may be followed for each part of a document. -/
def maxJumps : Nat := 100

/-- Whether a document may be so large. -/
def Extent.isAllowed (e : Extent) : Bool := e.depth ≤ maxDepth && e.jumps ≤ maxJumps * e.parts

/-! ### Nodes -/

/-- A value with its extent, and its text if it may be a key. -/
structure Node where
  doc : Doc
  key : Option Key := none
  extent : Extent
  /-- the extent tells how deep the value is nested -/
  nested : doc.NestedAtMost extent.depth

namespace Node

/-- A scalar. -/
def ofScalar (s : Scalar) (text : List Char) : Node where
  doc := .scalar s
  key := some text
  extent := {}
  nested := trivial

/-- The node where nothing stands. -/
def empty : Node := ofScalar .null []

instance : Inhabited Node := ⟨empty⟩

/-- The node that an alias of a node is. -/
def aliased (n : Node) : Node := { n with extent := n.extent.aliased, nested := n.nested }

/-- Whether a node is an alias: nothing else has one part and follows an alias. -/
def isAlias (n : Node) : Bool := n.extent.parts = 1 && 0 < n.extent.jumps

/-- A list. -/
def ofItems (items : List Node) : Node where
  doc := .list (items.map Node.doc)
  extent := .around (items.map Node.extent)
  nested := by
    intro d hd
    obtain ⟨n, hn, rfl⟩ := List.mem_map.1 hd
    exact n.nested.mono (Extent.depth_le_deepest (List.mem_map_of_mem hn))

end Node

/-- An entry of a table as it is written. -/
structure Entry where
  key : Key
  /-- the extent of the node that is the key -/
  keyExtent : Extent := {}
  value : Node

/-- The extents of the nodes in some entries. -/
def Entry.extents (entries : List Entry) : List Extent :=
  entries.flatMap fun e => [e.keyExtent, e.value.extent]

/-- The values under their keys, given the entries from the latest on; a later value takes the place
of an earlier one. -/
def Entry.table (entries : List Entry) : List (Key × Doc) :=
  entries.foldr (fun e table => Entries.put e.key e.value.doc table) []

theorem Entry.nested_of_mem_table {entries : List Entry} :
    ∀ e ∈ Entry.table entries, e.2.NestedAtMost (Extent.deepest (Entry.extents entries)) := by
  -- the depth is kept general, for the entries are more than those that are in the table yet
  have h : ∀ (n : Nat) (es : List Entry), (∀ e ∈ es, e.value.doc.NestedAtMost n) →
      ∀ e ∈ Entry.table es, e.2.NestedAtMost n := by
    intro n es
    induction es with
    | nil => exact fun _ => nofun
    | cons e es ih =>
        intro hes
        obtain ⟨hfirst, hrest⟩ := List.forall_mem_cons.1 hes
        exact Entries.forall_put (ih hrest) hfirst
  refine h _ entries fun e he => e.value.nested.mono (Extent.depth_le_deepest ?_)
  exact List.mem_flatMap.2 ⟨e, he, by simp⟩

namespace Node

/-- A table, given its entries from the latest on. -/
def ofEntries (entries : List Entry) : Node where
  doc := .table (Entry.table entries)
  extent := .around (Entry.extents entries)
  nested := Entry.nested_of_mem_table

/-- What may be read is nested at most so deep. -/
theorem nested_of_isAllowed {n : Node} (h : n.extent.isAllowed = true) :
    n.doc.NestedAtMost maxDepth :=
  n.nested.mono (of_decide_eq_true (Bool.and_eq_true_iff.1 h).1)

end Node

end Yaml

end OrderedDispatch.Config
