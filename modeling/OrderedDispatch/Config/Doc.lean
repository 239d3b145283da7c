/-
**Configuration values.**

Every source of settings, whatever its notation, says the same kind of thing: a tree of tables and
lists with plain values at the leaves.  Whole numbers remember whether their source counts them as
signed; messages tell the two apart.

Main definitions:

* `Config.Scalar`, `Config.Doc` — plain values and trees of them;
* `Config.Entries.put`, `Config.Entries.get?` — the entries of a table, one for each key, in the
  order of their keys.

Main results:

* `Config.Entries.get?_put_self`, `Config.Entries.get?_put_of_ne` — what a table holds after an
  entry was put into it.
-/

import OrderedDispatch.Number.Binary64

set_option relaxedAutoImplicit false
set_option autoImplicit false

namespace OrderedDispatch.Config

/-- A plain value.  A whole number keeps whether its source counts it as signed. -/
inductive Scalar where
  | null
  | bool (b : Bool)
  | int (signed : Bool) (n : Int)
  | float (x : Binary64)
  | text (s : List Char)
  deriving DecidableEq, Inhabited

/-- The key of a table's entry. -/
abbrev Key := List Char

/-- A tree of values.  A table holds at most one entry for each key, in the order of the keys. -/
inductive Doc where
  | scalar (s : Scalar)
  | list (items : List Doc)
  | table (entries : List (Key × Doc))
  deriving Inhabited

/-! ### Equality of values -/

-- `deriving` has no handler for trees that are nested in lists and pairs
mutual

/-- Whether two values are the same. -/
def Doc.decEq : (d d' : Doc) → Decidable (d = d')
  | .scalar s, .scalar s' => decidable_of_iff (s = s') (by rw [Doc.scalar.injEq])
  | .list items, .list items' =>
      match Doc.decEqItems items items' with
      | .isTrue h => .isTrue (congrArg Doc.list h)
      | .isFalse h => .isFalse fun heq => h (Doc.list.inj heq)
  | .table entries, .table entries' =>
      match Doc.decEqEntries entries entries' with
      | .isTrue h => .isTrue (congrArg Doc.table h)
      | .isFalse h => .isFalse fun heq => h (Doc.table.inj heq)
  | .scalar _, .list _ | .scalar _, .table _ => .isFalse nofun
  | .list _, .scalar _ | .list _, .table _ => .isFalse nofun
  | .table _, .scalar _ | .table _, .list _ => .isFalse nofun

/-- Whether two lists of values are the same. -/
def Doc.decEqItems : (items items' : List Doc) → Decidable (items = items')
  | [], [] => .isTrue rfl
  | [], _ :: _ | _ :: _, [] => .isFalse nofun
  | d :: items, d' :: items' =>
      match Doc.decEq d d', Doc.decEqItems items items' with
      | .isTrue h, .isTrue hrest => .isTrue (by rw [h, hrest])
      | .isFalse h, _ => .isFalse fun heq => h (List.cons.inj heq).1
      | _, .isFalse hrest => .isFalse fun heq => hrest (List.cons.inj heq).2

/-- Whether two tables have the same entries. -/
def Doc.decEqEntries : (entries entries' : List (Key × Doc)) → Decidable (entries = entries')
  | [], [] => .isTrue rfl
  | [], _ :: _ | _ :: _, [] => .isFalse nofun
  | (key, d) :: entries, (key', d') :: entries' =>
      if hkey : key = key' then
        match Doc.decEq d d', Doc.decEqEntries entries entries' with
        | .isTrue h, .isTrue hrest => .isTrue (by rw [hkey, h, hrest])
        | .isFalse h, _ => .isFalse fun heq => h (Prod.mk.inj (List.cons.inj heq).1).2
        | _, .isFalse hrest => .isFalse fun heq => hrest (List.cons.inj heq).2
      else .isFalse fun heq => hkey (Prod.mk.inj (List.cons.inj heq).1).1

end

instance : DecidableEq Doc := Doc.decEq

/-! ### The entries of a table -/

namespace Entries

variable {α : Type}

/-- Whether a key comes before another in the order of their characters. -/
def before : Key → Key → Bool
  | _, [] => false
  | [], _ :: _ => true
  | a :: s, b :: t => if a = b then before s t else a.toNat < b.toNat

/-- The value of a key. -/
def get? (key : Key) : List (Key × α) → Option α
  | [] => none
  | (k, v) :: rest => if k = key then some v else get? key rest

/-- The entries with the value of one key set.  A new key takes its place in the order of keys. -/
def put (key : Key) (value : α) : List (Key × α) → List (Key × α)
  | [] => [(key, value)]
  | (k, v) :: rest =>
      if k = key then (key, value) :: rest
      else if before key k then (key, value) :: (k, v) :: rest
      else (k, v) :: put key value rest

@[simp] theorem get?_put_self (key : Key) (value : α) (entries : List (Key × α)) :
    get? key (put key value entries) = some value := by
  induction entries with
  | nil => simp [put, get?]
  | cons e rest ih =>
      by_cases h : e.1 = key
      · simp [put, get?, h]
      · by_cases hb : before key e.1 <;> simp [put, get?, h, hb, ih]

theorem get?_put_of_ne {key other : Key} (h : other ≠ key) (value : α)
    (entries : List (Key × α)) : get? other (put key value entries) = get? other entries := by
  induction entries with
  | nil => simp [put, get?, Ne.symm h]
  | cons e rest ih =>
      by_cases hk : e.1 = key
      · simp [put, get?, hk, Ne.symm h]
      · by_cases hb : before key e.1
        · simp [put, get?, hk, hb, Ne.symm h]
        · simp [put, get?, hk, hb, ih]

end Entries

/-- A text as a document. -/
def Doc.ofText (s : List Char) : Doc := .scalar (.text s)

end OrderedDispatch.Config
