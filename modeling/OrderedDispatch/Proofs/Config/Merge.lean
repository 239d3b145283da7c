/-
**Looking a path up in layered values.**

Where two trees are laid over each other, a path is looked up in the higher one first, and what it
leads to there lies over what it leads to in the lower one.  This takes tables on the way: a plain
value in the place of a table hides everything below it, even keys that it says nothing about.

Along a way of tables the value of a whole stack is that of the highest tree that has one, unless
it is itself a table.

Main definitions:

* `Config.Tree.onto` — a value over what was there before, if anything was;
* `Config.Tree.isOpenAt` — only tables lie on the way along a path.

Main results:

* `Config.Tree.get?_mergeEntries` — looking one key up in layered entries;
* `Config.Tree.find?_merge` — looking a path up in one tree over another;
* `Config.Tree.find?_or_of_find?_merge`, `Config.Tree.exists_find?_merge`,
  `Config.Tree.find?_merge_of_high` — the values of two layered trees, whatever lies on the way to
  them;
* `Config.Tree.find?_foldl_merge` — **the value of a stack is that of the highest tree that has
  one**.
-/

import Mathlib.Data.List.Basic
import Mathlib.Data.List.Induction
import OrderedDispatch.Config.Tree

set_option relaxedAutoImplicit false
set_option autoImplicit false

namespace OrderedDispatch.Config.Tree

variable {low high t v : Tree} {path : List Key}

/-! ### One value over another -/

/-- A value over what was there before, if anything was. -/
def onto (low : Option Tree) (v : Tree) : Tree :=
  match low with
  | some old => merge old v
  | none => v

@[simp] theorem onto_none (v : Tree) : onto none v = v := rfl

@[simp] theorem onto_some (old v : Tree) : onto (some old) v = merge old v := rfl

theorem merge_table (ol oh : Origin) (el eh : List (Key × Tree)) :
    merge (.table ol el) (.table oh eh) = .table oh (mergeEntries el eh) := by
  rw [merge]
  rfl

/-- Unless both are tables, the higher of two trees hides the lower one. -/
theorem merge_eq_or_tables (low high : Tree) : merge low high = high ∨
    ∃ ol el oh eh, low = .table ol el ∧ high = .table oh eh := by
  cases high with
  | table oh eh =>
      cases low with
      | table ol el => exact .inr ⟨ol, el, oh, eh, rfl, rfl⟩
      | list ol items => exact .inl (by rw [merge]; rfl)
      | leaf ol x => exact .inl (by rw [merge]; rfl)
  | list oh items => exact .inl (merge_list low oh items)
  | leaf oh x => exact .inl (merge_leaf low oh x)

theorem merge_of_low_not_isTable (h : low.isTable = false) : merge low high = high := by
  rcases merge_eq_or_tables low high with hhides | ⟨ol, el, oh, eh, rfl, rfl⟩
  · exact hhides
  · cases h

theorem merge_of_not_isTable (h : high.isTable = false) : merge low high = high := by
  rcases merge_eq_or_tables low high with hhides | ⟨ol, el, oh, eh, rfl, rfl⟩
  · exact hhides
  · cases h

@[simp] theorem isTable_merge (low high : Tree) : (merge low high).isTable = high.isTable := by
  rcases merge_eq_or_tables low high with hhides | ⟨ol, el, oh, eh, rfl, rfl⟩
  · rw [hhides]
  · rw [merge_table]
    rfl

/-- What is no table comes through a merge unchanged or not at all. -/
theorem onto_eq_iff (hv : v.isTable = false) (o : Option Tree) (w : Tree) :
    onto o w = v ↔ w = v := by
  cases o with
  | none => rfl
  | some old =>
      rw [onto_some]
      constructor
      · rintro rfl
        rw [isTable_merge] at hv
        exact (merge_of_not_isTable hv).symm
      · rintro rfl
        exact merge_of_not_isTable hv

/-! ### Looking keys up -/

/-- A key is looked up in the higher entries first. -/
theorem get?_mergeEntries (key : Key) (low high : List (Key × Tree)) :
    Entries.get? key (mergeEntries low high) =
      (Entries.get? key high).elim (Entries.get? key low)
        fun v => some (onto (Entries.get? key low) v) := by
  induction high with
  | nil => rw [mergeEntries]; rfl
  | cons e rest ih =>
      obtain ⟨k, v⟩ := e
      rw [mergeEntries, Entries.get?]
      by_cases h : k = key
      · subst h
        rw [Entries.get?_put_self, if_pos rfl]
        rfl
      · rw [Entries.get?_put_of_ne (Ne.symm h), if_neg h, ih]

/-- Only tables lie on the way along a path, as far as the path leads anywhere. -/
def isOpenAt : List Key → Tree → Bool
  | [], _ => true
  | key :: path, .table _ es => (Entries.get? key es).all (isOpenAt path)
  | _ :: _, _ => false

theorem isOpenAt_cons {key : Key} (h : isOpenAt (key :: path) t = true) :
    ∃ o es, t = .table o es ∧ ∀ u, Entries.get? key es = some u → isOpenAt path u = true := by
  cases t with
  | table o es => exact ⟨o, es, rfl, by simpa [isOpenAt, Option.all_eq_true] using h⟩
  | list o items => simp [isOpenAt] at h
  | leaf o s => simp [isOpenAt] at h

/-- Two trees that are open along a path are open along it when one lies over the other. -/
theorem isOpenAt_merge (hl : isOpenAt path low = true) (hh : isOpenAt path high = true) :
    isOpenAt path (merge low high) = true := by
  induction path generalizing low high with
  | nil => rfl
  | cons key path ih =>
      obtain ⟨ol, el, rfl, hel⟩ := isOpenAt_cons hl
      obtain ⟨oh, eh, rfl, heh⟩ := isOpenAt_cons hh
      rw [merge_table, isOpenAt, get?_mergeEntries]
      cases hhigh : Entries.get? key eh with
      | none => simpa [isOpenAt] using hl
      | some v =>
          cases hlow : Entries.get? key el with
          | none => exact heh v hhigh
          | some old => exact ih (hel old hlow) (heh v hhigh)

/-- A path is looked up in the higher tree first, and its value there lies over the lower one. -/
theorem find?_merge (hl : isOpenAt path low = true) (hh : isOpenAt path high = true) :
    find? path (merge low high) =
      (find? path high).elim (find? path low) fun v => some (onto (find? path low) v) := by
  induction path generalizing low high with
  | nil => rfl
  | cons key path ih =>
      obtain ⟨ol, el, rfl, hel⟩ := isOpenAt_cons hl
      obtain ⟨oh, eh, rfl, heh⟩ := isOpenAt_cons hh
      rw [merge_table, find?, find?, find?, get?_mergeEntries]
      cases hhigh : Entries.get? key eh with
      | none => rfl
      | some v =>
          cases hlow : Entries.get? key el with
          | none => cases hv : find? path v <;> simp [hv]
          | some old => exact ih (hel old hlow) (heh v hhigh)

theorem isSome_find?_merge (hl : isOpenAt path low = true) (hh : isOpenAt path high = true) :
    (find? path (merge low high)).isSome =
      ((find? path high).isSome || (find? path low).isSome) := by
  rw [find?_merge hl hh]
  cases find? path high <;> rfl

/-! ### Plain values, wherever there are tables on the way -/

/-- What is no table and stands in one tree over another stands in one of the two. -/
theorem find?_or_of_find?_merge (hv : v.isTable = false)
    (h : find? path (merge low high) = some v) :
    find? path high = some v ∨ find? path low = some v := by
  induction path generalizing low high with
  | nil =>
      have hmerge : onto (some low) high = v := Option.some.inj h
      exact .inl (congrArg some ((onto_eq_iff hv _ _).1 hmerge))
  | cons key path ih =>
      rcases merge_eq_or_tables low high with hhides | ⟨ol, el, oh, eh, rfl, rfl⟩
      · rw [hhides] at h
        exact .inl h
      · rw [merge_table, find?, get?_mergeEntries] at h
        rw [find?, find?]
        cases hhigh : Entries.get? key eh with
        | none => exact .inr (by simpa [hhigh] using h)
        | some u =>
            cases hlow : Entries.get? key el with
            | none => exact .inl (by simpa [hhigh, hlow] using h)
            | some old => exact ih (by simpa [hhigh, hlow] using h)

/-- What stands in the higher of two trees lies over something of the lower one, or over nothing. -/
theorem exists_find?_merge (h : find? path high = some v) :
    ∃ o, find? path (merge low high) = some (onto o v) := by
  induction path generalizing low high with
  | nil =>
      obtain rfl : high = v := Option.some.inj h
      exact ⟨some low, rfl⟩
  | cons key path ih =>
      rcases merge_eq_or_tables low high with hhides | ⟨ol, el, oh, eh, rfl, rfl⟩
      · exact ⟨none, by rw [hhides, h, onto_none]⟩
      · rw [find?] at h
        obtain ⟨u, hu, hfind⟩ := Option.bind_eq_some_iff.1 h
        rw [merge_table, find?, get?_mergeEntries, hu]
        cases Entries.get? key el with
        | none => exact ⟨none, hfind⟩
        | some old => exact ih hfind

/-- What is no table is not hidden by anything below it. -/
theorem find?_merge_of_high (hv : v.isTable = false) (h : find? path high = some v) :
    find? path (merge low high) = some v := by
  obtain ⟨o, ho⟩ : ∃ o, find? path (merge low high) = some (onto o v) := exists_find?_merge h
  rw [ho, (onto_eq_iff hv o v).2 rfl]

/-! ### Stacks -/

/-- A stack of trees that are open along a path is open along it. -/
theorem isOpenAt_foldl_merge {ts : List Tree} (ht : isOpenAt path t = true)
    (hts : ∀ u ∈ ts, isOpenAt path u = true) : isOpenAt path (ts.foldl merge t) = true := by
  induction ts generalizing t with
  | nil => exact ht
  | cons u ts ih =>
      obtain ⟨hu, hts⟩ := List.forall_mem_cons.1 hts
      exact ih (isOpenAt_merge ht hu) hts

/-- A path leads somewhere in a stack if it does in one of its trees. -/
theorem isSome_find?_foldl_merge {ts : List Tree} (ht : isOpenAt path t = true)
    (hts : ∀ u ∈ ts, isOpenAt path u = true) {u : Tree} (hu : u ∈ t :: ts)
    (hfind : (find? path u).isSome) : (find? path (ts.foldl merge t)).isSome := by
  induction ts using List.reverseRecOn with
  | nil => rwa [List.mem_singleton.1 hu] at hfind
  | append_singleton ts w ih =>
      have hopen : ∀ x ∈ ts, isOpenAt path x = true := fun x hx =>
        hts x (List.mem_append_left _ hx)
      rw [List.foldl_concat, isSome_find?_merge (isOpenAt_foldl_merge ht hopen) (hts w (by simp)),
        Bool.or_eq_true]
      rw [← List.cons_append, List.mem_append, List.mem_singleton] at hu
      rcases hu with hu | rfl
      · exact .inr (ih hopen hu)
      · exact .inl hfind

/-- The value that a path leads to in a stack, if it is no table, is that of the highest tree in
which the path leads anywhere. -/
theorem find?_foldl_merge {ts : List Tree} (ht : isOpenAt path t = true)
    (hts : ∀ u ∈ ts, isOpenAt path u = true) (hv : v.isTable = false) :
    find? path (ts.foldl merge t) = some v ↔
      (t :: ts).reverse.findSome? (find? path) = some v := by
  induction ts using List.reverseRecOn with
  | nil => simp
  | append_singleton ts u ih =>
      have hopen : ∀ w ∈ ts, isOpenAt path w = true := fun w hw =>
        hts w (List.mem_append_left _ hw)
      have hu : isOpenAt path u = true := hts u (by simp)
      rw [List.foldl_concat, find?_merge (isOpenAt_foldl_merge ht hopen) hu,
        ← List.cons_append, List.reverse_concat, List.findSome?_cons]
      cases hfind : find? path u with
      | none => exact ih hopen
      | some w => simpa using onto_eq_iff hv _ w

end OrderedDispatch.Config.Tree
