/-
**What the environment says.**

The variables of the environment are laid over one another to make the highest layer.  As long as
the keys that one variable spells never lead on to those of another, nothing is hidden in this: a
plain value stands in the layer exactly if some variable says it.

Main definitions:

* `Config.Apart` — neither of two paths leads on to the other;
* `Config.Environment.Variable.Says` — what a single variable says about a path.

Main results:

* `Config.Tree.find?_merge_nest`, `Config.Tree.find?_merge_nest_iff` — a nested value leaves all
  paths apart from its own alone, and adds what it says;
* `Config.find?_environmentLayer` — **the plain values of the environment are those that its
  variables say**.
-/

import OrderedDispatch.Config.Load
import OrderedDispatch.Proofs.Config.Merge

set_option relaxedAutoImplicit false
set_option autoImplicit false

namespace OrderedDispatch

/-- There is nothing to trim from a text without blanks. -/
theorem Text.trim_eq_self {s : List Char} (h : ∀ c ∈ s, isBlank c = false) : trim s = s := by
  have hdrop : ∀ t : List Char, (∀ c ∈ t, isBlank c = false) → t.dropWhile isBlank = t := by
    intro t ht
    cases t with
    | nil => rfl
    | cons c t => exact List.dropWhile_cons_of_neg (by simp [ht c List.mem_cons_self])
  rw [trim, trimStart, hdrop s h, trimEnd, hdrop s.reverse (by simpa using h), List.reverse_reverse]

namespace Config

open Environment

/-! ### Paths apart from each other -/

/-- Neither of two paths leads on to the other. -/
def Apart (p q : List Key) : Prop := ¬ p <+: q ∧ ¬ q <+: p

instance (p q : List Key) : Decidable (Apart p q) := inferInstanceAs (Decidable (_ ∧ _))

/-- What leads on from a path is apart from all that the path is apart from. -/
theorem Apart.append {p q : List Key} (h : Apart p q) (rest : List Key) :
    Apart (p ++ rest) q := by
  constructor
  · intro hpre
    exact h.1 ((List.prefix_append p rest).trans hpre)
  · intro hpre
    rcases List.prefix_or_prefix_of_prefix hpre (List.prefix_append p rest) with hqp | hpq
    · exact h.2 hqp
    · exact h.1 hpq

theorem Apart.of_cons {k : Key} {p q : List Key} (h : Apart (k :: p) (k :: q)) : Apart p q :=
  ⟨fun hpq => h.1 (List.cons_prefix_cons.2 ⟨rfl, hpq⟩),
    fun hqp => h.2 (List.cons_prefix_cons.2 ⟨rfl, hqp⟩)⟩

/-- Paths that are apart have first keys. -/
theorem Apart.exists_cons {p q : List Key} (h : Apart p q) :
    ∃ k p' l q', p = k :: p' ∧ q = l :: q' := by
  cases p with
  | nil => exact absurd List.nil_prefix h.1
  | cons k p' =>
      cases q with
      | nil => exact absurd List.nil_prefix h.2
      | cons l q' => exact ⟨k, p', l, q', rfl, rfl⟩

/-! ### A value inside nested tables -/

namespace Tree

variable {o : Origin} {d : Doc} {v : Tree}

theorem ofDoc_nest_cons (o : Origin) (d : Doc) (k : Key) (p : List Key) :
    ofDoc o (nest d (k :: p)) = .table o [(k, ofDoc o (nest d p))] := by
  simp only [nest, ofDoc, ofEntries]

theorem get?_single (k l : Key) (t : Tree) :
    Entries.get? k [(l, t)] = if l = k then some t else none := rfl

/-- The plain values inside nested tables stand where the keys of the tables lead to. -/
theorem find?_nest (hv : v.isTable = false) (p path : List Key) :
    find? path (ofDoc o (nest d p)) = some v ↔
      ∃ rest, path = p ++ rest ∧ find? rest (ofDoc o d) = some v := by
  induction p generalizing path with
  | nil => simp [nest]
  | cons k p ih =>
      rw [ofDoc_nest_cons]
      cases path with
      | nil =>
          have hne : Tree.table o [(k, ofDoc o (nest d p))] ≠ v := by
            rintro rfl
            cases hv
          simp [find?, hne]
      | cons l path =>
          rw [find?, get?_single]
          by_cases h : k = l
          · subst h
            simpa using ih path
          · simp [h, Ne.symm h]

theorem find?_nest_of_apart {p path : List Key} (h : Apart path p) :
    find? path (ofDoc o (nest d p)) = none := by
  induction p generalizing path with
  | nil => exact absurd List.nil_prefix h.2
  | cons k p ih =>
      obtain ⟨l, path, _, _, rfl, -⟩ := h.exists_cons
      rw [ofDoc_nest_cons, find?, get?_single]
      by_cases hk : k = l
      · subst hk
        simpa using ih h.of_cons
      · simp [hk]

/-- A value inside nested tables, laid over a tree, changes nothing apart from its own path. -/
theorem find?_merge_nest {low : Tree} {p path : List Key} (h : Apart path p) :
    find? path (merge low (ofDoc o (nest d p))) = find? path low := by
  induction p generalizing path low with
  | nil => exact absurd List.nil_prefix h.2
  | cons k p ih =>
      obtain ⟨l, path, _, _, rfl, -⟩ := h.exists_cons
      cases low with
      | table ol el =>
          rw [ofDoc_nest_cons, merge_table, find?, find?, get?_mergeEntries, get?_single]
          by_cases hk : k = l
          · subst hk
            cases hlow : Entries.get? k el with
            | none => simpa using find?_nest_of_apart h.of_cons
            | some old => simpa using ih h.of_cons
          · simp [hk]
      | list ol items =>
          rw [merge_of_low_not_isTable rfl, find?_nest_of_apart h]
          rfl
      | leaf ol s =>
          rw [merge_of_low_not_isTable rfl, find?_nest_of_apart h]
          rfl

/-- A value inside nested tables adds its plain values to a tree that has none where its path leads
on or comes from. -/
theorem find?_merge_nest_iff {low : Tree} {p path : List Key} (hv : v.isTable = false)
    (hapart : find? path low = some v → Apart path p) :
    find? path (merge low (ofDoc o (nest d p))) = some v ↔
      find? path low = some v ∨ find? path (ofDoc o (nest d p)) = some v := by
  constructor
  · intro hfind
    exact (find?_or_of_find?_merge hv hfind).symm
  · rintro (hold | hnew)
    · rw [find?_merge_nest (hapart hold)]
      exact hold
    · exact find?_merge_of_high hv hnew

/-- There is no plain value in an empty table. -/
theorem find?_empty_ne (hv : v.isTable = false) (path : List Key) :
    find? path (.table o []) ≠ some v := by
  cases path with
  | nil =>
      rintro heq
      obtain rfl := Option.some.inj heq
      cases hv
  | cons k path => exact nofun

end Tree

/-! ### The layer of the environment -/

/-- A variable says that a path leads to a value: the path begins with the keys that the variable's
name spells, and goes on inside of the variable's value. -/
def Environment.Variable.Says (w : Variable) (path : List Key) (v : Tree) : Prop :=
  ∃ keys rest, path? w.name = some keys ∧ path = keys ++ rest ∧
    Tree.find? rest (.ofDoc .environment (Environment.value w.value)) = some v

/-- As long as no variable's keys lead on to those of another, the plain values in the layer of the
environment are those that its variables say. -/
theorem find?_environmentLayer {vars : List Variable} {path : List Key} {v : Tree}
    (hapart : (vars.filterMap fun w => path? w.name).Pairwise Apart) (hv : v.isTable = false) :
    (environmentLayer vars).content.bind (Tree.find? path) = some v ↔
      ∃ w ∈ vars, w.Says path v := by
  rw [environmentLayer, Option.bind_some]
  induction vars using List.reverseRecOn with
  | nil => exact iff_of_false (Tree.find?_empty_ne hv path) nofun
  | append_singleton vars w ih =>
      rw [List.filterMap_append, List.pairwise_append] at hapart
      obtain ⟨hvars, -, hcross⟩ := hapart
      rw [List.filterMap_append, List.foldl_append]
      cases hw : path? w.name with
      | none =>
          have hsilent : ¬ w.Says path v := by
            rintro ⟨keys, rest, hkeys, -⟩
            simp [hw] at hkeys
          simpa [setting?, hw, or_and_right, exists_or, hsilent] using ih hvars
      | some p =>
          have hsays : w.Says path v ↔
              Tree.find? path (.ofDoc .environment (nest (value w.value) p)) = some v := by
            simp [Tree.find?_nest hv, Environment.Variable.Says, hw]
          have hsetting : setting? w = some (nest (value w.value) p) := by
            simp [setting?, hw]
          simp only [List.filterMap_cons, hsetting, List.filterMap_nil, List.foldl_cons,
            List.foldl_nil, List.mem_append, List.mem_singleton, or_and_right, exists_or,
            exists_eq_left, hsays, ← ih hvars]
          -- the variables before this one speak of paths apart from its own
          refine Tree.find?_merge_nest_iff hv fun hold => ?_
          obtain ⟨u, hu, keys, rest, hkeys, rfl, -⟩ := (ih hvars).1 hold
          exact (hcross keys (List.mem_filterMap.2 ⟨u, hu, hkeys⟩) p (by simp [hw])).append rest

end Config

end OrderedDispatch
