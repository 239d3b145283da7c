/-
**Counting along a list.**

The workers of a dispatch and the calls at its gate stand in lists, and a step replaces one of them.
A count over such a list, or a sum, changes by what it changes for the one that is replaced.

Main results:

* `sum_map_set_add`, `countP_set_add` — **replacing one element changes a sum, or a count, by what
  it changes for that element**;
* `countP_add_countP` — counts add up as they do for single elements;
* `countP_eq_countP_range` — a count over a list is a count over its positions.
-/

import Mathlib.Algebra.BigOperators.Group.List.Basic
import Mathlib.Algebra.GroupWithZero.Nat

set_option relaxedAutoImplicit false
set_option autoImplicit false

namespace OrderedDispatch

variable {α : Type} {l : List α}

/-- A count is a sum of noughts and ones. -/
theorem countP_eq_sum (p : α → Bool) (l : List α) :
    l.countP p = (l.map fun a => (p a).toNat).sum := by
  induction l with
  | nil => rfl
  | cons a rest ih =>
      rw [List.countP_cons, List.map_cons, List.sum_cons, ih, Nat.add_comm]
      cases p a <;> rfl

/-- Replacing one element changes a sum by what it changes for that element. -/
theorem sum_map_set_add {f : α → Nat} {t : Nat} {a : α} (h : l[t]? = some a) (b : α) :
    ((l.set t b).map f).sum + f a = (l.map f).sum + f b := by
  induction l generalizing t with
  | nil => simp at h
  | cons v rest ih =>
      cases t with
      | zero =>
          obtain rfl : v = a := by simpa using h
          simp only [List.set_cons_zero, List.map_cons, List.sum_cons]
          omega
      | succ n =>
          have := ih (t := n) (by simpa using h)
          simp only [List.set_cons_succ, List.map_cons, List.sum_cons]
          omega

/-- Replacing one element changes a count by what it changes for that element. -/
theorem countP_set_add {p : α → Bool} {t : Nat} {a : α} (h : l[t]? = some a) (b : α) :
    (l.set t b).countP p + (p a).toNat = l.countP p + (p b).toNat := by
  rw [countP_eq_sum, countP_eq_sum]
  exact sum_map_set_add h b

/-- Counts add up as the numbers of single elements do. -/
theorem countP_add_countP {p q r : α → Bool}
    (h : ∀ a ∈ l, (p a).toNat + (q a).toNat = (r a).toNat) :
    l.countP p + l.countP q = l.countP r := by
  rw [countP_eq_sum, countP_eq_sum, countP_eq_sum, ← List.sum_map_add]
  exact congrArg List.sum (List.map_congr_left h)

/-- A count over a list is a count over its positions. -/
theorem countP_eq_countP_range (p : α → Bool) (l : List α) :
    l.countP p = (List.range l.length).countP fun t => l[t]?.any p := by
  have hsplit : l.map some = (List.range l.length).map fun t => l[t]? := by
    refine List.ext_getElem (by simp) fun t ht _ => ?_
    simp at ht
    simp [ht]
  calc l.countP p = (l.map some).countP (Option.any p) := by
        rw [List.countP_map]
        rfl
    _ = (List.range l.length).countP fun t => l[t]?.any p := by
        rw [hsplit, List.countP_map]
        rfl

end OrderedDispatch
