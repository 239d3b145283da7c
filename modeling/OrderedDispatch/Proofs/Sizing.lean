/-
**The number of threads is exact.**

The estimate divides the free memory by a budget, and the budget in bytes is a product that may not
fit a word.  Such a product is cut off at the greatest word.  This does no harm: a free memory that
fits a word holds at most one budget that large, and an estimate of none counts as one.  So the
estimate is the one of exact arithmetic everywhere.

On top of it, the number of threads is never zero where there is work, since a count of zero would
start nobody and drop all items, and it is the number that the estimate command promises.

Main definitions:

* `Sizing.Exact` — what there is to say about the threads of a policy.

Main results:

* `Sizing.saturatingMul_pos` — the divisor is never zero;
* `Sizing.max_div_saturatingMul` — the cut makes no difference to an estimate;
* `Sizing.estimate_eq`, `Sizing.estimate_mono` — the estimate is exact, and grows with the memory;
* `Sizing.effectiveThreads_eq` — the number of threads without its cases;
* `Sizing.threadCount_exact` — **the number of threads is exact and safe**.
-/

import Mathlib.Algebra.Group.Nat.Defs
import Mathlib.Tactic.SplitIfs
import OrderedDispatch.CommandLine.Execution

set_option relaxedAutoImplicit false
set_option autoImplicit false

namespace OrderedDispatch.Sizing

open CommandLine

variable {available budget : Nat}

/-! ### The estimate -/

theorem saturatingMul_lt (a b : Nat) : saturatingMul a b < Text.wordSize :=
  Nat.lt_of_le_pred (by decide) (Nat.min_le_right _ _)

/-- The divisor is never zero. -/
theorem saturatingMul_pos (h : budget ≠ 0) : 0 < saturatingMul budget mebibyte :=
  Nat.lt_min.2 ⟨Nat.mul_pos (Nat.pos_of_ne_zero h) (by decide), by decide⟩

/-- The cut makes no difference to an estimate: what is cut off fits at most once, and exactly not
at all, and both count as one thread. -/
theorem max_div_saturatingMul (h : available < Text.wordSize) (a b : Nat) :
    max (available / saturatingMul a b) 1 = max (available / (a * b)) 1 := by
  rcases Nat.lt_or_ge (a * b) Text.wordSize with hfits | hlarge
  · have hsame : saturatingMul a b = a * b := Nat.min_eq_left (Nat.le_pred_of_lt hfits)
    rw [hsame]
  · have hcut : saturatingMul a b = Text.wordSize - 1 :=
      Nat.min_eq_right (Nat.le_trans (Nat.sub_le _ _) hlarge)
    have hexact : available / (a * b) = 0 := Nat.div_eq_of_lt (Nat.lt_of_lt_of_le h hlarge)
    have honce : available / (Text.wordSize - 1) ≤ 1 :=
      Nat.div_le_of_le_mul (by rw [Nat.mul_one]; exact Nat.le_pred_of_lt h)
    rw [hcut, hexact, Nat.max_eq_right honce, Nat.max_eq_right (Nat.zero_le 1)]

/-- The estimate is that of exact arithmetic. -/
theorem estimate_eq (h : available < Text.wordSize) (budget : Nat) : estimate available budget =
    if available = 0 ∨ budget = 0 then 1 else max 1 (available / (budget * 2 ^ 20)) := by
  unfold estimate threadsForMemory
  split_ifs with hunknown
  · rfl
  · exact (max_div_saturatingMul h budget mebibyte).trans (Nat.max_comm _ _)

/-- An estimate fits a word. -/
theorem estimate_lt (h : available < Text.wordSize) (budget : Nat) :
    estimate available budget < Text.wordSize := by
  have hquotient : available / (budget * 2 ^ 20) ≤ available := Nat.div_le_self _ _
  have hone : 1 < Text.wordSize := by decide
  rw [estimate_eq h]
  split_ifs <;> omega

/-- More free memory never makes an estimate smaller. -/
theorem estimate_mono {available' : Nat} (h : available ≤ available') (budget : Nat) :
    estimate available budget ≤ estimate available' budget := by
  have hquotient : available / saturatingMul budget mebibyte
      ≤ available' / saturatingMul budget mebibyte := Nat.div_le_div_right h
  unfold estimate threadsForMemory
  split_ifs <;> simp only <;> omega

/-! ### The number of threads -/

/-- The number of threads without its cases: nothing is started for no items, and otherwise the
items bound a number that is positive. -/
theorem effectiveThreads_eq (items requested maxThreads estimated : Nat) :
    effectiveThreads items requested maxThreads estimated = min items
      (if 0 < requested then requested else min (max 1 maxThreads) (max 1 estimated)) := by
  unfold effectiveThreads
  split_ifs <;> omega

theorem Policy.threadCount_eq (p : Policy) (available items : Nat) :
    p.threadCount available items = min items (if 0 < p.requested then p.requested
      else min (max 1 p.maxThreads) (estimate available p.memoryPerThread)) := by
  rw [threadCount, effectiveThreads_eq, Nat.max_eq_right (one_le_estimate _ _)]

/-- What there is to say about the threads of a policy, with so much free memory. -/
structure Exact (p : Policy) (available : Nat) : Prop where
  /-- what the memory is divided by is not zero and fits a word -/
  divisor : p.memoryPerThread ≠ 0 → 0 < saturatingMul p.memoryPerThread mebibyte
    ∧ saturatingMul p.memoryPerThread mebibyte < Text.wordSize
  /-- the estimate is that of exact arithmetic, and fits a word -/
  estimated : estimate available p.memoryPerThread
      = (if available = 0 ∨ p.memoryPerThread = 0 then 1
        else max 1 (available / (p.memoryPerThread * 2 ^ 20)))
    ∧ estimate available p.memoryPerThread < Text.wordSize
  /-- nothing is started only if there are no items -/
  none : ∀ n, p.threadCount available n = 0 ↔ n = 0
  /-- the memory is looked at only where there are items and no request -/
  consulted : ∀ n, needsEstimate n p.requested = true ↔ 0 < n ∧ p.requested = 0
  /-- a request is honoured up to the number of items -/
  requested : ∀ n, 0 < p.requested → p.threadCount available n = min n p.requested
  /-- otherwise the estimate counts, up to the cap and the number of items -/
  chosen : ∀ n, p.requested = 0 → p.threadCount available n
    = min n (min (max 1 p.maxThreads) (estimate available p.memoryPerThread))
  /-- where there are items there is a thread, and never more threads than items -/
  bounds : ∀ n, 0 < n → 1 ≤ p.threadCount available n ∧ p.threadCount available n ≤ n
  /-- more items or more memory never mean fewer threads -/
  mono : ∀ n n' available', n ≤ n' → available ≤ available' →
    p.threadCount available n ≤ p.threadCount available' n'
  /-- without a request there are as many threads as the estimate command says on its last line, up
  to the number of items -/
  shown : p.requested = 0 → ∀ (m : Machine) (v : Voice) (c : Config), m.freeMemory = available →
    c.parallel = p → ∃ (before : List String) (threads : Nat),
      (performWith m v c .estimate).out = linesOut (before ++ [s!"threads = {threads}"])
        ∧ ∀ n < Text.wordSize, p.threadCount available n = min n threads

/-- **The number of threads is exact and safe.** -/
theorem threadCount_exact (p : Policy) (h : available < Text.wordSize) : Exact p available where
  divisor hbudget := ⟨saturatingMul_pos hbudget, saturatingMul_lt _ _⟩
  estimated := ⟨estimate_eq h _, estimate_lt h _⟩
  none n := by
    have hone := one_le_estimate available p.memoryPerThread
    rw [p.threadCount_eq]
    split_ifs <;> omega
  consulted n := by simp [needsEstimate, Nat.pos_iff_ne_zero]
  requested n hrequested := by rw [p.threadCount_eq, if_pos hrequested]
  chosen n hrequested := by
    rw [p.threadCount_eq, if_neg (by omega)]
  bounds n hn := by
    have hone := one_le_estimate available p.memoryPerThread
    rw [p.threadCount_eq]
    split_ifs <;> omega
  mono n n' available' hn hmemory := by
    have hestimate := estimate_mono hmemory p.memoryPerThread
    rw [p.threadCount_eq, p.threadCount_eq]
    split_ifs <;> omega
  shown hrequested m v c hmemory hpolicy := by
    subst hmemory hpolicy
    refine ⟨[_, _], _, rfl, fun n hn => ?_⟩
    rw [Policy.threadCount, effectiveThreads_eq, effectiveThreads_eq, hrequested]
    simp only [Nat.lt_irrefl, if_false]
    omega

/-- The greatest free memory with a budget whose product does not fit a word, and four gibibytes
with the usual budget. -/
theorem threadCount_exact_sample :
    estimate 18446744073709551615 17592186044416 = 1
      ∧ ({ memoryPerThread := 17592186044416 } : Policy).threadCount 18446744073709551615 5 = 1
      ∧ ({} : Policy).threadCount 4294967296 1000 = 6 := by
  have hwide : Exact { memoryPerThread := 17592186044416 } 18446744073709551615 :=
    threadCount_exact _ (by decide)
  have husual : Exact {} 4294967296 := threadCount_exact _ (by decide)
  refine ⟨hwide.estimated.1, ?_, ?_⟩
  · rw [hwide.chosen 5 rfl, hwide.estimated.1]
    rfl
  · rw [husual.chosen 1000 rfl, husual.estimated.1]
    rfl

end OrderedDispatch.Sizing
