/-
**How many threads to start.**

A requested thread count is honoured up to the number of items.  Without a request the count is
what the free memory allows, capped; each thread is reckoned at a fixed budget, since it may hold
one heavy session.

Main definitions:

* `Sizing.threadsForMemory` — how many budgets fit into the free memory;
* `Sizing.estimate`, `Sizing.estimateEvent` — the same as a usable thread count, and what is logged
  about it;
* `Sizing.effectiveThreads` — the number of threads for a number of items;
* `Sizing.Policy` — the three settings that decide it.

Main results:

* `Sizing.one_le_estimate` — an estimate is never zero;
* `Sizing.effectiveThreads_le` — there are never more threads than items.
-/

import OrderedDispatch.Event
import OrderedDispatch.Text.Numeral

set_option relaxedAutoImplicit false
set_option autoImplicit false

namespace OrderedDispatch.Sizing

/-- The bytes of a mebibyte. -/
def mebibyte : Nat := 1048576

/-- The cap on a thread count chosen from the free memory, unless set otherwise. -/
def defaultMaxThreads : Nat := 12

/-- The memory reckoned for each thread in mebibytes, unless set otherwise. -/
def defaultMemoryPerThread : Nat := 650

/-- The product of two words, or the greatest word where the product does not fit. -/
def saturatingMul (a b : Nat) : Nat := min (a * b) (Text.wordSize - 1)

/-- How many budgets of so many mebibytes fit into the free memory; unknown when either is zero. -/
def threadsForMemory (available budget : Nat) : Option Nat :=
  if available = 0 ∨ budget = 0 then none
  else some (available / saturatingMul budget mebibyte)

/-- A usable thread count for the free memory: at least one. -/
def estimate (available budget : Nat) : Nat :=
  match threadsForMemory available budget with
  | none => 1
  | some n => max n 1

/-- What is logged about the estimate. -/
def estimateEvent (available budget : Nat) : Event :=
  match threadsForMemory available budget with
  | none => .memoryUnknown
  | some n => .estimated (max n 1) (available / mebibyte) budget

/-- Whether the free memory has to be looked at at all. -/
def needsEstimate (items requested : Nat) : Bool := items ≠ 0 && requested = 0

/-- The number of threads for a number of items: a request above zero is honoured up to the number
of items, otherwise the estimate counts up to the cap. -/
def effectiveThreads (items requested maxThreads estimated : Nat) : Nat :=
  if items = 0 then 0
  else if 0 < requested then min items requested
  else min items (min (max maxThreads 1) (max estimated 1))

/-- The settings that decide the number of threads. -/
structure Policy where
  /-- the thread count asked for, zero to choose one -/
  requested : Nat := 0
  /-- the cap on a chosen thread count -/
  maxThreads : Nat := defaultMaxThreads
  /-- the memory reckoned for each thread, in mebibytes -/
  memoryPerThread : Nat := defaultMemoryPerThread
  deriving DecidableEq, Inhabited

/-- The number of threads that the policy gives to a number of items. -/
def Policy.threadCount (p : Policy) (available items : Nat) : Nat :=
  effectiveThreads items p.requested p.maxThreads (estimate available p.memoryPerThread)

/-- What choosing the number of threads logs. -/
def Policy.events (p : Policy) (available items : Nat) : List Event :=
  if needsEstimate items p.requested then [estimateEvent available p.memoryPerThread] else []

/-- An estimate is never zero. -/
theorem one_le_estimate (available budget : Nat) : 1 ≤ estimate available budget := by
  unfold estimate
  split <;> omega

/-- There are never more threads than items. -/
theorem effectiveThreads_le (items requested maxThreads estimated : Nat) :
    effectiveThreads items requested maxThreads estimated ≤ items := by
  unfold effectiveThreads
  split
  · omega
  · split <;> omega

/-- As soon as there is an item there is a thread. -/
theorem effectiveThreads_pos {items : Nat} (h : 0 < items) (requested maxThreads estimated : Nat) :
    0 < effectiveThreads items requested maxThreads estimated := by
  unfold effectiveThreads
  split
  · omega
  · split <;> omega

end OrderedDispatch.Sizing
