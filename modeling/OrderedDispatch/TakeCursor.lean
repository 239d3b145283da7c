/-
**Handing out items.**

The take cursor hands out the numbers below a limit in increasing order, each to exactly one
caller, under a mutex.  A panic of whoever holds the mutex poisons it; the next claim reports that
once and goes on as if nothing had happened.

Main definitions:

* `TakeCursor` — the next number, the limit, and whether the mutex is poisoned;
* `TakeCursor.claim` — one claim: the number handed out, if any is left, and the fault to report;
* `TakeCursor.poison` — a holder of the mutex panics.

Main results:

* `TakeCursor.claimed_next`, `TakeCursor.offer_index_eq_some` — what a claim does below the limit
  and at it.
-/

import OrderedDispatch.Event

set_option relaxedAutoImplicit false
set_option autoImplicit false

namespace OrderedDispatch

/-- The counter of items handed out. -/
structure TakeCursor where
  /-- the next number to hand out -/
  next : Nat := 0
  /-- the numbers below the limit are handed out -/
  limit : Nat
  /-- whether a holder of the mutex panicked since the last claim -/
  poisoned : Bool := false
  deriving DecidableEq, Inhabited

/-- What a claim gives to its caller. -/
structure Claim where
  /-- the number handed out, `none` when all are -/
  index : Option Nat
  /-- the fault to report -/
  fault : Option Fault
  deriving DecidableEq, Inhabited

namespace TakeCursor

/-- What a claim gives: the next number while there is one, and word of a poisoned mutex. -/
def offer (c : TakeCursor) : Claim where
  index := if c.next < c.limit then some c.next else none
  fault := if c.poisoned then some (.poisoned .take) else none

/-- The cursor after a claim. -/
def claimed (c : TakeCursor) : TakeCursor where
  next := if c.next < c.limit then c.next + 1 else c.next
  limit := c.limit
  poisoned := false

/-- One claim. -/
def claim (c : TakeCursor) : Claim × TakeCursor := (c.offer, c.claimed)

/-- What a claim logs by itself. -/
def claimEvents (c : TakeCursor) : List Event :=
  if c.poisoned then [.recovering .take] else []

/-- A holder of the mutex panics without touching the counter. -/
def poison (c : TakeCursor) : TakeCursor := { c with poisoned := true }

/-- A claim moves the counter by one until it reaches the limit. -/
theorem claimed_next (c : TakeCursor) (h : c.next ≤ c.limit) :
    c.claimed.next = min (c.next + 1) c.limit := by
  simp only [claimed]
  split <;> omega

/-- The number handed out is the counter, as long as it is below the limit. -/
theorem offer_index_eq_some {c : TakeCursor} {i : Nat} :
    c.offer.index = some i ↔ c.next < c.limit ∧ c.next = i := by
  simp only [offer]
  split
  · simp_all
  · simp only [reduceCtorEq, false_iff]
    omega

end TakeCursor

end OrderedDispatch
