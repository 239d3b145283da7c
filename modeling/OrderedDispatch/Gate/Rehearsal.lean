/-
**A gate rehearsed step by step.**

A rehearsal submits retirements to one gate and lets everything come to rest after each operation,
so that its answers do not depend on timing.  An operation that would wait for ever is refused and
changes nothing.  With exactly one sleeping call, whoever poisons the lock also wakes that call,
which therefore is the one to see the poison and to clear it.

Main definitions:

* `Rehearsal`, `Rehearsal.Operation`, `Rehearsal.Answer` — the state, what can be asked of it, and
  what it answers;
* `Rehearsal.perform?` — one operation, `none` where it would wait for ever.

Main results:

* `Rehearsal.perform?_retire_eq_none_iff` — when a retirement would wait for ever.
-/

import OrderedDispatch.Gate.Room

set_option relaxedAutoImplicit false
set_option autoImplicit false

namespace OrderedDispatch

/-- A room in which everything has come to rest, and which of its calls nobody has waited for. -/
structure Rehearsal (σ : Type) where
  room : Room σ
  /-- the positions of the calls that nobody has waited for yet, in order of arrival -/
  pending : List Nat := []

namespace Rehearsal

variable {σ : Type}

/-- What can be asked of a rehearsal: to retire an item and wait until that is done, to submit one
on a thread of its own without waiting, to wait for everything submitted, or to let a holder of the
mutex panic. -/
inductive Operation where
  | retire (thread item : Nat) (output : List UInt8)
  | retireLater (thread item : Nat) (output : List UInt8)
  | join
  | poison
  deriving DecidableEq, Inhabited

/-- What a rehearsal answers: that an item has been retired, with its fault if any; nothing; or that
everything submitted has been retired, the items in order of submission, with their faults. -/
inductive Answer where
  | retired (fault : Option Fault)
  | silent
  | joined (results : List (Nat × Option Fault))
  deriving DecidableEq, Inhabited

/-- A rehearsal on a sink that has not been used. -/
def around (sink : σ) : Rehearsal σ where
  room := Room.around sink

/-- The items submitted so far. -/
def submitted (r : Rehearsal σ) : List Nat := r.room.calls.map RetireCall.item

/-- Whether every item below this one has been submitted. -/
def allBelow (r : Rehearsal σ) (item : Nat) : Bool :=
  (List.range item).all fun i => r.submitted.contains i

/-- The fault of the call with a position, none while it has not ended. -/
def faultAt (r : Room σ) (position : Nat) : Option Fault := do
  let c ← r.calls[position]?
  let fault ← c.phase.result?
  fault

/-- The positions of the calls that sleep. -/
def sleepers (r : Room σ) : List Nat :=
  (List.range r.calls.length).filter fun p => (r.calls[p]?.map (·.phase.sleeps)).getD false

/-- The room after a further call has come and everything has come to rest. -/
def enter (k : Sink σ) (r : Room σ) (thread item : Nat) (output : List UInt8) : Room σ :=
  Room.settle k { r with calls := r.calls ++ [{ thread, item, output }] }

/-- The room after a holder of the mutex has panicked: the flag stays until the next call takes the
mutex, except that a single sleeper is woken at once. -/
def poisoned (k : Sink σ) (r : Room σ) : Room σ :=
  let r' := { r with gate := r.gate.poison }
  match sleepers r with
  | [position] => ((r'.step? k (.wake position)).map (Room.settle k)).getD r'
  | _ => r'

/-- One operation; `none` where it would wait for ever. -/
def perform? (k : Sink σ) (r : Rehearsal σ) : Operation → Option (Rehearsal σ × Answer)
  | .retire thread item output =>
      if r.submitted.contains item || !r.allBelow item then none
      else
        let room := enter k r.room thread item output
        some ({ r with room := room }, .retired (faultAt room r.room.calls.length))
  | .retireLater thread item output =>
      if r.submitted.contains item then none
      else
        some ({ room := enter k r.room thread item output
                pending := r.pending ++ [r.room.calls.length] }, .silent)
  | .join =>
      if r.submitted.all (· < r.submitted.length) then
        some ({ r with pending := [] },
          .joined (r.pending.map fun p =>
            ((r.room.calls[p]?.map RetireCall.item).getD 0, faultAt r.room p)))
      else none
  | .poison => some ({ r with room := poisoned k r.room }, .silent)

/-- A retirement would wait for ever if its item was submitted before or a lower one was not. -/
theorem perform?_retire_eq_none_iff {k : Sink σ} {r : Rehearsal σ} {thread item : Nat}
    {output : List UInt8} :
    r.perform? k (.retire thread item output) = none ↔
      item ∈ r.submitted ∨ ∃ i < item, i ∉ r.submitted := by
  simp only [perform?, allBelow, ite_eq_left_iff, reduceCtorEq, imp_false, Decidable.not_not,
    Bool.or_eq_true, List.contains_iff_mem, Bool.not_eq_true', List.all_eq_false, List.mem_range]

end Rehearsal

end OrderedDispatch
