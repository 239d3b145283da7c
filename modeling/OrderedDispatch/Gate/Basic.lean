/-
**The retire gate.**

Output reaches the sink strictly in item order.  A mutex guards the number of the next item to
retire together with the sink; whoever comes out of turn goes to sleep on a condition variable,
which releases the mutex, and whoever retires an item wakes all sleepers.  A sleeper may also wake
for no reason.  Whoever wakes must take the mutex again before it looks whose turn it is.

A panic of whoever holds the mutex poisons it.  The next caller that takes the mutex, for the first
time or on waking, clears the poison and reports it.  A call reports at most one fault, the first it
meets, and retires its item in any case: otherwise every later item would wait for ever.

Main definitions:

* `Gate`, `CallPhase` — the guarded state, and where a call stands;
* `Gate.advance?` — the next step of a call, if it is not waiting for something;
* `CallPhase.notified` — what waking all sleepers does to a call.

Main results:

* `Gate.advance?_isSome_iff` — a call can go on unless it sleeps, has ended, or wants a mutex that
  another call holds.
-/

import OrderedDispatch.Event
import OrderedDispatch.Sink.Basic

set_option relaxedAutoImplicit false
set_option autoImplicit false

namespace OrderedDispatch

/-- The state behind the retire gate. -/
structure Gate (σ : Type) where
  /-- the item that may retire next -/
  next : Nat := 0
  /-- the sink that the output goes to -/
  sink : σ
  /-- whether some call holds the mutex -/
  locked : Bool := false
  /-- whether a holder of the mutex panicked since it was last taken -/
  poisoned : Bool := false
  deriving DecidableEq, Inhabited

/-- Where a call at the gate stands, with the fault that it has met so far: it wants the mutex for
the first time; it holds the mutex and is about to look whose turn it is; it sleeps on the condition
variable; it has been woken and wants the mutex again; or it has retired its item. -/
inductive CallPhase where
  | arriving
  | holding (fault : Option Fault)
  | asleep (fault : Option Fault)
  | woken (fault : Option Fault)
  | done (fault : Option Fault)
  deriving DecidableEq, Inhabited

namespace CallPhase

/-- A call after all sleepers have been woken. -/
def notified : CallPhase → CallPhase
  | asleep fault => woken fault
  | phase => phase

/-- Whether the call holds the mutex. -/
def holds : CallPhase → Bool
  | holding _ => true
  | _ => false

/-- Whether the call sleeps. -/
def sleeps : CallPhase → Bool
  | asleep _ => true
  | _ => false

/-- The result of a call that has ended. -/
def result? : CallPhase → Option (Option Fault)
  | done fault => some fault
  | _ => none

end CallPhase

/-- What one step of a call did. -/
structure GateStep (σ : Type) where
  gate : Gate σ
  phase : CallPhase
  /-- whether all sleepers are woken -/
  wakesAll : Bool := false
  /-- what was logged, in order -/
  events : List Event := []
  /-- what the sink was called for, in order -/
  calls : List SinkCall := []

namespace Gate

variable {σ : Type}

/-- The gate after a call has taken the mutex and cleared its poison. -/
def taken (g : Gate σ) : Gate σ := { g with locked := true, poisoned := false }

/-- The gate after a call has released the mutex. -/
def released (g : Gate σ) : Gate σ := { g with locked := false }

/-- A holder of the mutex panics without touching what it guards. -/
def poison (g : Gate σ) : Gate σ := { g with poisoned := true }

/-- The fault that taking the mutex reveals. -/
def poisonFault (g : Gate σ) : Option Fault :=
  if g.poisoned then some (.poisoned .retire) else none

/-- The next step of a call that wants to retire an item with the given output, for the thread
`thread`; `none` while the call has to wait and when it has ended. -/
def advance? (k : Sink σ) (thread item : Nat) (output : List UInt8) (g : Gate σ) :
    CallPhase → Option (GateStep σ)
  | .arriving =>
      if g.locked then none
      else some {
        gate := g.taken
        phase := .holding g.poisonFault
        events := (if g.poisoned then [.recovering .retire] else [])
          ++ [.waiting thread item g.next] }
  | .woken fault =>
      if g.locked then none
      else some {
        gate := g.taken
        phase := .holding (fault.or g.poisonFault)
        events := if g.poisoned then [.recoveringAwake] else [] }
  | .holding fault =>
      if g.next = item then
        some {
          gate := { g with
            next := item + 1
            sink := (k.retire g.sink output).state
            locked := false }
          phase := .done (fault.or (k.retire g.sink output).fault)
          wakesAll := true
          events := [.retiring thread item]
          calls := (k.retire g.sink output).calls }
      else some { gate := g.released, phase := .asleep fault }
  | .asleep _ => none
  | .done _ => none

/-- A call can go on unless it sleeps, has ended, or wants a mutex that another call holds. -/
theorem advance?_isSome_iff (k : Sink σ) (thread item : Nat) (output : List UInt8) (g : Gate σ)
    (phase : CallPhase) :
    (g.advance? k thread item output phase).isSome ↔
      match phase with
      | .arriving | .woken _ => g.locked = false
      | .holding _ => True
      | .asleep _ | .done _ => False := by
  cases phase <;> simp only [advance?] <;> (try split) <;> simp_all

end Gate

end OrderedDispatch
