/-
**What a worker is going to hand over.**

While the work of an item goes on, what is written so far and what is still to be done fix the
output that the item will have and the way in which it will end; the steps of the work do not change
that.  So a worker carries a parcel from the moment it claims an item until the item is retired, and
the parcel is what its script says.

Main definitions:

* `Step.effect?` — what a step of an item's work does, if it does not end the work;
* `Script.endsNow?` — how the work ends, if it ends at once;
* `Parcel`, `Phase.parcel?` — an item with its whole output and its ending, and the parcel that a
  worker carries.

Main results:

* `Step.effect?_output`, `Script.ending_of_endsNow?` — a step changes neither the output nor the
  ending that the work comes to.
-/

import OrderedDispatch.Dispatch.Basic

set_option relaxedAutoImplicit false
set_option autoImplicit false

namespace OrderedDispatch

/-! ### Steps of the work of an item -/

/-- What a step that does not end the work makes of the session and of the output, and what it
leaves in the history. -/
def Step.effect? (session : Session) (output : List UInt8) :
    Step → Option (Session × List UInt8 × List Entry)
  | write bytes => some (session, output ++ bytes, [])
  | note event => some (session, output, Dispatch.inside session [event])
  | hook h => some (session.onClose h, output, [])
  | allStarted => some (session, output, [])
  | ended _ => some (session, output, [])
  | fail _ => none
  | panic => none
  | kill => none

/-- Whether a step waits for other items. -/
def Step.isWait : Step → Bool
  | allStarted => true
  | ended _ => true
  | _ => false

/-- How the work ends if it ends at once. -/
def Script.endsNow? : Script → Option Ending
  | [] => some .succeeded
  | .fail message :: _ => some (.failed message)
  | .panic :: _ => some .panicked
  | .kill :: _ => some .killed
  | _ => none

theorem Script.ending_of_endsNow? {todo : Script} {e : Ending} (h : todo.endsNow? = some e) :
    todo.output = [] ∧ todo.ending = e := by
  cases todo with
  | nil => exact ⟨rfl, Option.some.inj h⟩
  | cons step rest =>
      cases step <;> simp_all [Script.endsNow?, Script.output, Script.ending]

section Effect

variable {step : Step} {session session' : Session} {output output' : List UInt8}
  {es : List Entry}

/-- The session stays the session of its item. -/
theorem Step.effect?_session (h : step.effect? session output = some (session', output', es)) :
    session'.item = session.item ∧ session'.thread = session.thread := by
  cases step <;> simp only [Step.effect?, Option.some.injEq, Prod.mk.injEq, reduceCtorEq] at h <;>
    obtain ⟨rfl, -, -⟩ := h <;> exact ⟨rfl, rfl⟩

/-- A step that does not end the work leaves what the work comes to. -/
theorem Step.effect?_output (h : step.effect? session output = some (session', output', es))
    (todo : Script) :
    output' ++ todo.output = output ++ Script.output (step :: todo)
      ∧ todo.ending = Script.ending (step :: todo) := by
  cases step <;> simp only [Step.effect?, Option.some.injEq, Prod.mk.injEq, reduceCtorEq] at h <;>
    obtain ⟨-, rfl, -⟩ := h <;> simp [Script.output, Script.ending]

/-- A step that does not end the work only logs. -/
theorem Step.effect?_entries (h : step.effect? session output = some (session', output', es)) :
    ∃ events, es = Dispatch.inside session events := by
  cases step <;> simp only [Step.effect?, Option.some.injEq, Prod.mk.injEq, reduceCtorEq] at h <;>
    obtain ⟨-, -, rfl⟩ := h
  case note event => exact ⟨[event], rfl⟩
  all_goals exact ⟨[], rfl⟩

end Effect

/-! ### The parcel of a worker -/

/-- What a worker is going to hand over at the gate: an item, its whole output, and how its work
ends. -/
structure Parcel where
  item : Nat
  output : List UInt8
  ending : Ending
  deriving DecidableEq, Inhabited

namespace Phase

/-- The item whose work is going on. -/
def busy? : Phase → Option Nat
  | working session _ _ => some session.item
  | _ => none

/-- What the worker is going to hand over. -/
def parcel? : Phase → Option Parcel
  | working session todo output => some ⟨session.item, output ++ todo.output, todo.ending⟩
  | retiring item output ending _ => some ⟨item, output, ending⟩
  | _ => none

@[simp] theorem notified_item? (p : Phase) : p.notified.item? = p.item? := by
  cases p <;> rfl

@[simp] theorem notified_busy? (p : Phase) : p.notified.busy? = p.busy? := by
  cases p <;> rfl

@[simp] theorem notified_parcel? (p : Phase) : p.notified.parcel? = p.parcel? := by
  cases p <;> rfl

@[simp] theorem notified_isFinal (p : Phase) : p.notified.isFinal = p.isFinal := by
  cases p <;> rfl

/-- A worker hands over the item that it holds. -/
theorem item?_eq_parcel? (p : Phase) : p.item? = p.parcel?.map Parcel.item := by
  cases p <;> rfl

/-- A worker holds the item whose work is going on. -/
theorem item?_of_busy? {p : Phase} {i : Nat} (h : p.busy? = some i) : p.item? = some i := by
  cases p <;> first | exact h | cases h

/-- A worker that will take no further step holds no item. -/
theorem item?_of_isFinal {p : Phase} (h : p.isFinal = true) : p.item? = none := by
  cases p <;> first | rfl | cases h

end Phase

end OrderedDispatch
