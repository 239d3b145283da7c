/-
**A place for one open session.**

A slot holds at most one session.  Opening puts a new session into the slot and only then closes
the one that it replaces; closing empties the slot.  Whatever is closed runs its hooks at that
moment and at no other.

Main definitions:

* `Slot.Operation` — open, register a hook, close;
* `Slot.Effect` — the hooks run and the events logged by an operation;
* `Slot.apply`, `Slot.finish` — one operation on a slot, and what its end closes.
-/

import OrderedDispatch.Session.Basic

set_option relaxedAutoImplicit false
set_option autoImplicit false

namespace OrderedDispatch

/-- A place that holds at most one open session. -/
abbrev Slot := Option Session

namespace Slot

/-- What can be done to a slot: to open a session in it and then close the one that was there, to
register a hook with its session, or to close its session if there is one. -/
inductive Operation where
  | opening (thread item : Nat) (settings : Settings)
  | hook (h : Hook)
  | closing
  deriving DecidableEq, Inhabited

/-- What an operation did besides changing the slot. -/
structure Effect where
  /-- the labels of the hooks run, in order -/
  hooksRun : List String
  /-- the events logged, in order -/
  events : List Event
  deriving DecidableEq, Inhabited

/-- What closing the session in a slot does. -/
def release : Slot → Effect
  | none => ⟨[], []⟩
  | some s => ⟨s.hooksInOrder.map Hook.label, s.closeEvents⟩

/-- One operation on a slot; `none` for a hook where no session is open. -/
def apply (slot : Slot) : Operation → Option (Slot × Effect)
  | .opening thread item settings =>
      let released := release slot
      some (some { thread, item, settings },
        ⟨released.hooksRun, Session.openingEvents settings ++ released.events⟩)
  | .hook h => slot.map fun s => (some (s.onClose h), ⟨[], []⟩)
  | .closing => some (none, release slot)

/-- What is closed when the slot itself comes to its end. -/
def finish (slot : Slot) : Effect := release slot

end Slot

end OrderedDispatch
