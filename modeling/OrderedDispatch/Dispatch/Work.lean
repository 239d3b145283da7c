/-
**The work of an item.**

What an item does, as the pool sees it, is a list of steps: it fills its own output buffer, logs,
ties hooks to its session, waits for other items, and may end early by failing or panicking.  An
item whose list runs out has succeeded.  What was written before an early end is kept.

Main definitions:

* `Step` — one step of an item's work;
* `Ending` — how the work of an item ended;
* `Script`, `Script.output`, `Script.ending` — a whole list, and what it comes to if no wait blocks.

Main results:

* `Script.output_cons_write`, `Script.ending_nil` — the buffer grows by what is written, and running
  out of steps is success.
-/

import OrderedDispatch.Session.Basic

set_option relaxedAutoImplicit false
set_option autoImplicit false

namespace OrderedDispatch

/-- One step of an item's work: to append to the output, to log something, to register a hook with
the session, to wait until every item has started or until the work of another one has ended, or to
end with an error or by a panic.  The panic of `kill` goes off again when it is cleaned up, which
kills the thread. -/
inductive Step where
  | write (bytes : List UInt8)
  | note (event : Event)
  | hook (h : Hook)
  | allStarted
  | ended (item : Nat)
  | fail (message : String)
  | panic
  | kill
  deriving DecidableEq, Inhabited

/-- How the work of an item ended.  If it was killed, the thread dies once the item has been
retired. -/
inductive Ending where
  | succeeded
  | failed (message : String)
  | panicked
  | killed
  deriving DecidableEq, Inhabited

namespace Ending

/-- Whether the work ended in any way but success. -/
def isFault : Ending → Bool
  | succeeded => false
  | _ => true

/-- Whether the thread dies at the end of its turn. -/
def isFatal : Ending → Bool
  | killed => true
  | _ => false

/-- What is logged about the ending. -/
def events (thread item : Nat) : Ending → List Event
  | succeeded => []
  | failed message => [.itemFailed thread item message]
  | panicked => [.itemPanicked thread item]
  | killed => [.itemPanicked thread item]

end Ending

/-- The whole work of an item. -/
abbrev Script := List Step

namespace Script

/-- What the work leaves in the buffer. -/
def output : Script → List UInt8
  | [] => []
  | .write bytes :: rest => bytes ++ output rest
  | .fail _ :: _ => []
  | .panic :: _ => []
  | .kill :: _ => []
  | .note _ :: rest => output rest
  | .hook _ :: rest => output rest
  | .allStarted :: rest => output rest
  | .ended _ :: rest => output rest

/-- How the work ends. -/
def ending : Script → Ending
  | [] => .succeeded
  | .fail message :: _ => .failed message
  | .panic :: _ => .panicked
  | .kill :: _ => .killed
  | .write _ :: rest => ending rest
  | .note _ :: rest => ending rest
  | .hook _ :: rest => ending rest
  | .allStarted :: rest => ending rest
  | .ended _ :: rest => ending rest

@[simp] theorem output_nil : output [] = [] := rfl

@[simp] theorem output_cons_write (bytes : List UInt8) (rest : Script) :
    output (.write bytes :: rest) = bytes ++ output rest := rfl

@[simp] theorem ending_nil : ending [] = .succeeded := rfl

end Script

end OrderedDispatch
