/-
**The session of an item.**

Each item runs in a session of its own, opened for one item on one thread and closed when its work
has ended, however it ended.  The work may tie clean-up hooks to the session; closing runs them in
reverse order of registration, and a hook that panics stops neither the others nor the closing.

Main definitions:

* `Settings` — the two flags that every session inherits;
* `Hook`, `Session` — a registered hook, and a session with the hooks still to run;
* `Session.identifier` — the label of a session;
* `Session.describe` — a session in full, for diagnostics;
* `Session.hooksInOrder` — the hooks in the order in which closing runs them.
-/

import OrderedDispatch.Event

set_option relaxedAutoImplicit false
set_option autoImplicit false

namespace OrderedDispatch

/-- The flags that a dispatch hands to each of its sessions. -/
structure Settings where
  /-- log when a session begins and ends -/
  trace : Bool := false
  /-- log progress at the level `info` -/
  verbose : Bool := false
  deriving DecidableEq, Inhabited

/-- A clean-up registered with a session. -/
structure Hook where
  /-- what the hook calls itself -/
  label : String
  /-- whether it panics when it has run -/
  panics : Bool
  deriving DecidableEq, Inhabited

/-- An open session: whose it is, the flags it inherited, and its hooks, the latest first. -/
structure Session where
  thread : Nat
  item : Nat
  settings : Settings
  hooks : List Hook := []
  deriving DecidableEq, Inhabited

namespace Session

/-- The label of the session that a thread opens for an item. -/
def label (thread item : Nat) : String := s!"thread_{thread}_item_{item}"

/-- The label of a session. -/
def identifier (s : Session) : String := label s.thread s.item

/-- A session with one more hook. -/
def onClose (s : Session) (h : Hook) : Session := { s with hooks := h :: s.hooks }

/-- The hooks in the order in which closing runs them: the latest registered first. -/
def hooksInOrder (s : Session) : List Hook := s.hooks

/-- What opening a session logs. -/
def openingEvents (settings : Settings) : List Event :=
  if settings.trace then [.sessionOpened] else []

/-- What running a hook logs. -/
def hookEvents (h : Hook) : List Event := if h.panics then [.hookPanicked] else []

/-- What closing a session logs once its hooks have run. -/
def closingEvents (settings : Settings) : List Event :=
  if settings.trace then [.sessionClosed] else []

/-- Everything that closing a session logs. -/
def closeEvents (s : Session) : List Event :=
  s.hooksInOrder.flatMap hookEvents ++ closingEvents s.settings

/-- The session in full, for diagnostics. -/
def describe (s : Session) : String :=
  "Session \x7b identifier: \"" ++ s.identifier ++ "\", settings: SessionSettings \x7b trace: "
    ++ toString s.settings.trace ++ ", verbose: " ++ toString s.settings.verbose
    ++ " \x7d, close_hooks: " ++ toString s.hooks.length ++ " \x7d"

end Session

end OrderedDispatch
