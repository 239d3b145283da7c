/-
**What a dispatch says about itself.**

Every event of the log is a value of one type.  Its wording, its level and the part of the program
that speaks are functions of it, so that a statement about the log can speak of events and not of
texts.

Main definitions:

* `Level` — how urgent an event is, the most urgent first;
* `Event` — the events, with what they mention;
* `Event.message`, `Event.level`, `Event.target` — the text, the level and the speaker.
-/

import OrderedDispatch.Fault

set_option relaxedAutoImplicit false
set_option autoImplicit false

namespace OrderedDispatch

/-- How urgent an event is. -/
inductive Level where
  | error
  | warn
  | info
  | debug
  | trace
  deriving DecidableEq, Inhabited

/-- The rank of a level: the more urgent, the lower. -/
def Level.rank : Level → Nat
  | .error => 1
  | .warn => 2
  | .info => 3
  | .debug => 4
  | .trace => 5

/-- The level in lower case. -/
def Level.name : Level → String
  | .error => "error"
  | .warn => "warn"
  | .info => "info"
  | .debug => "debug"
  | .trace => "trace"

/-- The events of the log, each with what it mentions.  Recovering means that a lock was found
poisoned and is used all the same; an exit note tells how the command of an item ended. -/
inductive Event where
  | memoryUnknown
  | estimated (threads mebibytes budget : Nat)
  | creating (threads items : Nat)
  | notStarted (thread : Nat) (reason : String)
  | starting (thread : Nat)
  | recovering (lock : Lock)
  | recoveringAwake
  | claimFault (thread : Nat) (fault : Fault)
  | taking (thread item : Nat)
  | sessionOpened
  | sessionClosed
  | hookPanicked
  | running (command : String)
  | exitNote (text : String)
  | itemFailed (thread item : Nat) (message : String)
  | itemPanicked (thread item : Nat)
  | waiting (thread item next : Nat)
  | retiring (thread item : Nat)
  | retireFault (thread item : Nat) (fault : Fault)
  | exiting (thread : Nat) (failed : Bool)
  | notJoined (thread : Nat)
  | dispatched (items threads : Nat)
  | finishedWithFaults (failed dead : Nat)
  deriving DecidableEq, Inhabited

namespace Event

/-- The event in words. -/
def message : Event → String
  | memoryUnknown => "available memory unknown, using a single thread"
  | estimated threads mebibytes budget =>
      s!"estimated {threads} threads ({mebibytes} MiB available, {budget} MiB per thread)"
  | creating threads items => s!"creating {threads} threads for {items} items"
  | notStarted thread reason => s!"failed to start worker thread {thread}: " ++ reason
  | starting thread => s!"thread {thread}: starting"
  | recovering lock => lock.name ++ " lock poisoned, recovering"
  | recoveringAwake => "retire lock poisoned while waiting, recovering"
  | claimFault thread fault => s!"thread {thread}: " ++ fault.message
  | taking thread item => s!"thread {thread}: taking item {item}"
  | sessionOpened => "session opened"
  | sessionClosed => "session closed"
  | hookPanicked => "close hook panicked"
  | running command => "running: " ++ command
  | exitNote text => text
  | itemFailed thread item reason => s!"thread {thread}: item {item} failed: " ++ reason
  | itemPanicked thread item => s!"thread {thread}: item {item} panicked"
  | waiting thread item next =>
      s!"thread {thread}: waiting to retire item {item} (next to retire {next})"
  | retiring thread item => s!"thread {thread}: retiring item {item}"
  | retireFault thread item fault => s!"thread {thread}: retiring item {item}: " ++ fault.message
  | exiting thread failed =>
      s!"thread {thread}: exiting (" ++ (if failed then "Failure" else "Success") ++ ")"
  | notJoined thread => s!"worker thread {thread} could not be joined"
  | dispatched items threads => s!"dispatched {items} items on {threads} threads"
  | finishedWithFaults failed dead =>
      s!"dispatch finished with {failed} failed threads and {dead} join failures"

/-- The level of the event.  What only tells of progress is `info` when the settings ask for it and
`debug` otherwise. -/
def level (verbose : Bool) : Event → Level
  | creating .. | starting .. | taking .. | running .. | exiting .. | dispatched .. =>
      if verbose then .info else .debug
  | memoryUnknown | estimated .. => .debug
  | sessionOpened | sessionClosed | exitNote .. | waiting .. | retiring .. => .trace
  | itemFailed .. | finishedWithFaults .. => .warn
  | notStarted .. | recovering .. | recoveringAwake | claimFault .. | hookPanicked
  | itemPanicked .. | retireFault .. | notJoined .. => .error

/-- The part of the program that logs the event, by the name that log filters use for it. -/
def target : Event → String
  | memoryUnknown | estimated .. => "orderly::parallel::estimate"
  | recovering .. | recoveringAwake | waiting .. | retiring .. => "orderly::parallel::cursor"
  | sessionOpened | sessionClosed | hookPanicked => "orderly::parallel::session"
  | running .. | exitNote .. => "orderly::runner"
  | _ => "orderly::parallel::dispatcher"

/-- An event that reports trouble: a warning or an error. -/
def isTrouble (e : Event) : Bool := (e.level false).rank ≤ Level.warn.rank

end Event

end OrderedDispatch
