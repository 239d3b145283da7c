/-
**What goes wrong underneath a dispatch.**

A worker meets three kinds of trouble that do not come from its item: the mutex of a cursor may be
poisoned, a call of the sink may report an error, and a call of the sink may panic.  None of them
stops the cursor operation; it completes and hands the fault to its caller.

Main definitions:

* `SystemError`, `IoError` — why a call to the outside failed;
* `Lock` — the two mutexes of a dispatch;
* `Fault` — what a cursor operation reports.
-/

set_option relaxedAutoImplicit false
set_option autoImplicit false

namespace OrderedDispatch

/-- An error of the operating system.  A pipe is broken if nobody reads from its other end. -/
inductive SystemError where
  | notFound
  | permissionDenied
  | notADirectory
  | isADirectory
  | brokenPipe
  deriving DecidableEq, Inhabited

/-- The number by which the system knows the error. -/
def SystemError.code : SystemError → Nat
  | .notFound => 2
  | .permissionDenied => 13
  | .notADirectory => 20
  | .isADirectory => 21
  | .brokenPipe => 32

/-- The system's own words for the error. -/
def SystemError.description : SystemError → String
  | .notFound => "No such file or directory"
  | .permissionDenied => "Permission denied"
  | .notADirectory => "Not a directory"
  | .isADirectory => "Is a directory"
  | .brokenPipe => "Broken pipe"

/-- A system error as messages show it: the description, then the number. -/
def SystemError.message (e : SystemError) : String :=
  e.description ++ " (os error " ++ toString e.code ++ ")"

/-- Why reading or writing failed: the operating system refused, the call was interrupted before it
moved a byte, the other end took no byte although some were offered, or any other reason, in its own
words. -/
inductive IoError where
  | system (e : SystemError)
  | interrupted
  | shortWrite
  | other (text : String)
  deriving DecidableEq, Inhabited

/-- The error as messages show it. -/
def IoError.message : IoError → String
  | .system e => e.message
  | .interrupted => "interrupted"
  | .shortWrite => "failed to write whole buffer"
  | .other text => text

/-- The two mutexes of a dispatch: one guards the number of items handed out, the other the number
of items retired, and the sink. -/
inductive Lock where
  | take
  | retire
  deriving DecidableEq, Inhabited

/-- The name of a lock in messages. -/
def Lock.name : Lock → String
  | .take => "take"
  | .retire => "retire"

/-- What an operation on a cursor reports although it completed: a panic of its holder had poisoned
the lock, the sink reported an error, or the sink panicked. -/
inductive Fault where
  | poisoned (lock : Lock)
  | sink (e : IoError)
  | sinkPanicked
  deriving DecidableEq, Inhabited

/-- The fault as messages show it. -/
def Fault.message : Fault → String
  | .poisoned lock => lock.name ++ " lock was poisoned"
  | .sink e => "failed to write output: " ++ e.message
  | .sinkPanicked => "output sink panicked"

end OrderedDispatch
