/-
**Child processes.**

A program is started with arguments and variables, with nothing to read, and runs to its end; what
it prints is collected.  The programs at hand are the shell and the utilities that command lines
call.  Starting fails if an argument holds the byte that ends arguments, or if there is no program
of that name.

Main definitions:

* `Launch`, `LaunchError` — what is to be started, and why it cannot be;
* `Completed` — how a process ended and what it printed;
* `Launch.run` — the whole life of a process.

Main results:

* `Launch.run_of_nul` — an argument with that byte in it is refused before anything else.
-/

import OrderedDispatch.Command.ExitStatus
import OrderedDispatch.Shell.Evaluate

set_option relaxedAutoImplicit false
set_option autoImplicit false

namespace OrderedDispatch

/-- A program to be started. -/
structure Launch where
  /-- its name or its path -/
  program : List Char
  args : List (List Char)
  /-- the variables that it inherits -/
  environment : List (List Char × List Char) := []
  files : FileTree := {}
  /-- the directory that it works in -/
  here : FilePath := []
  deriving Inhabited

/-- Why a program was not started: the byte that ends arguments occurs inside of one, or the system
refused. -/
inductive LaunchError where
  | nulByte
  | system (e : SystemError)
  deriving DecidableEq, Inhabited

/-- The failure in words. -/
def LaunchError.message : LaunchError → String
  | .nulByte => "nul byte found in provided data"
  | .system e => e.message

/-- A process that has ended. -/
structure Completed where
  status : ExitStatus
  /-- what it printed -/
  out : List UInt8
  /-- what it printed besides, for the user to see -/
  err : List UInt8
  deriving DecidableEq, Inhabited

namespace Launch

/-- Whether a text holds the byte that ends arguments. -/
def holdsNul (s : List Char) : Bool := s.contains '\x00'

/-- A bound on the steps of a process that is far beyond what a command line may take. -/
def patience : Nat := 10000000

/-- The number of the first process. -/
def firstProcess : Nat := 4096

/-- The state that a program starts in. -/
def start (l : Launch) : Shell.State :=
  let inherited := l.environment.map fun v => (Shell.Octets.ofText v.1, Shell.Octets.ofText v.2)
  { bindings := inherited.reverse
    exported := inherited.map Prod.fst
    files := l.files
    here := l.here
    process := firstProcess }

/-- Why there is no program to start. -/
def refusal (l : Launch) : SystemError :=
  let s := l.start
  if !l.program.contains '/' then
    if l.program = ['.'] || l.program = ['.', '.'] then .permissionDenied else .notFound
  else if (s.scene.kindOf (Shell.Octets.ofText l.program)).isSome then .permissionDenied
  else
    match l.files.read l.here (.ofText l.program) with
    | .error .notADirectory => .notADirectory
    | _ => .notFound

/-- Whether there is a program to start. -/
def isKnown (l : Launch) : Bool :=
  let name := Shell.Utility.knownAs l.program
  ((Shell.Evaluate.shellNamed? l.program).isSome || (Shell.Utility.find? name).isSome
      || name = "env".toList)
    && (name ≠ l.program || Shell.Utility.searches (l.start.value? "PATH".toList))

/-- What the process does. -/
def body (l : Launch) : Shell.Run Unit :=
  let args := l.args.map Shell.Octets.ofText
  match Shell.Evaluate.shellNamed? l.program with
  | some escapes => do
      modify fun s => { s with name := l.program, escapes := escapes }
      Shell.Evaluate.invoke patience args
  | none => Shell.Evaluate.program patience l.program args

/-- How a process ended whose computation came to an outcome in a state. -/
def statusOf (r : Except Shell.Stop Unit) (s : Shell.State) : ExitStatus :=
  match r with
  | .error (.killed _ signal) => .killed signal
  | .error .unfinished => .killed 9
  | _ => .exited s.status

/-- Starts the program and runs it to its end. -/
def run (l : Launch) : Except LaunchError Completed :=
  if holdsNul l.program || l.args.any holdsNul then .error .nulByte
  else if !l.isKnown then .error (.system l.refusal)
  else
    let (r, s) := l.body.run l.start
    .ok ⟨statusOf r s, Shell.Octets.toBytes (s.textOf 0), Shell.Octets.toBytes (s.textOf 1)⟩

/-- An argument with the byte that ends arguments is refused before anything else. -/
theorem run_of_nul {l : Launch} (h : l.args.any holdsNul = true) : l.run = .error .nulByte := by
  simp [run, h]

end Launch

end OrderedDispatch
