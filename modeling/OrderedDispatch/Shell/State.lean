/-
**The state of a shell.**

A shell holds variables, functions and arguments, the status of its last command, the input that is
still unread and the descriptors that commands write to.  What is written goes to numbered streams:
the first two are the output and the complaints of the whole shell, and every captured command gets
one of its own.  A command leaves the shell by a stop: it ends a loop, a function or the shell, or a
signal ends everything.

Main definitions:

* `State` — a shell;
* `Stop`, `Run` — why a command does not go on, and a computation with a shell;
* `Run.emit`, `Run.capture`, `Run.apart` — writing, catching what is written, and running a copy of
  the shell.
-/

import OrderedDispatch.Shell.Node
import OrderedDispatch.Shell.Utility

set_option relaxedAutoImplicit false
set_option autoImplicit false

namespace OrderedDispatch.Shell

/-- Where a descriptor leads. -/
inductive Channel where
  | nowhere
  | stream (number : Nat)
  | file (path : FilePath)
  deriving DecidableEq, Inhabited

/-- A shell. -/
structure State where
  /-- what the shell is called in its complaints -/
  name : List Char := "sh".toList
  /-- whether the shell's own printing command replaces escapes -/
  escapes : Bool := true
  /-- the variables with their values, the latest assignment first -/
  bindings : List (List Char × List Char) := []
  /-- the names of the variables that utilities see -/
  exported : List (List Char) := []
  arguments : List (List Char) := []
  functions : List (List Char × Node) := []
  /-- what to do when a signal arrives, or at the end, which counts as number zero -/
  traps : List (Nat × List Char) := []
  /-- the letters of the options that are set -/
  options : List Char := []
  status : Nat := 0
  /-- the status of the latest command whose output was captured -/
  captured : Nat := 0
  input : List Char := []
  channels : List (Nat × Channel) := [(1, .stream 0), (2, .stream 1)]
  /-- what was written, the latest first -/
  written : List (Nat × List Char) := []
  /-- the number of streams in use -/
  streams : Nat := 2
  files : FileTree := {}
  here : FilePath := []
  /-- the number of the process -/
  process : Nat := 4096
  /-- the number of loops that are running inside of each other -/
  loops : Nat := 0
  /-- signals that have arrived and have a trap -/
  pending : List Nat := []
  /-- the variables of the running function, with the values to give back to them -/
  locals : List (List Char × Option (List Char)) := []
  deriving Inhabited

/-- Why a command does not go on: the shell ends with its status; so many loops end, or the last of
so many goes into its next round; the function ends with the shell's status; a signal ends a
process; or the bound on the steps is used up. -/
inductive Stop where
  | exit
  | leave (loops : Nat)
  | again (loops : Nat)
  | giveBack
  | killed (process signal : Nat)
  | unfinished
  deriving DecidableEq, Inhabited

/-- A computation with a shell. -/
abbrev Run := ExceptT Stop (StateM State)

namespace State

/-- The value of a variable. -/
def value? (s : State) (name : List Char) : Option (List Char) :=
  (s.bindings.find? fun v => v.1 = name).map Prod.snd

/-- A shell in which a variable has a value. -/
def assign (s : State) (name value : List Char) : State :=
  { s with
    bindings := (name, value) :: s.bindings.filter (·.1 ≠ name)
    exported := if s.options.contains 'a' && !s.exported.contains name then name :: s.exported
      else s.exported }

/-- A variable has the value that was assigned last. -/
theorem value?_assign (s : State) (name value : List Char) :
    (s.assign name value).value? name = some value := by
  simp [value?, assign]

/-- A shell without a variable. -/
def unassign (s : State) (name : List Char) : State :=
  { s with
    bindings := s.bindings.filter (·.1 ≠ name)
    exported := s.exported.filter (· ≠ name) }

/-- The variables that utilities see. -/
def environment (s : State) : List (List Char × List Char) :=
  s.bindings.reverse.filter fun v => s.exported.contains v.1

/-- What a utility sees. -/
def scene (s : State) : Utility.Scene :=
  { files := s.files, here := s.here, environment := s.environment }

/-- Where a descriptor leads. -/
def channel (s : State) (descriptor : Nat) : Channel :=
  ((s.channels.find? fun c => c.1 = descriptor).map Prod.snd).getD .nowhere

/-- A shell in which a descriptor leads somewhere else. -/
def redirect (s : State) (descriptor : Nat) (c : Channel) : State :=
  { s with channels := (descriptor, c) :: s.channels.filter (·.1 ≠ descriptor) }

/-- The text that was written to a stream. -/
def textOf (s : State) (stream : Nat) : List Char :=
  ((s.written.filter fun w => w.1 = stream).reverse.map Prod.snd).flatten

end State

/-- The file tree in which a file holds some more bytes. -/
def appendTo (t : FileTree) (path : FilePath) (bytes : List UInt8) : FileTree :=
  if (t.file? path).isSome then
    { t with files := t.files.map fun f => if f.1 = path then (path, f.2 ++ bytes) else f }
  else { t with files := t.files ++ [(path, bytes)] }

namespace Run

/-- Writes to a descriptor. -/
def emit (descriptor : Nat) (text : List Char) : Run Unit :=
  modify fun s =>
    match s.channel descriptor with
    | .nowhere => s
    | .stream n => if text.isEmpty then s else { s with written := (n, text) :: s.written }
    | .file path => { s with files := appendTo s.files path (Octets.toBytes text) }

/-- Sets the status. -/
def setStatus (n : Nat) : Run Unit := modify fun s => { s with status := n % 256 }

/-- A line of the shell about itself. -/
def complain (text : List Char) : Run Unit := do
  emit 2 ((← get).name ++ ": 1: ".toList ++ text ++ ['\n'])

/-- Ends the shell with a status. -/
def exit {α : Type} (status : Nat) : Run α := do
  setStatus status
  throw .exit

/-- Ends the shell with a complaint. -/
def abort {α : Type} (text : List Char) : Run α := do
  complain text
  exit 2

/-- Runs a copy of the shell: what it writes stays, and so do files, but of its other changes only
the status. -/
def apart (body : Run Unit) : Run Unit := fun s =>
  let (r, t) := body.run { s with traps := s.traps.filter fun a => a.2.isEmpty }
  let back := { s with
    status := t.status, written := t.written, streams := t.streams, files := t.files }
  match r with
  | .error (.killed p signal) => (.error (.killed p signal), back)
  | .error .unfinished => (.error .unfinished, back)
  | _ => (.ok (), back)

/-- Runs with another input, of which nothing is left over. -/
def withInput (input : List Char) (body : Run Unit) : Run Unit := fun s =>
  let (r, t) := body.run { s with input := input }
  (r, { t with input := s.input })

/-- What a copy of the shell writes to its output. -/
def capture (body : Run Unit) : Run (List Char) := fun s =>
  let stream := s.streams
  let start := { s.redirect 1 (.stream stream) with streams := stream + 1, written := [] }
  let (r, t) := (apart body).run start
  let back := { s with
    status := t.status, files := t.files
    written := t.written.filter (·.1 ≠ stream) ++ s.written }
  match r with
  | .ok () => (.ok (t.textOf stream), back)
  | .error stop => (.error stop, back)

end Run

end OrderedDispatch.Shell
