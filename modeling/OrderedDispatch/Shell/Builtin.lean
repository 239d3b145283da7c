/-
**The shell's own commands.**

These commands change the shell itself or answer from its state: they set and unset variables,
options and traps, read a line of the input, leave loops and functions, end the shell, and send
signals.  Some of them are special: what is assigned in front of them stays assigned.

Main definitions:

* `Signal.number?`, `Signal.isHarmless` — the names of signals, and what they do by default;
* `Builtin.find?` — the command of a name;
* `Builtin.isSpecial` — the special ones.
-/

import OrderedDispatch.Shell.Expansion
import OrderedDispatch.Shell.Reader

set_option relaxedAutoImplicit false
set_option autoImplicit false

namespace OrderedDispatch.Shell

namespace Signal

/-- The names of the signals, the first one for number one. -/
def names : List String :=
  ["HUP", "INT", "QUIT", "ILL", "TRAP", "ABRT", "BUS", "FPE", "KILL", "USR1", "SEGV", "USR2",
    "PIPE", "ALRM", "TERM", "STKFLT", "CHLD", "CONT", "STOP", "TSTP", "TTIN", "TTOU", "URG", "XCPU",
    "XFSZ", "VTALRM", "PROF", "WINCH", "IO", "PWR", "SYS"]

/-- The greatest number of a signal. -/
def greatest : Nat := 64

/-- The signal of a number or a name. -/
def number? (w : List Char) : Option Nat :=
  match Utility.count? w with
  | some n => if n ≤ greatest then some n else none
  | none =>
      let name := String.ofList w
      if name = "EXIT" then some 0 else (names.idxOf? name).map (· + 1)

/-- Signals that end no process. -/
def isHarmless (n : Nat) : Bool := [0, 17, 18, 19, 20, 21, 22, 23, 28].contains n

/-- Signals that no process can trap. -/
def isInescapable (n : Nat) : Bool := n = 9 || n = 19

end Signal

namespace Builtin

/-- A command of the shell. -/
abbrev Command := (args : List (List Char)) → Run Unit

/-- The number that a word of digits spells, if it is small enough for a status. -/
def statusOf? (w : List Char) : Option Nat := (Utility.count? w).filter (· < 2147483648)

/-- The status that a command is given, or else the shell's own. -/
def givenStatus (args : List (List Char)) : Run Nat := do
  match args with
  | [] => return (← get).status
  | w :: _ =>
      match statusOf? w with
      | some n => return n
      | none => Run.abort ("Illegal number: ".toList ++ w)

/-- Ends the shell. -/
def exit : Command := fun args => do Run.exit (← givenStatus args)

/-- Ends the function. -/
def giveBack : Command := fun args => do
  Run.setStatus (← givenStatus args)
  throw .giveBack

/-- Stops loops, by the way that is given; outside of loops nothing happens. -/
def stopLoops (stop : Nat → Stop) : Command := fun args => do
  let n ← match args with
    | [] => pure 1
    | w :: _ =>
        match statusOf? w with
        | some (n + 1) => pure (n + 1)
        | _ => Run.abort ("Illegal number: ".toList ++ w)
  Run.setStatus 0
  let loops := (← get).loops
  if loops ≠ 0 then throw (stop (min n loops))

/-- Prints the arguments. -/
def echo : Command := fun args => do
  let text := if (← get).escapes then Format.echoed args else Format.echoedPlainly args
  Run.emit 1 text
  Run.setStatus 0

/-- The name in an assignment, and the value if there is one. -/
def nameAndValue (w : List Char) : List Char × Option (List Char) :=
  match w.dropWhile (· ≠ '=') with
  | _ :: value => (w.takeWhile (· ≠ '='), some value)
  | [] => (w, none)

/-- Whether a word is a name. -/
def isName (w : List Char) : Bool := !w.isEmpty && Reader.name w = (w, [])

/-- Gives values to variables and does something with each of their names. -/
def declare (mark : State → List Char → State) : Command := fun args => do
  for w in args do
    let (name, value) := nameAndValue w
    if !isName name then Run.abort (w ++ ": bad variable name".toList)
    modify fun s =>
      let s := mark s name
      match value with
      | some v => s.assign name v
      | none => s
  Run.setStatus 0

/-- Lets utilities see variables. -/
def exports : Command := declare fun s name =>
  if s.exported.contains name then s else { s with exported := name :: s.exported }

/-- Ties variables to the running function. -/
def localNames : Command := declare fun s name =>
  if s.locals.any (·.1 = name) then s else { s with locals := (name, s.value? name) :: s.locals }

/-- Forgets variables or functions. -/
def unset : Command := fun args => do
  match args with
  | ['-', 'f'] :: names =>
      modify fun s => { s with functions := s.functions.filter fun f => !names.contains f.1 }
  | ['-', 'v'] :: names => modify fun s => names.foldl State.unassign s
  | names => modify fun s => names.foldl State.unassign s
  Run.setStatus 0

/-- The letters of options, each with its long name. -/
def optionNames : List (Char × String) :=
  [('e', "errexit"), ('f', "noglob"), ('u', "nounset"), ('x', "xtrace"), ('a', "allexport"),
    ('n', "noexec"), ('v', "verbose"), ('C', "noclobber"), ('m', "monitor"), ('b', "notify")]

/-- Sets or clears an option. -/
def setOption (on : Bool) (letter : Char) (s : State) : State :=
  let others := s.options.filter (· ≠ letter)
  { s with options := if on then letter :: others else others }

/-- Sets options and arguments: the options come first, and two dashes end them. -/
def setAll : Nat → Command
  | 0, _ => pure ()
  | fuel + 1, args => do
      let apply (on : Bool) (letters : List Char) : Run Unit := do
        for c in letters do
          if optionNames.any (·.1 = c) then modify (setOption on c)
          else Run.abort ("set: Illegal option -".toList ++ [c])
      let long (on : Bool) (name : List Char) : Run Unit :=
        match optionNames.find? fun o => o.2.toList = name with
        | some o => modify (setOption on o.1)
        | none => Run.abort ("set: Illegal option -o ".toList ++ name)
      match args with
      | [] => Run.setStatus 0
      | ['-', '-'] :: rest =>
          modify fun s => { s with arguments := rest }
          Run.setStatus 0
      | ['-', 'o'] :: name :: rest =>
          long true name
          setAll fuel rest
      | ['+', 'o'] :: name :: rest =>
          long false name
          setAll fuel rest
      | ('-' :: c :: letters) :: rest =>
          apply true (c :: letters)
          setAll fuel rest
      | ('+' :: c :: letters) :: rest =>
          apply false (c :: letters)
          setAll fuel rest
      | rest =>
          modify fun s => { s with arguments := rest }
          Run.setStatus 0

/-- Drops arguments of the shell. -/
def shift : Command := fun args => do
  let n := match args with
    | w :: _ => (statusOf? w).getD 1
    | [] => 1
  let s ← get
  if s.arguments.length < n then Run.abort "shift: can't shift that many".toList
  set { s with arguments := s.arguments.drop n }
  Run.setStatus 0

/-- Says what to do when signals arrive. -/
def trap : Command := fun args => do
  let tie (action : Option (List Char)) (signals : List (List Char)) : Run Unit := do
    for w in signals do
      match Signal.number? w with
      | some n =>
          modify fun s =>
            let others := s.traps.filter (·.1 ≠ n)
            match action with
            | some text => { s with traps := (n, text) :: others }
            | none => { s with traps := others }
      | none => Run.complain ("trap: ".toList ++ w ++ ": bad trap".toList)
    Run.setStatus 0
  match args with
  | [] => Run.setStatus 0
  | [signal] => tie none [signal]
  | ['-'] :: signals => tie none signals
  | action :: signals =>
      if (Utility.count? action).isSome then tie none args else tie (some action) signals

/-- Reports a wrong use of a command that is not special, which does not end the shell. -/
def misuse (reason : List Char) : Run Unit := do
  Run.complain reason
  Run.setStatus 2

/-- Sends a signal to a process; the shell knows no other process than itself. -/
def send (signal : Nat) (w : List Char) : Run Unit := do
  let s ← get
  match Utility.count? w with
  | none => misuse ("kill: Illegal number: ".toList ++ w)
  | some process =>
      if process = s.process then
        match s.traps.find? fun a => a.1 = signal && !Signal.isInescapable signal with
        | some (_, []) => pure ()
        | some _ => set { s with pending := s.pending ++ [signal] }
        | none => if Signal.isHarmless signal then pure () else throw (.killed process signal)
      else if process < s.process && 4096 ≤ process then
        if Signal.isHarmless signal then pure () else throw (.killed process signal)
      else do
        Run.complain "kill: No such process".toList
        Run.setStatus 1

/-- Sends a signal to processes. -/
def kill : Command := fun args => do
  let sendAll (signal : List Char) (processes : List (List Char)) : Run Unit :=
    match Signal.number? signal with
    | none => misuse ("kill: invalid signal number or name: ".toList ++ signal)
    | some n => do
        Run.setStatus 0
        for p in processes do send n p
  match args with
  | [] => misuse "kill: Usage: kill [-s sigspec | -signum | -sigspec] [pid | job]...".toList
  | ['-', 's'] :: signal :: processes => sendAll signal processes
  | ['-', '-'] :: processes => sendAll "TERM".toList processes
  | ('-' :: signal) :: processes => sendAll signal processes
  | processes => sendAll "TERM".toList processes

/-- A line of the input without its newline, with backslashes taken as escapes unless it is raw;
the rest of the input; and whether the line was complete. -/
def inputLine (raw : Bool) : List Char → List Bit × List Char × Bool
  | [] => ([], [], false)
  | '\n' :: rest => ([], rest, true)
  | c :: rest =>
      if c = '\\' && !raw then
        match rest with
        | '\n' :: rest => inputLine raw rest
        | d :: rest =>
            let (line, left, complete) := inputLine raw rest
            (.glyph d .firm :: line, left, complete)
        | [] => ([], [], false)
      else
        let (line, left, complete) := inputLine raw rest
        (.glyph c .loose :: line, left, complete)

/-- A line without white space at its ends. -/
def trimmed (line : List Bit) : List Bit :=
  let isSpace (b : Bit) : Bool :=
    match b with
    | .glyph c .loose => Fields.defaultSeparators.contains c
    | _ => false
  ((line.dropWhile isSpace).reverse.dropWhile isSpace).reverse

/-- The first words of a line, each for a name, and what is left of it for the last name. -/
def shareOut (separators : List Char) : List (List Char) → List Bit → List (List Char × List Char)
  | [], _ => []
  | [name], line => [(name, Bit.chars (trimmed line))]
  | name :: names, line =>
      let isSeparator (b : Bit) : Bool :=
        match b with
        | .glyph c .loose => separators.contains c
        | _ => false
      let line := trimmed line
      let word := line.takeWhile fun b => !isSeparator b
      (name, Bit.chars word) :: shareOut separators names ((line.drop word.length).drop 1)

/-- Reads a line of the input into variables. -/
def read : Command := fun args => do
  let raw := args.head? = some ['-', 'r']
  let names := if raw then args.drop 1 else args
  let s ← get
  let (line, left, complete) := inputLine raw s.input
  let separators := (s.value? "IFS".toList).getD Fields.defaultSeparators
  set { s with input := left }
  if names.isEmpty then return ← misuse "read: arg count".toList
  for (name, value) in shareOut separators names line do
    modify fun s => s.assign name value
  Run.setStatus (if complete then 0 else 1)

/-- The text of a place in the file tree. -/
def placeText (path : FilePath) : List Char := path.flatMap fun name => '/' :: Octets.ofText name

/-- Goes to another directory. -/
def cd : Command := fun args => do
  let s ← get
  match args with
  | path :: _ =>
      match s.files.follow s.here (Text.splitAt '/' (Octets.toText path)) with
      | .ok place =>
          if path.head? ≠ some '/' && s.files.isDirectory place then
            set { s with here := place, status := 0 }
          else misuse ("cd: can't cd to ".toList ++ path)
      | .error _ => misuse ("cd: can't cd to ".toList ++ path)
  | [] => Run.setStatus 0

/-- Prints the mask of new files, which cannot be changed. -/
def umask : Command := fun args => do
  if args.isEmpty then Run.emit 1 "0022\n".toList
  Run.setStatus 0

/-- Prints the working directory. -/
def pwd : Command := fun _ => do
  Run.emit 1 (placeText (← get).here ++ ['\n'])
  Run.setStatus 0

/-- Runs a utility on the input of the shell. -/
def ofTool (tool : Utility.Tool) : Command := fun args => do
  let s ← get
  let effect := tool s.scene args s.input
  Run.emit 1 effect.out
  Run.emit 2 effect.err
  modify fun s => { s with input := effect.left }
  Run.setStatus effect.status

/-- The special command of a name. -/
def special? (name : List Char) : Option Command :=
  match String.ofList name with
  | ":" => some fun _ => Run.setStatus 0
  | "exit" => some exit
  | "return" => some giveBack
  | "break" => some (stopLoops .leave)
  | "continue" => some (stopLoops .again)
  | "export" => some exports
  | "readonly" => some (declare fun s _ => s)
  | "unset" => some unset
  | "set" => some fun args => setAll (args.length + 1) args
  | "shift" => some shift
  | "trap" => some trap
  | "times" => some fun _ => Run.setStatus 0
  | _ => none

/-- Whether the command of a name is special. -/
def isSpecial (name : List Char) : Bool :=
  (special? name).isSome || ["eval", ".", "exec"].contains (String.ofList name)

/-- The command of a name, special or not. -/
def find? (name : List Char) : Option Command :=
  match special? name with
  | some c => some c
  | none =>
      match String.ofList name with
      | "echo" => some echo
      | "local" => some localNames
      | "kill" => some kill
      | "read" => some read
      | "cd" => some cd
      | "pwd" => some pwd
      | "wait" => some fun _ => Run.setStatus 0
      | "umask" => some umask
      | "true" => some fun _ => Run.setStatus 0
      | "false" => some fun _ => Run.setStatus 1
      | "test" => some (ofTool Utility.test)
      | "[" => some (ofTool Utility.bracket)
      | "printf" => some (ofTool Utility.printf)
      | _ => none

end Builtin

end OrderedDispatch.Shell
