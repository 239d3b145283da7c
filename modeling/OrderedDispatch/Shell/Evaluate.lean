/-
**Running a command line.**

Words are expanded and commands are run by one recursion, because each may ask for the other: a word
may hold a command to capture, and every command has words.  A bound counts down with each nested
call and each round of a loop.  Conditions are run as *tested*: a command that fails there does not
end a shell that is to end at the first failure.

Main definitions:

* `Evaluate.bits`, `Evaluate.fields` — the expansion of words;
* `Evaluate.run` — running a command line;
* `Evaluate.call` — calling a command by its name;
* `Evaluate.invoke` — a shell as a program of its own.
-/

import OrderedDispatch.Shell.Builtin

set_option relaxedAutoImplicit false
set_option autoImplicit false

namespace OrderedDispatch.Shell

namespace Evaluate

/-! ### Parameters -/

/-- The separators of the shell. -/
def separators (s : State) : List Char := (s.value? "IFS".toList).getD Fields.defaultSeparators

/-- The value of a parameter, none if it has none. -/
def parameter? (s : State) (name : List Char) : Option (List Char) :=
  match name with
  | ['#'] => some (Nat.toDigits 10 s.arguments.length)
  | ['?'] => some (Nat.toDigits 10 s.status)
  | ['$'] => some (Nat.toDigits 10 s.process)
  | ['-'] => some s.options
  | ['!'] => none
  | ['0'] => some s.name
  | ['@'] => if s.arguments.isEmpty then none else some ([' '].intercalate s.arguments)
  | ['*'] => if s.arguments.isEmpty then none else
      some (((separators s).take 1).intercalate s.arguments)
  | name =>
      match Utility.count? name with
      | some n => if n = 0 then some s.name else s.arguments[n - 1]?
      | none => s.value? name

/-- The parameters that may always be without a value. -/
def isOptional (name : List Char) : Bool := name = ['@'] || name = ['*'] || name = ['!']

/-- The value of a parameter as the shell uses it: without one it is empty, or an error if the
options say so. -/
def parameter (name : List Char) : Run (List Char) := do
  let s ← get
  match parameter? s name with
  | some value => return value
  | none =>
      if s.options.contains 'u' && !isOptional name then
        Run.abort (name ++ ": parameter not set".toList)
      else return []

/-- The parts that a parameter brings into a word; the arguments stay apart where they can. -/
def parameterBits (name : List Char) (quoted : Bool) : Run (List Bit) := do
  let s ← get
  if name = ['@'] || (name = ['*'] && !quoted) then return Bit.ofValues quoted s.arguments
  else return Bit.ofValue quoted (← parameter name)

/-- A text without newlines at its end and without bytes that no variable can hold. -/
def captured (text : List Char) : List Char :=
  ((text.filter (· ≠ '\x00')).reverse.dropWhile (· = '\n')).reverse

/-- The value of an arithmetic expression. -/
def arithmetic (text : List Char) : Run (List Char) := do
  let s ← get
  match (Arithmetic.read? text).bind (Arithmetic.eval? s.bindings) with
  | some (n, bindings) =>
      let fresh := bindings.take (bindings.length - s.bindings.length)
      for (name, value) in fresh.reverse do modify fun s => s.assign name value
      return Arithmetic.decimal n
  | none => Run.abort ("arithmetic expression: ".toList ++ text)

/-! ### Redirections -/

/-- The file at a path, or a device. -/
inductive Place where
  | nowhere
  | descriptor (n : Nat)
  | file (path : FilePath)
  | missing
  deriving DecidableEq, Inhabited

/-- The place that a path leads to for writing. -/
def place (s : State) (path : List Char) : Place :=
  if path = "/dev/null".toList || path = "/dev/tty".toList then .nowhere
  else if path = "/dev/stdout".toList then .descriptor 1
  else if path = "/dev/stderr".toList then .descriptor 2
  else if path.head? = some '/' || path.isEmpty then
    if (Text.stripStart? "/tmp/".toList path).isSome then .nowhere else .missing
  else
    let steps := Text.splitAt '/' (Octets.toText path)
    match s.files.follow s.here steps.dropLast with
    | .ok directory =>
        match steps.getLast? with
        | some last =>
            if s.files.isDirectory directory && !s.files.isDirectory (directory ++ [last]) then
              .file (directory ++ [last])
            else .missing
        | none => .missing
    | .error _ => .missing

/-- Lets a descriptor write to a path. -/
def writeTo (descriptor : Nat) (fresh : Bool) (path : List Char) : Run Bool := do
  let s ← get
  match place s path with
  | .nowhere =>
      set (s.redirect descriptor .nowhere)
      return true
  | .descriptor n =>
      set (s.redirect descriptor (s.channel n))
      return true
  | .file place =>
      let files := if fresh then
          { s.files with files := s.files.files.filter (·.1 ≠ place) }
        else s.files
      set { s.redirect descriptor (.file place) with files := appendTo files place [] }
      return true
  | .missing =>
      Run.complain ("cannot create ".toList ++ path ++ ": Directory nonexistent".toList)
      return false

/-- Makes a descriptor do what a redirection says of it; whether that was possible. -/
def redirectOne (descriptor : Nat) (direction : Direction) (target : List Char) : Run Bool := do
  let s ← get
  match direction with
  | .write => writeTo descriptor true target
  | .append => writeTo descriptor false target
  | .read =>
      match s.scene.read target with
      | .ok text =>
          set { s with input := text }
          return true
      | .error _ =>
          Run.complain ("cannot open ".toList ++ target ++ ": No such file".toList)
          return false
  | .document =>
      set { s with input := target }
      return true
  | .duplicate =>
      if target = ['-'] then
        set (s.redirect descriptor .nowhere)
        return true
      else
        match Utility.count? target with
        | some 0 => return true
        | some n =>
            if s.channels.any (·.1 = n) then
              set (s.redirect descriptor (s.channel n))
              return true
            else
              Run.complain (target ++ ": Bad file descriptor".toList)
              return false
        | none => Run.abort "Bad fd number".toList

/-- The descriptor of a redirection. -/
def descriptorOf : Redirect → Nat
  | .mk descriptor _ _ => descriptor

/-- Runs something and puts the descriptors back as they were, and the input if one of the
redirections had replaced it. -/
def keepingChannels (redirects : List Redirect) (body : Run Unit) : Run Unit := fun s =>
  let (r, t) := body.run s
  let replaced := redirects.any fun r => descriptorOf r = 0
  (r, { t with channels := s.channels, input := if replaced then s.input else t.input })

/-- Ends the shell after a failure if the options say so. -/
def check (tested : Bool) : Run Unit := do
  let s ← get
  if !tested && s.status ≠ 0 && s.options.contains 'e' then throw .exit

/-! ### Loops -/

/-- Runs the body of a loop: whether there may be another round. -/
def round (body : Run Unit) : Run Bool := fun s =>
  let (r, t) := body.run { s with loops := s.loops + 1 }
  let back := { t with loops := s.loops }
  match r with
  | .ok () => (.ok true, back)
  | .error (.leave 1) => (.ok false, back)
  | .error (.leave (n + 2)) => (.error (.leave (n + 1)), back)
  | .error (.again 1) => (.ok true, back)
  | .error (.again (n + 2)) => (.error (.again (n + 1)), back)
  | .error stop => (.error stop, back)

/-- Runs the body of a function: it may end early, and its own variables get their values back. -/
def inFunction (args : List (List Char)) (body : Run Unit) : Run Unit := fun s =>
  let (r, t) := body.run { s with arguments := args, locals := [] }
  let restored := t.locals.foldl
    (fun (t : State) v => match v.2 with
      | some value => t.assign v.1 value
      | none => t.unassign v.1)
    t
  let back := { restored with arguments := s.arguments, locals := s.locals }
  match r with
  | .error .giveBack => (.ok (), back)
  | r => (r, back)

/-- Runs something with variables that are forgotten afterwards. -/
def lending (assignments : List (List Char × List Char)) (body : Run Unit) : Run Unit := fun s =>
  let lent := assignments.foldl
    (fun (s : State) a => { s.assign a.1 a.2 with exported := a.1 :: s.exported }) s
  let (r, t) := body.run lent
  let names := assignments.map Prod.fst
  let restored := names.eraseDups.foldl
    (fun (t : State) name => match s.value? name with
      | some value => t.assign name value
      | none => t.unassign name)
    t
  (r, { restored with exported := if names.isEmpty then t.exported else s.exported })

/-- The shell that a program of its own begins with. -/
def inheritor (s : State) (name : List Char) (escapes : Bool) (args : List (List Char)) : State :=
  { s with
    name := name, escapes := escapes, arguments := args, functions := [], traps := []
    bindings := s.bindings.filter fun v => s.exported.contains v.1
    options := [], status := 0, process := s.process + 1, loops := 0, pending := [], locals := [] }

/-- Runs a shell as a program: when it has ended, so much of it stays as others can see. -/
def asProgram (start : State → State) (body : Run Unit) : Run Unit := fun s =>
  let child := start s
  let (r, t) := body.run child
  let back (status : Nat) : State :=
    { s with
      status := status, written := t.written, streams := t.streams, files := t.files
      input := t.input }
  match r with
  | .error (.killed process signal) =>
      if process = child.process then (.ok (), back (128 + signal))
      else (.error (.killed process signal), back t.status)
  | .error .unfinished => (.error .unfinished, back t.status)
  | _ => (.ok (), back t.status)

/-- What is there to find out about the name of a command that is no command. -/
def notFound (name : List Char) : Run Unit := do
  let s ← get
  if name.contains '/' then
    match s.scene.kindOf name with
    | some _ =>
        Run.complain (name ++ ": Permission denied".toList)
        Run.setStatus 126
    | none =>
        Run.complain (name ++ ": not found".toList)
        Run.setStatus 127
  else
    Run.complain (name ++ ": not found".toList)
    Run.setStatus 127

/-- The programs that are shells, and whether their printing command replaces escapes. -/
def shellNamed? (name : List Char) : Option Bool :=
  match String.ofList (Utility.knownAs name) with
  | "sh" => some true
  | "dash" => some true
  | "bash" => some false
  | _ => none

/-- Tells where commands are. -/
def describeCommands (names : List (List Char)) : Run Unit := do
  Run.setStatus 0
  for name in names do
    let s ← get
    if s.functions.any (·.1 = name) || (Builtin.find? name).isSome || Builtin.isSpecial name then
      Run.emit 1 (name ++ ['\n'])
    else if (Utility.find? name).isSome || (shellNamed? name).isSome || name = "env".toList then
      Run.emit 1 ("/usr/bin/".toList ++ name ++ ['\n'])
    else Run.setStatus 127

mutual

/-- The parts of an expanded word. -/
def bits : Nat → List Piece → Run (List Bit)
  | 0, _ => throw .unfinished
  | _, [] => pure []
  | fuel + 1, p :: rest => do
      let first ← bitsOfPiece fuel p
      let others ← bits fuel rest
      return first ++ others

/-- The parts of an expanded piece. -/
def bitsOfPiece : Nat → Piece → Run (List Bit)
  | 0, _ => throw .unfinished
  | fuel + 1, p => do
      match p with
      | .plain s => return Bit.ofText .plain s
      | .literal s => return .presence :: Bit.ofText .firm s
      | .home =>
          let home := (← get).value? "HOME".toList
          return Bit.ofText .firm (home.getD ['~'])
      | .parameter name quoted => parameterBits name quoted
      | .length name quoted =>
          return Bit.ofValue quoted (Nat.toDigits 10 (← parameter name).length)
      | .fallback name rule emptyToo word quoted =>
          let value := parameter? (← get) name
          let missing := match value with
            | none => true
            | some v => emptyToo && v.isEmpty
          match rule with
          | .use =>
              if missing then return Bit.asValue quoted (← bits fuel word)
              else parameterBits name quoted
          | .alternative =>
              if missing then return if quoted then [.presence] else []
              else return Bit.asValue quoted (← bits fuel word)
          | .assign =>
              if missing then
                let text := Bit.chars (← bits fuel word)
                modify fun s => s.assign name text
              parameterBits name quoted
          | .giveUp =>
              if missing then
                let text := Bit.chars (← bits fuel word)
                Run.abort (name ++ ": ".toList
                  ++ if text.isEmpty then "parameter not set".toList else text)
              else parameterBits name quoted
      | .trimmed name trim pattern quoted =>
          let value ← parameter name
          let pattern := Glob.compile (Bit.glyphs (← bits fuel pattern))
          return Bit.ofValue quoted (Glob.trim trim pattern value)
      | .substitution body quoted =>
          let text ← Run.capture (run fuel false body)
          modify fun s => { s with captured := s.status }
          return Bit.ofValue quoted (captured text)
      | .arithmetic expression quoted =>
          let text := Bit.chars (← bits fuel expression)
          return Bit.ofValue quoted (← arithmetic text)

/-- The text of a word that is not split into fields. -/
def text : Nat → Word → Run (List Char)
  | 0, _ => throw .unfinished
  | fuel + 1, w => do return Bit.chars (← bits fuel w)

/-- The fields of words. -/
def fields : Nat → List Word → Run (List (List Char))
  | 0, _ => throw .unfinished
  | _, [] => pure []
  | fuel + 1, w :: ws => do
      let parts ← bits fuel w
      let s ← get
      let found := Fields.split (separators s) parts
      let first := if s.options.contains 'f' then found.map Fields.text
        else found.flatMap (Fields.paths s.files s.here)
      let others ← fields fuel ws
      return first ++ others

/-- The values of assignments. -/
def values : Nat → List (List Char × Word) → Run (List (List Char × List Char))
  | 0, _ => throw .unfinished
  | _, [] => pure []
  | fuel + 1, (name, w) :: rest => do
      let value ← text fuel w
      let others ← values fuel rest
      return (name, value) :: others

/-- Makes assignments one after another, so that each sees those before it. -/
def assignAll : Nat → List (List Char × Word) → Run Unit
  | 0, _ => throw .unfinished
  | _, [] => pure ()
  | fuel + 1, (name, w) :: rest => do
      let value ← text fuel w
      modify fun s => s.assign name value
      assignAll fuel rest

/-- Makes the descriptors do what redirections say; whether that was possible. -/
def redirectAll : Nat → List Redirect → Run Bool
  | 0, _ => throw .unfinished
  | _, [] => pure true
  | fuel + 1, .mk descriptor direction target :: rest => do
      let path ← text fuel target
      if ← redirectOne descriptor direction path then redirectAll fuel rest else return false

/-- Runs something with redirections. -/
def redirecting : Nat → List Redirect → Run Unit → Run Unit
  | 0, _, _ => throw .unfinished
  | fuel + 1, redirects, body =>
      keepingChannels redirects do
        if ← redirectAll fuel redirects then body else Run.setStatus 2

/-- Runs a command line. -/
def run : Nat → (tested : Bool) → Node → Run Unit
  | 0, _, _ => throw .unfinished
  | fuel + 1, tested, n => do
      match n with
      | .skip => pure ()
      | .simple assignments words redirects =>
          modify fun s => { s with captured := 0 }
          let found ← fields fuel words
          match found with
          | [] =>
              redirecting fuel redirects do
                assignAll fuel assignments
                modify fun s => { s with status := s.captured }
          | name :: args =>
              if Builtin.isSpecial name then
                if name = "exec".toList && args.isEmpty then
                  assignAll fuel assignments
                  if ← redirectAll fuel redirects then Run.setStatus 0 else Run.exit 2
                else
                  redirecting fuel redirects do
                    assignAll fuel assignments
                    call fuel tested name args
              else
                redirecting fuel redirects do
                  let lent ← values fuel assignments
                  lending lent (call fuel tested name args)
          handleSignals fuel
          check tested
      | .redirected body redirects =>
          redirecting fuel redirects (run fuel tested body)
          check tested
      | .negated body =>
          run fuel true body
          modify fun s => { s with status := if s.status = 0 then 1 else 0 }
      | .pipe left right =>
          let text ← Run.capture (run fuel tested left)
          Run.apart (Run.withInput text (run fuel tested right))
          check tested
      | .both left right =>
          run fuel true left
          if (← get).status = 0 then run fuel tested right
      | .either left right =>
          run fuel true left
          if (← get).status ≠ 0 then run fuel tested right
      | .sequence left right =>
          run fuel tested left
          run fuel tested right
      | .background body =>
          Run.apart (Run.withInput [] (run fuel false body))
          Run.setStatus 0
      | .subshell body =>
          Run.apart (ended fuel (run fuel tested body))
          check tested
      | .branch condition yes no =>
          run fuel true condition
          if (← get).status = 0 then run fuel tested yes
          else
            Run.setStatus 0
            run fuel tested no
      | .loop whileTrue condition body => loop fuel tested whileTrue condition body 0
      | .each name words body =>
          let found ← match words with
            | some ws => fields fuel ws
            | none => do pure (← get).arguments
          Run.setStatus 0
          each fuel tested name found body
      | .choice word arms =>
          let value ← text fuel word
          Run.setStatus 0
          choose fuel tested value arms
      | .define name body =>
          modify fun s => { s with
            functions := (name, body) :: s.functions.filter (·.1 ≠ name)
            status := 0 }

/-- Runs the rounds of a loop; its status is that of the body when it ran last. -/
def loop : Nat → (tested whileTrue : Bool) → Node → Node → (last : Nat) → Run Unit
  | 0, _, _, _, _, _ => throw .unfinished
  | fuel + 1, tested, whileTrue, condition, body, last => do
      if ← round (run fuel true condition) then
        if ((← get).status = 0) = whileTrue then
          if ← round (run fuel tested body) then
            loop fuel tested whileTrue condition body (← get).status
        else Run.setStatus last

/-- Runs the rounds of a loop over values. -/
def each : Nat → (tested : Bool) → List Char → List (List Char) → Node → Run Unit
  | 0, _, _, _, _ => throw .unfinished
  | _, _, _, [], _ => pure ()
  | fuel + 1, tested, name, value :: rest, body => do
      modify fun s => s.assign name value
      if ← round (run fuel tested body) then each fuel tested name rest body

/-- Runs the first arm whose pattern matches a value. -/
def choose : Nat → (tested : Bool) → List Char → List (List Word × Node) → Run Unit
  | 0, _, _, _ => throw .unfinished
  | _, _, _, [] => pure ()
  | fuel + 1, tested, value, (patterns, body) :: rest => do
      if ← anyMatch fuel value patterns then run fuel tested body
      else choose fuel tested value rest

/-- Whether one of some patterns matches a value. -/
def anyMatch : Nat → List Char → List Word → Run Bool
  | 0, _, _ => throw .unfinished
  | _, _, [] => pure false
  | fuel + 1, value, w :: ws => do
      let pattern := Glob.compile (Bit.glyphs (← bits fuel w))
      if Glob.accepts pattern value then return true else anyMatch fuel value ws

/-- Runs a text as part of this shell. -/
def source : Nat → (tested : Bool) → List Char → Run Unit
  | 0, _, _ => throw .unfinished
  | fuel + 1, tested, text => do
      match parse? text with
      | some n =>
          if n.isSkip then Run.setStatus 0
          run fuel tested n
      | none => Run.abort "Syntax error".toList

/-- Runs the traps of the signals that have arrived. -/
def handleSignals : Nat → Run Unit
  | 0 => throw .unfinished
  | fuel + 1 => do
      let s ← get
      match s.pending with
      | [] => pure ()
      | signal :: rest =>
          set { s with pending := rest }
          match s.traps.find? (·.1 = signal) with
          | some (_, action) =>
              source fuel false action
              modify fun t => { t with status := s.status }
          | none => pure ()
          handleSignals fuel

/-- Runs a shell to its end, and then what it wants to do at its end. -/
def ended : Nat → Run Unit → Run Unit
  | 0, _ => throw .unfinished
  | fuel + 1, body => fun s =>
      let (r, t) := body.run s
      let isEnd := match r with
        | .error (.killed _ _) => false
        | .error .unfinished => false
        | _ => true
      match t.traps.find? (·.1 = 0) with
      | some (_, action) =>
          if isEnd then
            let cleanUp : Run Unit := do
              source fuel false action
              modify fun u => { u with status := t.status }
            cleanUp.run { t with traps := t.traps.filter (·.1 ≠ 0) }
          else (r, t)
      | none => (r, t)

/-- Runs a shell as a program of its own, given its arguments. -/
def invoke : Nat → List (List Char) → Run Unit
  | 0, _ => throw .unfinished
  | fuel + 1, args => do
      match args with
      | [] => ended fuel (do source fuel false (← get).input)
      | ('-' :: c :: letters) :: rest =>
          for o in (c :: letters).filter (· ≠ 'c') do modify (Builtin.setOption true o)
          if (c :: letters).contains 'c' then
            match rest with
            | text :: rest =>
                modify fun s => { s with
                  name := rest.headD s.name
                  arguments := rest.drop 1 }
                ended fuel (source fuel false text)
            | [] => Run.abort "-c requires an argument".toList
          else invoke fuel rest
      | path :: rest =>
          match (← get).scene.read path with
          | .ok text =>
              modify fun s => { s with name := path, arguments := rest }
              ended fuel (source fuel false text)
          | .error _ =>
              Run.complain ("cannot open ".toList ++ path ++ ": No such file".toList)
              Run.exit 2

/-- Calls a program that is no command of the shell. -/
def program : Nat → List Char → List (List Char) → Run Unit
  | 0, _, _ => throw .unfinished
  | fuel + 1, name, args => do
      let known := Utility.knownAs name
      let isKnown := known ≠ name || Utility.searches ((← get).value? "PATH".toList)
      match if isKnown then shellNamed? name else none with
      | some escapes =>
          asProgram (fun s => inheritor s name escapes []) (invoke fuel args)
      | none =>
          if !isKnown then notFound name
          else if known = "env".toList then
            let isAssignment (w : List Char) : Bool := w.contains '='
            let lent := (args.takeWhile isAssignment).map fun w =>
              ((Builtin.nameAndValue w).1, (Builtin.nameAndValue w).2.getD [])
            match args.dropWhile isAssignment with
            | [] => lending lent (Builtin.ofTool Utility.printenv [])
            | name :: rest => lending lent (program fuel name rest)
          else
            match Utility.find? known with
            | some tool => Builtin.ofTool tool args
            | none => notFound name

/-- Calls a command by its name. -/
def call : Nat → (tested : Bool) → List Char → List (List Char) → Run Unit
  | 0, _, _, _ => throw .unfinished
  | fuel + 1, tested, name, args => do
      match String.ofList name with
      | "eval" => source fuel tested ([' '].intercalate args)
      | "exec" =>
          match args with
          | name :: rest =>
              program fuel name rest
              throw .exit
          | [] => Run.setStatus 0
      | "." =>
          match args with
          | path :: _ =>
              match (← get).scene.read path with
              | .ok text => source fuel tested text
              | .error _ => Run.abort (".: cannot open ".toList ++ path)
          | [] => Run.setStatus 0
      | "command" =>
          match args with
          | ['-', 'v'] :: names => describeCommands names
          | name :: rest =>
              match Builtin.find? name with
              | some c => c rest
              | none => program fuel name rest
          | [] => Run.setStatus 0
      | _ =>
          match (← get).functions.find? (·.1 = name) with
          | some (_, body) => inFunction args (run fuel tested body)
          | none =>
              match Builtin.find? name with
              | some c => c args
              | none => program fuel name args

end

end Evaluate

end OrderedDispatch.Shell
