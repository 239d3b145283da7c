/-
**Carrying out a command line.**

The program is a function of its words and of everything around it: the files, the variables, the
input and the free memory.  It prints the output of the items, or the answer of another command, and
tells on the side what it is doing: status lines for the user, and the log that the filter lets
through.  Being quiet silences all but failures; being verbose adds progress.

Main definitions:

* `Machine` — everything around the program;
* `Line`, `Transcript` — what the program tells on the side, and all that it leaves behind;
* `Voice` — what is told at which verbosity;
* `execute` — the program.
-/

import OrderedDispatch.Command.Items
import OrderedDispatch.Command.Runner
import OrderedDispatch.CommandLine.Filter
import OrderedDispatch.CommandLine.Invocation
import OrderedDispatch.Config.Load
import OrderedDispatch.Dispatch.Launch
import OrderedDispatch.Sink.Collector

set_option relaxedAutoImplicit false
set_option autoImplicit false

namespace OrderedDispatch.CommandLine

/-- Everything around the program. -/
structure Machine where
  surroundings : Config.Surroundings := {}
  /-- the standard input -/
  input : List UInt8 := []
  /-- the free memory in bytes -/
  freeMemory : Nat := 0
  /-- why the system refuses to start a worker, if it does -/
  refuses : Nat → Option String := fun _ => none
  deriving Inhabited

/-! ### What is told on the side -/

/-- What kind of status a line tells. -/
inductive Mark where
  | success
  | failure
  | information
  deriving DecidableEq, Inhabited

/-- The sign of a mark. -/
def Mark.sign : Mark → String
  | success => "✔"
  | failure => "✖"
  | information => "ℹ"

/-- Something told on the side: a status, a setting with its value, an event with the session that
it happened in if that is shown, or a text about the command line. -/
inductive Line where
  | status (mark : Mark) (text : String)
  | setting (key value : String)
  | log (level : Level) (session : Option String) (message : String)
  | usage (text : String)
  deriving DecidableEq, Inhabited

/-- The width of the column of keys. -/
def keyWidth : Nat := 20

/-- A text filled up with blanks at its end. -/
def padded (width : Nat) (s : String) : String :=
  s ++ String.ofList (List.replicate (width - s.length) ' ')

namespace Line

/-- The session in front of the message of an event. -/
def sessionLabel : Option String → String
  | some label => "session\x7bid=" ++ label ++ "\x7d: "
  | none => ""

/-- The line as it is printed. -/
def text : Line → String
  | status mark message => mark.sign ++ " " ++ message
  | setting key value => "  " ++ padded keyWidth key ++ " " ++ value
  | log level session message =>
      level.name.toUpper ++ " " ++ sessionLabel session ++ message
  | usage message => message

end Line

/-- What the program leaves behind. -/
structure Transcript where
  exitCode : Nat := 0
  out : List UInt8 := []
  lines : List Line := []
  deriving DecidableEq, Inhabited

/-- How much the program tells. -/
structure Voice where
  verbose : Bool := false
  quiet : Bool := false
  /-- which events are told -/
  filter : Filter := ⟨[]⟩
  deriving Inhabited

namespace Voice

/-- Tells of success. -/
def success (v : Voice) (text : String) : List Line :=
  if v.quiet then [] else [.status .success text]

/-- Tells of a failure. -/
def failure (_ : Voice) (text : String) : List Line := [.status .failure text]

/-- Tells something that the user should know. -/
def information (v : Voice) (text : String) : List Line :=
  if v.quiet then [] else [.status .information text]

/-- Tells of progress. -/
def progress (v : Voice) (text : String) : List Line :=
  if v.verbose then v.information text else []

/-- Tells a setting. -/
def setting (v : Voice) (key value : String) : List Line :=
  if v.quiet then [] else [.setting key value]

/-- The line of an event that happened in a session or in none, if the filter lets it through. -/
def line? (v : Voice) (verbose : Bool) (entry : Option String × Event) : Option Line :=
  let (session, e) := entry
  let level := e.level verbose
  if v.filter.shows session level e.target then
    some (.log level (if v.filter.showsSessions then session else none) e.message)
  else none

/-- Tells the events that the filter lets through. -/
def log (v : Voice) (verbose : Bool) (entries : List (Option String × Event)) : List Line :=
  if v.quiet then [] else entries.filterMap (v.line? verbose)

end Voice

/-! ### The commands -/

/-- What the program is called. -/
def programName : String := "orderly"

/-- The name and the version of the program. -/
def nameAndVersion : String := programName ++ " 0.1.0"

/-- What the program is for. -/
def purpose : String :=
  "Run work items on a bounded thread pool and emit their output in input order"

/-- How the program is to be called, in one line. -/
def usage : String := "Usage: orderly [OPTIONS] [COMMAND]"

/-- What the program is for and how it is to be called: one text for all commands. -/
def help : String :=
  purpose ++ "\n\n" ++ usage ++ "\n\n"
    ++ "Commands:\n"
    ++ "  run              Run a command template once per input item\n"
    ++ "  estimate         Show the automatically selected thread count\n"
    ++ "  config show      Show the merged configuration\n"
    ++ "  config validate  Check that the configuration parses\n"
    ++ "  version          Show version information\n"
    ++ "  help             Print this message\n\n"
    ++ "Options:\n"
    ++ "  -c, --config <FILE>  Configuration file path\n"
    ++ "  -v, --verbose...     Increase verbosity (can be repeated)\n"
    ++ "  -q, --quiet          Suppress non-error output\n"
    ++ "  -h, --help           Print help\n"
    ++ "  -V, --version        Print version\n\n"
    ++ "Options of run:\n"
    ++ "  -P, --threads <N>    Worker threads to start (0 = choose automatically)\n"
    ++ "  -i, --input <FILE>   Read items from FILE, one per line (default: stdin)\n"
    ++ "      --item <ITEM>    Item to process (can be repeated)\n"
    ++ "  -x, --trace          Trace session lifecycle events\n\n"
    ++ "Options of config show:\n"
    ++ "      --format <FORMAT>  Output format (toml or json)\n"

/-- What is wrong with a command line, in the general words for its kind. -/
def Refusal.message : Refusal → String
  | helpAsked => "help is asked for"
  | versionAsked => "the version is asked for"
  | helpNeeded => "a subcommand or arguments are needed"
  | missingCommand => "a subcommand is required but one was not provided"
  | unknownCommand => "unrecognized subcommand"
  | unknownArgument => "unexpected argument found"
  | unwantedValue => "unexpected value for an argument found"
  | badValue => "one of the values isn't valid for an argument"
  | badNumber => "invalid value for one of the arguments"
  | conflict => "an argument cannot be used with one or more of the other specified arguments"
  | missingWords => "one or more required arguments were not provided"

/-- The bytes of lines of output. -/
def linesOut (ls : List String) : List UInt8 := ls.flatMap fun l => Text.bytesOf (l ++ "\n")

/-- The transcript of a failure. -/
def failed (v : Voice) (message : String) : Transcript :=
  { exitCode := 1, lines := v.failure message }

/-- The bytes of the file with the items, or why they cannot be read. -/
def fileInput (m : Machine) (path : List Char) : Except String (List UInt8) :=
  let text := String.ofList path
  if text = "/dev/stdin" then .ok m.input
  else if text = "/dev/null" then .ok []
  else
    match m.surroundings.files.read m.surroundings.here (.ofText path) with
    | .ok bytes => .ok bytes
    | .error .isADirectory => .error (Command.readFailure SystemError.isADirectory.message)
    | .error e => .error ("Failed to open input file: " ++ text ++ ": " ++ e.message)

/-- The items in some bytes, or why there are none. -/
def itemsIn (bytes : List UInt8) : Except String (List (List Char)) :=
  match Command.readItems bytes with
  | some items => .ok items
  | none => .error (Command.readFailure Command.notUtf8)

/-- The items of a run. -/
def itemsOf (m : Machine) : Source → Except String (List (List Char))
  | .listed items => .ok items
  | .file path => (fileInput m path).bind itemsIn
  | .standardInput => itemsIn m.input

/-- What is told at the end of a run. -/
def closing (v : Voice) (report : Report) : List Line :=
  if report.isSuccess then v.progress s!"Completed {report.items} items"
  else
    let failures := report.failedThreads + report.joinFailures
    v.failure s!"{failures} of {report.threads} worker threads reported failures"

/-- Runs a command line for each item. -/
def runItems (m : Machine) (v : Voice) (c : Config) (items : List (List Char))
    (t : Command.Template) : Transcript :=
  let world : Command.World := {
    environment := m.surroundings.environment.map fun x => (x.name, x.value)
    files := m.surroundings.files
    here := m.surroundings.here }
  let runner : Command.Runner := { template := t, items := items, world := world }
  let pool : Pool := { sizing := c.parallel, settings := c.session }
  let n := items.length
  let log := v.log c.session.verbose
  let beginning :=
    if items.isEmpty then v.progress "No items to process"
    else
      log ((c.parallel.events m.freeMemory n).map (none, ·))
        ++ v.progress
          s!"Processing {n} items on {c.parallel.threadCount m.freeMemory n} threads"
  let p := pool.attempt m.refuses m.freeMemory n (runner.work pool.settings) Collector.machine []
  let (exitCode, ending) := match p.outcome with
    | .error e => (1, v.failure e.withCause)
    | .ok report => (report.exitCode, closing v report)
  { exitCode := exitCode
    out := p.final.gate.sink.bytes
    lines := beginning ++ log p.log ++ ending }

/-- Runs a command line for each item of a source, with the settings changed as the command line
says. -/
def run (m : Machine) (v : Voice) (c : Config) (threads : Option Nat) (source : Source)
    (trace : Bool) (words : List (List Char)) : Transcript :=
  let c := { c with
    parallel := { c.parallel with requested := threads.getD c.parallel.requested }
    session :=
      { trace := c.session.trace || trace, verbose := c.session.verbose || v.verbose } }
  match itemsOf m source with
  | .error message => failed v message
  | .ok items =>
      match Command.Template.make words c.shell c.placeholder.toList with
      | .error e => failed v e.message
      | .ok t => runItems m v c items t

/-- Tells how many threads would be started. -/
def showEstimate (m : Machine) (v : Voice) (c : Config) : Transcript :=
  let p := c.parallel
  let estimated := Sizing.estimate m.freeMemory p.memoryPerThread
  let automatic := Sizing.effectiveThreads (Text.wordSize - 1) 0 p.maxThreads estimated
  let overridden := if 0 < p.requested then
      v.information s!"parallel.threads = {p.requested} overrides the automatic choice"
    else []
  { out := linesOut [s!"estimate = {estimated}", s!"max_threads = {p.maxThreads}",
      s!"threads = {automatic}"]
    lines := v.log false [(none, Sizing.estimateEvent m.freeMemory p.memoryPerThread)]
      ++ v.progress s!"Assuming {p.memoryPerThread} MiB per worker" ++ overridden }

/-- Tells that the configuration is valid, with the settings that matter most. -/
def showValid (v : Voice) (c : Config) : Transcript where
  lines := v.success "Configuration is valid"
    ++ v.setting "parallel.threads" (toString c.parallel.requested)
    ++ v.setting "parallel.max_threads" (toString c.parallel.maxThreads)
    ++ v.setting "run.shell" c.shell

/-- Carries out a command with the settings that are in force. -/
def performWith (m : Machine) (v : Voice) (c : Config) : Request → Transcript
  | .run threads source trace words => run m v c threads source trace words
  | .estimate => showEstimate m v c
  | .configShow format => { out := linesOut [String.ofList (c.render format)] }
  | .configValidate => showValid v c
  | .version =>
      { out := linesOut [nameAndVersion, purpose, "profile: debug, target: x86_64-linux"] }

/-- Whether a command needs the settings. -/
def Request.needsSettings : Request → Bool
  | version => false
  | _ => true

/-- The level that a verbosity stands for. -/
def levelOf : (verbosity : Nat) → Level
  | 0 => .warn
  | 1 => .info
  | 2 => .debug
  | _ => .trace

/-- The variable with the filter of the log. -/
def filterVariable : List Char := "RUST_LOG".toList

/-- The filter of the log: the variables decide, unless they hold no filter; then the verbosity
does. -/
def filterOf (m : Machine) (verbosity : Nat) : Filter :=
  let named := (m.surroundings.environment.find? (·.name = filterVariable)).map (·.value)
  (named.bind Filter.read?).getD (.ofLevel (levelOf verbosity))

/-- Carries out what is asked for. -/
def perform (m : Machine) (i : Invocation) : Transcript :=
  let v : Voice := {
    verbose := 0 < i.verbosity
    quiet := i.quiet
    filter := filterOf m i.verbosity }
  match i.request with
  | none => { out := Text.bytesOf help }
  | some request =>
      if request.needsSettings then
        match Config.load m.surroundings i.config with
        | .error e => failed v e.message
        | .ok c => performWith m v c request
      else performWith m v {} request

/-- What is said about a command line that is not carried out: what it asks for, the help that it
needs, or what is wrong with it. -/
def refuse (r : Refusal) : Transcript :=
  match r with
  | .helpAsked => { out := Text.bytesOf help }
  | .versionAsked => { out := linesOut [nameAndVersion] }
  | .helpNeeded => { exitCode := r.exitCode, lines := [.usage help] }
  | r => { exitCode := r.exitCode, lines := [.usage ("error: " ++ r.message), .usage usage] }

/-- Carries out the words after the name of the program. -/
def execute (m : Machine) (words : List (List Char)) : Transcript :=
  match parse words with
  | .error r => refuse r
  | .ok i => perform m i

end OrderedDispatch.CommandLine
