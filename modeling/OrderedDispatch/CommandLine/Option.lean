/-
**Options and commands of the command line.**

A command line names a command, perhaps one inside of another, and each command has options of its
own besides those that all of them share.  An option is written with two dashes and its name or with
one dash and its letter.

Main definitions:

* `Place` — the commands, with the one that stands for no command yet;
* `Opt` — the options, with their spellings;
* `Opt.judge` — which values an option takes.

Main results:

* `Place.option_of_long`, `Place.option_of_short` — each spelling means one option at most.
-/

import OrderedDispatch.Text.Numeral

set_option relaxedAutoImplicit false
set_option autoImplicit false

namespace OrderedDispatch.CommandLine

/-- The places of a command line where options may stand: before any command, and in each one. -/
inductive Place where
  | root
  | run
  | estimate
  | config
  | version
  | configShow
  | configValidate
  deriving DecidableEq, Inhabited

/-- The options. -/
inductive Opt where
  | config
  | verbose
  | quiet
  | help
  | version
  | threads
  | input
  | item
  | trace
  | format
  deriving DecidableEq, Inhabited

namespace Place

/-- The commands that may follow. -/
def commands : Place → List (String × Place)
  | root => [("run", run), ("estimate", estimate), ("config", config), ("version", version)]
  | config => [("show", configShow), ("validate", configValidate)]
  | _ => []

/-- The options that may stand in every command. -/
def shared : List Opt := [.config, .verbose, .quiet, .help, .version]

/-- The options that may stand here. -/
def options : Place → List Opt
  | run => shared ++ [.threads, .input, .item, .trace]
  | configShow => shared ++ [.format]
  | _ => shared

/-- Whether further words may stand here. -/
def takesWords : Place → Bool
  | run => true
  | _ => false

/-- Whether a command must follow. -/
def needsCommand : Place → Bool
  | config => true
  | _ => false

/-- Whether a command may follow. -/
def hasCommands (p : Place) : Bool := !p.commands.isEmpty

/-- The command of a name. -/
def command? (p : Place) (name : List Char) : Option Place :=
  (p.commands.find? fun c => c.1.toList = name).map Prod.snd

end Place

namespace Opt

/-- The name of an option. -/
def long : Opt → String
  | config => "config"
  | verbose => "verbose"
  | quiet => "quiet"
  | help => "help"
  | version => "version"
  | threads => "threads"
  | input => "input"
  | item => "item"
  | trace => "trace"
  | format => "format"

/-- The letter of an option, if it has one. -/
def short? : Opt → Option Char
  | config => some 'c'
  | verbose => some 'v'
  | quiet => some 'q'
  | help => some 'h'
  | version => some 'V'
  | threads => some 'P'
  | input => some 'i'
  | trace => some 'x'
  | item => none
  | format => none

/-- Whether a value belongs to an option. -/
def takesValue : Opt → Bool
  | config => true
  | threads => true
  | input => true
  | item => true
  | format => true
  | _ => false

/-- Whether an option may stand more than once. -/
def repeats : Opt → Bool
  | verbose => true
  | item => true
  | _ => false

end Opt

/-- Why a command line is not carried out.  The first two ask for an answer of their own, and help
is needed where nothing at all is said; a bad value is missing or none of those that its option
takes, a bad number is none that its option takes, and a conflict is an option given twice or
together with one that excludes it. -/
inductive Refusal where
  | helpAsked
  | versionAsked
  | helpNeeded
  | missingCommand
  | unknownCommand
  | unknownArgument
  | unwantedValue
  | badValue
  | badNumber
  | conflict
  | missingWords
  deriving DecidableEq, Inhabited

/-- The exit status after a refusal: what was asked for is no failure. -/
def Refusal.exitCode : Refusal → Nat
  | helpAsked => 0
  | versionAsked => 0
  | _ => 2

/-- How the configuration is to be shown. -/
def formats : List String := ["toml", "json"]

/-- What is wrong with a value for an option, if anything is. -/
def Opt.judge (o : Opt) (value : List Char) : Option Refusal :=
  match o with
  | threads => if (Text.readWord? value).isSome then none else some .badNumber
  | input => if value.isEmpty then some .badValue else none
  | format => if formats.contains (String.ofList value) then none else some .badValue
  | _ => none

/-- The option of a name, where one stands. -/
def Place.long? (p : Place) (name : List Char) : Option Opt :=
  p.options.find? fun o => o.long.toList = name

/-- The option of a letter, where one stands. -/
def Place.short? (p : Place) (letter : Char) : Option Opt :=
  p.options.find? fun o => o.short? = some letter

/-- Each name means one option at most. -/
theorem Place.option_of_long (p : Place) (o : Opt) (h : o ∈ p.options) :
    p.long? o.long.toList = some o := by
  revert h
  cases p <;> cases o <;> decide

/-- Each letter means one option at most. -/
theorem Place.option_of_short (p : Place) (o : Opt) (c : Char) (h : o ∈ p.options)
    (hc : o.short? = some c) : p.short? c = some o := by
  revert h
  cases o <;> cases hc <;> cases p <;> decide

end OrderedDispatch.CommandLine
