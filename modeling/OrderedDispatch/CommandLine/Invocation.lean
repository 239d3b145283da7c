/-
**What a command line asks for.**

The words of a command line are read from left to right.  A word that begins with a dash is an
option, or several letters of options; an option that takes a value takes it from its own word or
from the next one.  A word that names a command hands the rest over to that command.  Where a
command line for the items is expected, the first word that is no option begins it, and nothing
after that is an option any more; there even a word that looks like an option begins it, if no
option is spelt that way.

The value of an option is judged when the next option or word is reached, so a later word can be
refused before an earlier value.  An option that all commands share counts where it stands deepest.

Main definitions:

* `Reading` — what has been read of one command;
* `Reading.accept`, `Reading.settle` — taking an option, and judging the one that is open;
* `walk` — the reading of all words;
* `Request`, `Invocation`, `parse` — what is asked for.

Main results:

* `Reading.settle_of_settled` — nothing is judged twice;
* `verbosity_le` — the verbosity is at most 255.
-/

import OrderedDispatch.CommandLine.Option
import OrderedDispatch.Config.Render

set_option relaxedAutoImplicit false
set_option autoImplicit false

namespace OrderedDispatch.CommandLine

/-- An option that was given, with its value if it takes one. -/
structure Given where
  opt : Opt
  value : List Char := []
  deriving DecidableEq, Inhabited

/-- An option that is not yet judged: its value may still be to come. -/
structure Open where
  opt : Opt
  value : Option (List Char)
  deriving DecidableEq, Inhabited

/-- What has been read of one command. -/
structure Reading where
  /-- the options that were judged, the latest first -/
  given : List Given := []
  /-- the option that was read last, if it is not yet judged -/
  pending : Option Open := none
  /-- whether two dashes have ended the options -/
  ended : Bool := false
  deriving DecidableEq, Inhabited

namespace Reading

/-- Takes an option with the value that it has, if any. -/
def accept (r : Reading) (o : Open) : Except Refusal Reading :=
  match o.opt with
  | .help => .error .helpAsked
  | .version => .error .versionAsked
  | opt =>
      if opt.takesValue && o.value.isNone then .error .badValue
      else if !opt.repeats && r.given.any (·.opt = opt) then .error .conflict
      else
        let value := o.value.getD []
        match opt.judge value with
        | some refusal => .error refusal
        | none => .ok { r with given := ⟨opt, value⟩ :: r.given }

/-- Judges the option that is open. -/
def settle (r : Reading) : Except Refusal Reading :=
  match r.pending with
  | none => .ok r
  | some o => { r with pending := none }.accept o

/-- Nothing is judged twice. -/
theorem settle_of_settled {r : Reading} (h : r.pending = none) : r.settle = .ok r := by
  simp [settle, h]

/-- Judges the option that is open and takes another one with the value that it has. -/
def add (r : Reading) (opt : Opt) (value : Option (List Char)) : Except Refusal Reading :=
  match r.settle with
  | .ok r => r.accept ⟨opt, value⟩
  | .error e => .error e

/-- Judges the option that is open and opens another one, whose value is to come. -/
def await (r : Reading) (opt : Opt) : Except Refusal Reading :=
  match r.settle with
  | .ok r => .ok { r with pending := some ⟨opt, none⟩ }
  | .error e => .error e

/-- The option whose value comes next. -/
def awaiting? (r : Reading) : Option Opt :=
  match r.pending with
  | some ⟨opt, none⟩ => some opt
  | _ => none

/-- Takes a word as the value of an option. -/
def fill (r : Reading) (opt : Opt) (value : List Char) : Reading :=
  { r with pending := some ⟨opt, some value⟩ }

/-- The number of times that an option was given. -/
def count (r : Reading) (opt : Opt) : Nat := r.given.countP (·.opt = opt)

/-- Whether an option was given. -/
def has (r : Reading) (opt : Opt) : Bool := r.given.any (·.opt = opt)

/-- The values of an option, in the order in which they were given. -/
def values (r : Reading) (opt : Opt) : List (List Char) :=
  (r.given.reverse.filter (·.opt = opt)).map Given.value

end Reading

/-! ### Options in a word -/

/-- What kind of word stands on a command line: two dashes and nothing else, the name of an option
with perhaps a value in the same word, letters of options, one at least, or any other word. -/
inductive Shape where
  | end
  | long (name : List Char) (value : Option (List Char))
  | letters (cs : List Char)
  | word
  deriving DecidableEq, Inhabited

/-- The name before an equals sign, and the value after it. -/
def nameAndValue (s : List Char) : List Char × Option (List Char) :=
  match s.dropWhile (· ≠ '=') with
  | _ :: value => (s.takeWhile (· ≠ '='), some value)
  | [] => (s, none)

/-- The kind of a word. -/
def shapeOf : List Char → Shape
  | ['-', '-'] => .end
  | '-' :: '-' :: s => .long (nameAndValue s).1 (nameAndValue s).2
  | ['-'] => .word
  | '-' :: cs => .letters cs
  | _ => .word

/-- What reading a word as options comes to; a word may be ordinary though it looks like options. -/
inductive Taken where
  | options (r : Reading)
  | ordinary
  deriving Inhabited

/-- Reads the name of an option with the value in its word. -/
def takeLong (p : Place) (r : Reading) (name : List Char) (value : Option (List Char)) :
    Except Refusal Taken :=
  match p.long? name with
  | some opt =>
      if opt.takesValue then
        match value with
        | some v => (r.add opt (some v)).map .options
        | none => (r.await opt).map .options
      else if value.isSome then .error .unwantedValue
      else (r.add opt none).map .options
  | none => if p.takesWords then .ok .ordinary else .error .unknownArgument

/-- The value that follows the letter of an option in the same word, without an equals sign. -/
def attached : List Char → Option (List Char)
  | [] => none
  | '=' :: v => some v
  | v => some v

/-- Reads letters of options; what follows an option that takes a value is its value. -/
def takeLetters (p : Place) (r : Reading) : List Char → Except Refusal Reading
  | [] => .ok r
  | c :: cs =>
      match p.short? c with
      | none => .error .unknownArgument
      | some opt =>
          if opt.takesValue then
            match attached cs with
            | some v => r.add opt (some v)
            | none => r.await opt
          else
            match r.add opt none with
            | .ok r => takeLetters p r cs
            | .error e => .error e

/-- Reads a word of letters. -/
def takeShort (p : Place) (r : Reading) (cs : List Char) : Except Refusal Taken :=
  if p.takesWords && !cs.all fun c => (p.short? c).isSome then .ok .ordinary
  else (takeLetters p r cs).map .options

/-! ### The whole command line -/

/-- What was read: the commands from the outermost to the innermost, each with its options, and the
words of the last one. -/
structure Trail where
  steps : List (Place × Reading) := []
  words : List (List Char) := []
  deriving Inhabited

/-- Whether help can be had about a command inside of another, by their names. -/
def helpOn : Place → List (List Char) → Refusal
  | _, [] => .helpAsked
  | p, name :: names =>
      match p.command? name with
      | some p => helpOn p names
      | none =>
          if p.hasCommands && name = "help".toList && names.isEmpty then .helpAsked
          else .unknownCommand

/-- What is wrong with a command whose words have all been read, if anything is. -/
def verdict (p : Place) (r : Reading) (words : List (List Char)) : Option Refusal :=
  if p.needsCommand then
    if r.given.isEmpty then some .helpNeeded else some .missingCommand
  else if r.has .input && r.has .item then some .conflict
  else if p.takesWords && words.isEmpty then some .missingWords
  else none

/-- The end of the words of a command. -/
def finish (p : Place) (r : Reading) (words : List (List Char)) : Except Refusal Trail :=
  match r.settle with
  | .error e => .error e
  | .ok r =>
      match verdict p r words with
      | some refusal => .error refusal
      | none => .ok ⟨[(p, r)], words⟩

/-- A word that is neither an option nor the value of one. -/
def refusalOf (p : Place) (r : Reading) (word : List Char) : Refusal :=
  let isCommand := (p.command? word).isSome || word = "help".toList
  if p.hasCommands && !(r.ended && isCommand) then .unknownCommand else .unknownArgument

/-- A trail with one more command before it, whose open option is judged last. -/
def Trail.below (p : Place) (r : Reading) : Except Refusal Trail → Except Refusal Trail
  | .error e => .error e
  | .ok t =>
      match r.settle with
      | .error e => .error e
      | .ok r => .ok { t with steps := (p, r) :: t.steps }

/-- Reads the words of a command. -/
def walk (p : Place) (r : Reading) : List (List Char) → Except Refusal Trail
  | [] => finish p r []
  | word :: rest =>
      let ordinary (_ : Unit) : Except Refusal Trail :=
        if p.takesWords then finish p r (word :: rest) else .error (refusalOf p r word)
      let valueOrWord (_ : Unit) : Except Refusal Trail :=
        match r.awaiting? with
        | some opt => walk p (r.fill opt word) rest
        | none => ordinary ()
      let options (taken : Except Refusal Taken) : Except Refusal Trail :=
        match taken with
        | .error e => .error e
        | .ok (.options r) => walk p r rest
        | .ok .ordinary => valueOrWord ()
      if r.ended then ordinary ()
      else
        match if r.awaiting?.isNone then p.command? word else none with
        | some inner => Trail.below p r (walk inner {} rest)
        | none =>
            if r.awaiting?.isNone && p.hasCommands && word = "help".toList then
              .error (helpOn p rest)
            else
              match shapeOf word with
              | .end => walk p { r with ended := true } rest
              | .long name value => options (takeLong p r name value)
              | .letters cs => options (takeShort p r cs)
              | .word => valueOrWord ()

/-! ### What is asked for -/

/-- Where the items come from: the command line, the lines of a file or those of the standard input.
-/
inductive Source where
  | listed (items : List (List Char))
  | file (path : List Char)
  | standardInput
  deriving DecidableEq, Inhabited

/-- A command with what belongs to it. -/
inductive Request where
  | run (threads : Option Nat) (source : Source) (trace : Bool) (words : List (List Char))
  | estimate
  | version
  | configShow (format : Config.Format)
  | configValidate
  deriving Inhabited

/-- What a command line asks for. -/
structure Invocation where
  /-- the file with the configuration -/
  config : Option (List Char) := none
  verbosity : Nat := 0
  quiet : Bool := false
  request : Option Request := none
  deriving Inhabited

/-- The greatest verbosity. -/
def greatestVerbosity : Nat := 255

/-- The deepest command with an option. -/
def deepest? (t : Trail) (opt : Opt) : Option Reading :=
  (t.steps.reverse.find? fun s => s.2.has opt).map Prod.snd

/-- How often verbosity was asked for, where that was done deepest. -/
def verbosity (t : Trail) : Nat :=
  min greatestVerbosity (((deepest? t .verbose).map fun r => r.count .verbose).getD 0)

/-- The verbosity is at most the greatest one. -/
theorem verbosity_le (t : Trail) : verbosity t ≤ greatestVerbosity := Nat.min_le_left _ _

/-- Where the items of a run come from: items on the command line come first, then a file. -/
def sourceOf (r : Reading) : Source :=
  match r.values .item with
  | i :: is => .listed (i :: is)
  | [] =>
      match (r.values .input).head? with
      | some path => .file path
      | none => .standardInput

/-- The command that the innermost step of a trail is. -/
def request? (t : Trail) : Option Request :=
  match t.steps.getLast? with
  | none => none
  | some (p, r) =>
      match p with
      | .run =>
          some (.run ((r.values .threads).head?.bind Text.readWord?) (sourceOf r) (r.has .trace)
            t.words)
      | .estimate => some .estimate
      | .version => some .version
      | .configShow =>
          let wantsJson := (r.values .format).head? = some "json".toList
          some (.configShow (if wantsJson then .json else .toml))
      | .configValidate => some .configValidate
      | .root => none
      | .config => none

/-- What the words after the name of the program ask for. -/
def parse (words : List (List Char)) : Except Refusal Invocation :=
  match walk .root {} words with
  | .error e => .error e
  | .ok t =>
      .ok {
        config := (deepest? t .config).bind fun r => (r.values .config).head?
        verbosity := verbosity t
        quiet := (deepest? t .quiet).isSome
        request := request? t }

end OrderedDispatch.CommandLine
