/-
**Formatted printing.**

Two commands of the shell write text with escapes: one prints its arguments with a blank between
each two, the other fills them into a format, which is used again as long as arguments are left.
A backslash escape stands for one byte, given by a letter or by up to three octal digits.

Main definitions:

* `Format.unescape` — a text with its escapes replaced, up to the one that ends all output;
* `Format.echoed` — the arguments on a line;
* `Format.Directive`, `Format.printed` — a gap of a format, and the arguments filled in.
-/

import OrderedDispatch.Shell.Arithmetic

set_option relaxedAutoImplicit false
set_option autoImplicit false

namespace OrderedDispatch.Shell.Format

/-! ### Escapes -/

/-- The byte that a letter after a backslash stands for. -/
def letter? : Char → Option Char
  | 'a' => some '\x07'
  | 'b' => some '\x08'
  | 'e' => some '\x1b'
  | 'f' => some '\x0c'
  | 'n' => some '\n'
  | 'r' => some '\r'
  | 't' => some '\t'
  | 'v' => some '\x0b'
  | '\\' => some '\\'
  | _ => none

/-- An octal digit. -/
def isOctal (c : Char) : Bool := '0' ≤ c && c ≤ '7'

/-- The byte of up to three octal digits at the start of a text, and what follows. -/
def octal (s : List Char) : Char × List Char :=
  let digits := (s.take 3).takeWhile isOctal
  (Char.ofNat ((Text.natOfDigits? 8 digits).getD 0 % 256), s.drop digits.length)

/-- What a backslash and the text after it stand for, and what follows. -/
def escape (s : List Char) : List Char × List Char :=
  match s with
  | [] => (['\\'], [])
  | c :: rest =>
      if isOctal c then ([(octal s).1], (octal s).2)
      else
        match letter? c with
        | some byte => ([byte], rest)
        | none => (['\\'], s)

/-- A text with its escapes replaced, and whether one of them ended all output. -/
def unescapeWith : Nat → List Char → List Char × Bool
  | 0, _ => ([], false)
  | _, [] => ([], false)
  | fuel + 1, '\\' :: rest =>
      match rest with
      | 'c' :: _ => ([], true)
      | rest =>
          let digits := match rest with
            | '0' :: d :: _ => if isOctal d then rest.drop 1 else rest
            | _ => rest
          let (bytes, rest) := escape digits
          let (more, stopped) := unescapeWith fuel rest
          (bytes ++ more, stopped)
  | fuel + 1, c :: rest =>
      let (more, stopped) := unescapeWith fuel rest
      (c :: more, stopped)

/-- A text with its escapes replaced, and whether one of them ended all output. -/
def unescape (s : List Char) : List Char × Bool := unescapeWith (s.length + 1) s

/-- The arguments with a blank between each two, escapes replaced, and the newline at the end. -/
def echoWords (newline : Bool) : List (List Char) → List Char
  | [] => if newline then ['\n'] else []
  | w :: ws =>
      let (text, stopped) := unescape w
      if stopped then text
      else text ++ (if ws.isEmpty then [] else [' ']) ++ echoWords newline ws

/-- The arguments on a line of their own; a first argument `-n` leaves out the newline. -/
def echoed (args : List (List Char)) : List Char :=
  match args with
  | ['-', 'n'] :: rest => if rest.isEmpty then [] else echoWords false rest
  | args => echoWords true args

/-- The arguments on a line of their own, as they are. -/
def echoedPlainly (args : List (List Char)) : List Char :=
  match args with
  | ['-', 'n'] :: rest => [' '].intercalate rest
  | args => [' '].intercalate args ++ ['\n']

/-! ### Formats -/

/-- A gap of a format. -/
structure Directive where
  /-- the flags before the width -/
  flags : List Char := []
  /-- the least number of characters -/
  width : Nat := 0
  /-- what the precision is, if it is given -/
  precision : Option Nat := none
  /-- the letter that says what is filled in -/
  conversion : Char := 's'
  deriving DecidableEq, Inhabited

/-- What printing has come to: the output, the arguments that are left, and whether the output ends
here or an argument was no number. -/
structure Progress where
  /-- the output, last part first -/
  parts : List (List Char) := []
  args : List (List Char) := []
  stopped : Bool := false
  failed : Bool := false
  /-- whether a gap of no known kind was met -/
  malformed : Bool := false
  deriving Inhabited

/-- The progress with some more output. -/
def Progress.say (p : Progress) (text : List Char) : Progress := { p with parts := text :: p.parts }

/-- The next argument, empty if none is left, and the progress without it. -/
def Progress.next (p : Progress) : List Char × Progress :=
  (p.args.headD [], { p with args := p.args.drop 1 })

/-- The number that an argument spells, and whether it spells one to its end; a quote is followed
by the character whose code is meant. -/
def argumentNumber (arg : List Char) : Int × Bool :=
  match arg with
  | [] => (0, true)
  | '\'' :: c :: _ => (c.toNat, true)
  | '"' :: c :: _ => (c.toNat, true)
  | arg =>
      match Arithmetic.numberOf? arg with
      | some n => (n, true)
      | none =>
          let digits := (Arithmetic.skip arg).takeWhile Text.isDigit
          (((Text.natOfDigits? 10 digits).getD 0 : Nat), false)

/-- A text filled up to a width. -/
def Directive.pad (d : Directive) (text : List Char) : List Char :=
  let gap := List.replicate (d.width - text.length) ' '
  if d.flags.contains '-' then text ++ gap else gap ++ text

/-- Digits behind a sign, filled up with zeros to the precision, or to the width if that is asked
for. -/
def Directive.number (d : Directive) (sign digits : List Char) : List Char :=
  let zeros (n : Nat) : List Char := List.replicate (n - digits.length) '0'
  match d.precision with
  | some p => d.pad (sign ++ zeros p ++ digits)
  | none =>
      if d.flags.contains '0' && !d.flags.contains '-' then
        sign ++ zeros (d.width - sign.length) ++ digits
      else d.pad (sign ++ digits)

/-- The sign that is written before a number. -/
def Directive.sign (d : Directive) (negative : Bool) : List Char :=
  if negative then ['-']
  else if d.flags.contains '+' then ['+']
  else if d.flags.contains ' ' then [' ']
  else []

/-- Fills the next argument into a gap. -/
def Directive.fill (d : Directive) (p : Progress) : Progress :=
  let (arg, q) := p.next
  let (n, clean) := argumentNumber arg
  let counted := { q with failed := q.failed || !clean }
  let word := Arithmetic.unsigned n
  match d.conversion with
  | '%' => p.say ['%']
  | 'c' => q.say (d.pad [arg.headD '\x00'])
  | 's' => q.say (d.pad (arg.take (d.precision.getD arg.length)))
  | 'b' =>
      let (text, stopped) := unescape arg
      { q.say (d.pad (text.take (d.precision.getD text.length))) with stopped := stopped }
  | 'd' => counted.say (d.number (d.sign (n < 0)) (Nat.toDigits 10 n.natAbs))
  | 'i' => counted.say (d.number (d.sign (n < 0)) (Nat.toDigits 10 n.natAbs))
  | 'u' => counted.say (d.number [] (Nat.toDigits 10 word))
  | 'o' =>
      counted.say (d.number (if d.flags.contains '#' && word ≠ 0 then ['0'] else [])
        (Nat.toDigits 8 word))
  | 'x' =>
      counted.say (d.number (if d.flags.contains '#' && word ≠ 0 then ['0', 'x'] else [])
        (Nat.toDigits 16 word))
  | 'X' =>
      counted.say (d.number (if d.flags.contains '#' && word ≠ 0 then ['0', 'X'] else [])
        ((Nat.toDigits 16 word).map Char.toUpper))
  | _ => { p with stopped := true, malformed := true }

/-- A width or a precision, which a star takes from the arguments, and what follows. -/
def size (p : Progress) (s : List Char) : Nat × Progress × List Char :=
  match s with
  | '*' :: rest => ((argumentNumber p.next.1).1.toNat, p.next.2, rest)
  | s => ((Text.natOfDigits? 10 (s.takeWhile Text.isDigit)).getD 0, p, s.dropWhile Text.isDigit)

/-- The gap after a percent sign, the progress after its stars, and what follows. -/
def directive (p : Progress) (s : List Char) : Directive × Progress × List Char :=
  let isFlag (c : Char) : Bool := ['-', '+', ' ', '#', '0'].contains c
  let (width, p, rest) := size p (s.dropWhile isFlag)
  let (precision, p, rest) := match rest with
    | '.' :: rest =>
        let (n, p, rest) := size p rest
        (some n, p, rest)
    | rest => (none, p, rest)
  match rest with
  | c :: rest => (⟨s.takeWhile isFlag, width, precision, c⟩, p, rest)
  | [] => (⟨s.takeWhile isFlag, width, precision, ' '⟩, p, [])

/-- Goes through a format once. -/
def once : Nat → List Char → Progress → Progress
  | 0, _, p => p
  | _, [], p => p
  | fuel + 1, '\\' :: rest, p =>
      let (bytes, rest) := escape rest
      once fuel rest (p.say bytes)
  | fuel + 1, '%' :: rest, p =>
      let (d, p, rest) := directive p rest
      let p := d.fill p
      if p.stopped then p else once fuel rest p
  | fuel + 1, c :: rest, p => once fuel rest (p.say [c])

/-- Goes through a format again as long as that uses arguments up. -/
def repeatedly (format : List Char) : Nat → Progress → Progress
  | 0, p => p
  | fuel + 1, p =>
      let q := once (format.length + 1) format p
      if q.stopped || q.args.isEmpty || q.args.length = p.args.length then q
      else repeatedly format fuel q

/-- How filling in a format went: well, or with an argument that was no number, or with a gap of no
known kind. -/
inductive Verdict where
  | clean
  | badArgument
  | badFormat
  deriving DecidableEq, Inhabited

/-- The arguments filled into a format, and how that went. -/
def printed (format : List Char) (args : List (List Char)) : List Char × Verdict :=
  let p := repeatedly format (args.length + 1) { args := args }
  (p.parts.reverse.flatten,
    if p.malformed then .badFormat else if p.failed then .badArgument else .clean)

end OrderedDispatch.Shell.Format
