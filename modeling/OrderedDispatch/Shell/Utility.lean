/-
**Utilities.**

The programs that command lines commonly call besides the shell's own commands: they read their
input or the files that they are given, and print what they make of it.  A utility is a function of
its arguments, its input and what it sees of its surroundings.

Main definitions:

* `Utility.Scene` — what a utility sees;
* `Utility.Effect` — what it prints and leaves;
* `Utility.find?` — the utility of a name.
-/

import OrderedDispatch.Config.Files
import OrderedDispatch.Shell.Condition
import OrderedDispatch.Shell.Format
import OrderedDispatch.Shell.Octets

set_option relaxedAutoImplicit false
set_option autoImplicit false

namespace OrderedDispatch.Shell.Utility

/-- What a utility sees of its surroundings. -/
structure Scene where
  files : FileTree := {}
  /-- the working directory -/
  here : FilePath := []
  /-- the variables, in order -/
  environment : List (List Char × List Char) := []
  deriving Inhabited

/-- What a utility prints and leaves. -/
structure Effect where
  out : List Char := []
  err : List Char := []
  status : Nat := 0
  /-- the input that was not read -/
  left : List Char := []
  deriving DecidableEq, Inhabited

/-- A utility. -/
abbrev Tool := Scene → (args : List (List Char)) → (input : List Char) → Effect

/-! ### Files -/

/-- The devices that hold nothing. -/
def emptyDevices : List (List Char) := ["/dev/null", "/dev/stdin", "/dev/tty"].map String.toList

/-- What a condition can learn about the file at a path. -/
def Scene.kindOf (s : Scene) (path : List Char) : Option Condition.FileKind :=
  if emptyDevices.contains path || path = "/dev/zero".toList then some .device
  else if path = ['/'] || path = "/tmp".toList || path = "/dev".toList then some .directory
  else
    match s.files.read s.here (.ofText (Octets.toText path)) with
    | .ok bytes => some (.file bytes.length)
    | .error .isADirectory => some .directory
    | .error _ => none

/-- The content of the file at a path. -/
def Scene.read (s : Scene) (path : List Char) : Except SystemError (List Char) :=
  if emptyDevices.contains path then .ok []
  else if s.kindOf path = some .directory then .error .isADirectory
  else (s.files.read s.here (.ofText (Octets.toText path))).map Octets.ofBytes

/-- A line that a program prints about itself. -/
def complaint (program : String) (text : List Char) : List Char :=
  program.toList ++ ": ".toList ++ text ++ ['\n']

/-- Applies a filter to the files that are given, or to the input; a dash stands for the input. -/
def filtered (program : String) (s : Scene) (names : List (List Char)) (input : List Char)
    (filter : List Char → List Char) : Effect :=
  if names.isEmpty then { out := filter input }
  else
    names.foldl
      (fun e name =>
        if name = ['-'] then { e with out := e.out ++ filter e.left, left := [] }
        else
          match s.read name with
          | .ok text => { e with out := e.out ++ filter text }
          | .error reason =>
              { e with
                err := e.err ++ complaint program (name ++ ": ".toList ++ reason.description.toList)
                status := 1 })
      { left := input }

/-- The effect of a program that does not know what it is asked. -/
def misused (program : String) (status : Nat) : Effect :=
  { err := complaint program "invalid usage".toList, status := status }

/-! ### Lines -/

/-- The lines of a text, each without its newline. -/
def linesOf (s : List Char) : List (List Char) :=
  let pieces := Text.splitAt '\n' s
  if pieces.getLast? = some [] then pieces.dropLast else pieces

/-- The text of some lines. -/
def unlines (ls : List (List Char)) : List Char := ls.flatMap fun l => l ++ ['\n']

/-- The text of some lines as they are, the last perhaps without a newline. -/
def rejoined (whole : List Char) (ls : List (List Char)) : List Char :=
  if whole.getLast? = some '\n' || whole.isEmpty then unlines ls else ['\n'].intercalate ls

/-- The number that a word spells. -/
def count? (w : List Char) : Option Nat := Text.natOfDigits? 10 w

/-! ### The utilities -/

/-- Copies files or the input. -/
def cat : Tool := fun s args input =>
  match args with
  | ('-' :: _ :: _) :: _ => misused "cat" 1
  | args => filtered "cat" s args input id

/-- A time to sleep: decimal digits with an optional point and unit. -/
def isDuration (w : List Char) : Bool :=
  let digits := if w.getLast?.any fun c => ['s', 'm', 'h', 'd'].contains c then w.dropLast else w
  let isAmount := digits.all fun c => Text.isDigit c || c = '.'
  w = "infinity".toList || (isAmount && digits.any Text.isDigit && digits.count '.' ≤ 1)

/-- Sleeps, which nobody can see. -/
def sleep : Tool := fun _ args input =>
  if args.isEmpty || !args.all isDuration then { misused "sleep" 1 with left := input }
  else { left := input }

/-- The numbers from a first to a last one in steps. -/
def sequence (first step last : Int) : List Int :=
  if step = 0 then []
  else
    let length := ((last - first).fdiv step + 1).toNat
    (List.range length).map fun (n : Nat) => first + step * n

/-- Prints numbers in order. -/
def seq : Tool := fun _ args input =>
  let print (ns : List Int) : Effect :=
    { out := unlines (ns.map Arithmetic.decimal), left := input }
  match args.map Text.readInt? with
  | [some last] => print (sequence 1 1 last)
  | [some first, some last] => print (sequence first 1 last)
  | [some first, some step, some last] => print (sequence first step last)
  | _ => { misused "seq" 1 with left := input }

/-- The first lines or characters. -/
def head : Tool := fun s args input =>
  let lines (n : Nat) (names : List (List Char)) : Effect :=
    filtered "head" s names input fun t =>
      let ls := linesOf t
      if ls.length ≤ n then t else unlines (ls.take n)
  let chars (n : Nat) (names : List (List Char)) : Effect :=
    filtered "head" s names input fun t => t.take n
  let orElse (n : Option Nat) (f : Nat → Effect) : Effect := (n.map f).getD (misused "head" 1)
  match args with
  | ['-', 'n'] :: n :: names => orElse (count? n) (lines · names)
  | ['-', 'c'] :: n :: names => orElse (count? n) (chars · names)
  | ('-' :: 'n' :: n) :: names => orElse (count? n) (lines · names)
  | ('-' :: 'c' :: n) :: names => orElse (count? n) (chars · names)
  | ('-' :: d :: n) :: names => orElse (count? (d :: n)) (lines · names)
  | names => lines 10 names

/-- The last lines or characters; behind a plus sign stands the first line to print. -/
def tail : Tool := fun s args input =>
  let lines (w : List Char) (names : List (List Char)) : Effect :=
    let choose (t : List Char) (keep : List (List Char) → List (List Char)) : List Char :=
      rejoined t (keep (linesOf t))
    match w with
    | '+' :: n =>
        match count? n with
        | some n => filtered "tail" s names input fun t => choose t fun ls => ls.drop (n - 1)
        | none => misused "tail" 1
    | n =>
        match count? n with
        | some n =>
            filtered "tail" s names input fun t => choose t fun ls => ls.drop (ls.length - n)
        | none => misused "tail" 1
  let chars (w : List Char) (names : List (List Char)) : Effect :=
    match count? w with
    | some n => filtered "tail" s names input fun t => t.drop (t.length - n)
    | none => misused "tail" 1
  match args with
  | ['-', 'n'] :: n :: names => lines n names
  | ['-', 'c'] :: n :: names => chars n names
  | ('-' :: 'n' :: n) :: names => lines n names
  | ('-' :: 'c' :: n) :: names => chars n names
  | ('-' :: d :: n) :: names => lines (d :: n) names
  | names => lines ['1', '0'] names

/-- The number of words of a text. -/
def wordCount (s : List Char) : Nat :=
  ((s.splitBy fun a b => Arithmetic.isSpace a == Arithmetic.isSpace b).filter fun w =>
    !w.all Arithmetic.isSpace).length

/-- Counts lines, words and characters. -/
def wc : Tool := fun s args input =>
  let flags := (args.filter fun a => a.head? = some '-' && 1 < a.length).flatMap (List.drop 1)
  let names := args.filter fun a => a.head? ≠ some '-' || a.length ≤ 1
  let wants (c : Char) : Bool := flags.isEmpty || flags.contains c
  let counts (t : List Char) : List Nat :=
    (if wants 'l' then [t.count '\n'] else []) ++ (if wants 'w' then [wordCount t] else [])
      ++ if wants 'c' || flags.contains 'm' then [t.length] else []
  let shown (width : Nat) (ns : List Nat) : List Char :=
    [' '].intercalate (ns.map fun n =>
      let digits := Nat.toDigits 10 n
      List.replicate (width - digits.length) ' ' ++ digits)
  let texts := names.map fun n => (n, s.read n)
  if !flags.all fun c => ['l', 'w', 'c', 'm'].contains c then misused "wc" 1
  else if names.isEmpty then
    let ns := counts input
    { out := shown (if ns.length ≤ 1 then 0 else 7) ns ++ ['\n'] }
  else
    texts.foldl
      (fun e t =>
        match t.2 with
        | .ok text =>
            let width := (Nat.toDigits 10 text.length).length
            { e with out := e.out ++ shown width (counts text) ++ ' ' :: t.1 ++ ['\n'] }
        | .error reason =>
            { e with
              err := e.err ++ complaint "wc" (t.1 ++ ": ".toList ++ reason.description.toList)
              status := 1 })
      { left := input }

/-- The characters of a set, with ranges, classes and escapes written out. -/
def charSet : Nat → List Char → List Char
  | 0, _ => []
  | _, [] => []
  | fuel + 1, '[' :: ':' :: rest =>
      let between (a b : Char) : List Char :=
        (List.range (b.toNat + 1 - a.toNat)).map fun n => Char.ofNat (a.toNat + n)
      let members := match String.ofList (rest.takeWhile (· ≠ ':')) with
        | "upper" => between 'A' 'Z'
        | "lower" => between 'a' 'z'
        | "digit" => between '0' '9'
        | "alpha" => between 'A' 'Z' ++ between 'a' 'z'
        | "alnum" => between '0' '9' ++ between 'A' 'Z' ++ between 'a' 'z'
        | "space" => between '\t' '\r' ++ [' ']
        | "blank" => ['\t', ' ']
        | _ => []
      members ++ charSet fuel ((rest.dropWhile (· ≠ ']')).drop 1)
  | fuel + 1, '\\' :: rest =>
      let (c, rest) := Format.escape rest
      c ++ charSet fuel rest
  | fuel + 1, a :: '-' :: b :: rest =>
      (List.range (b.toNat + 1 - a.toNat)).map (fun n => Char.ofNat (a.toNat + n))
        ++ charSet fuel rest
  | fuel + 1, c :: rest => c :: charSet fuel rest

/-- A text without repetitions of the characters of a set. -/
def squeezed (set : List Char) : List Char → List Char
  | a :: b :: rest =>
      if a = b && set.contains a then squeezed set (b :: rest) else a :: squeezed set (b :: rest)
  | s => s

/-- Replaces, drops or squeezes characters. -/
def tr : Tool := fun _ args input =>
  let flags := (args.takeWhile fun a => a.head? = some '-' && 1 < a.length).flatMap (List.drop 1)
  let sets := (args.dropWhile fun a => a.head? = some '-' && 1 < a.length).map fun a =>
    charSet (a.length + 1) a
  let outside := flags.contains 'c' || flags.contains 'C'
  let inFirst (set : List Char) (c : Char) : Bool := set.contains c != outside
  match flags.contains 'd', flags.contains 's', sets with
  | true, false, [set] => { out := input.filter fun c => !inFirst set c }
  | true, true, [set, again] => { out := squeezed again (input.filter fun c => !inFirst set c) }
  | false, true, [set] => { out := squeezed (if outside then [] else set) input }
  | false, squeezes, [set, image] =>
      let last := image.getLast?
      let swap (c : Char) : Char :=
        if outside then if set.contains c then c else last.getD c
        else
          match set.reverse.idxOf? c with
          | some n => ((image[set.length - 1 - n]?).or last).getD c
          | none => c
      let out := input.map swap
      { out := if squeezes then squeezed image out else out }
  | _, _, _ => misused "tr" 1

/-- The leading integer of a line. -/
def leadingInt (l : List Char) : Int :=
  match Arithmetic.skip l with
  | '-' :: ds => -((count? (ds.takeWhile Text.isDigit)).getD 0 : Nat)
  | ds => ((count? (ds.takeWhile Text.isDigit)).getD 0 : Nat)

/-- Sorts lines. -/
def sort : Tool := fun s args input =>
  let flags := (args.filter fun a => a.head? = some '-' && 1 < a.length).flatMap (List.drop 1)
  let names := args.filter fun a => a.head? ≠ some '-' || a.length ≤ 1
  let source := filtered "sort" s names input fun t => unlines (linesOf t)
  let below (a b : List Char) : Bool :=
    if flags.contains 'n' && leadingInt a ≠ leadingInt b then leadingInt a < leadingInt b
    else a < b
  let sorted := (linesOf source.out).mergeSort fun a b =>
    if flags.contains 'r' then !below a b else !below b a
  let same (a b : List Char) : Bool :=
    if flags.contains 'n' then leadingInt a = leadingInt b else a = b
  let groups := sorted.splitBy same
  if !flags.all fun c => ['n', 'r', 'u'].contains c then misused "sort" 2
  else
    let lines := if flags.contains 'u' then groups.map (·.headD []) else sorted
    { source with out := unlines lines }

/-- Leaves out lines that repeat the one before. -/
def uniq : Tool := fun s args input =>
  let flags := (args.filter fun a => a.head? = some '-' && 1 < a.length).flatMap (List.drop 1)
  let names := args.filter fun a => a.head? ≠ some '-' || a.length ≤ 1
  let source := filtered "uniq" s (names.take 1) input fun t => unlines (linesOf t)
  let groups := (linesOf source.out).splitBy fun a b => a = b
  let groups := groups.filter fun g =>
    (!flags.contains 'd' || 1 < g.length) && (!flags.contains 'u' || g.length = 1)
  let shown (g : List (List Char)) : List Char :=
    if flags.contains 'c' then
      let digits := Nat.toDigits 10 g.length
      List.replicate (7 - digits.length) ' ' ++ digits ++ ' ' :: g.headD []
    else g.headD []
  if !flags.all fun c => ['c', 'd', 'u'].contains c then misused "uniq" 1
  else { source with out := unlines (groups.map shown) }

/-- A path without the slashes at its end. -/
def withoutSlashes (path : List Char) : List Char := (path.reverse.dropWhile (· = '/')).reverse

/-- The last name of a path. -/
def basename : Tool := fun _ args input =>
  let last (path : List Char) : List Char :=
    let bare := withoutSlashes path
    if bare.isEmpty && !path.isEmpty then ['/'] else (Text.splitAt '/' bare).getLastD []
  match args with
  | [path] => { out := last path ++ ['\n'], left := input }
  | [path, suffix] =>
      let name := last path
      let cut := if suffix.isSuffixOf name && suffix ≠ name then
        name.take (name.length - suffix.length) else name
      { out := cut ++ ['\n'], left := input }
  | _ => { misused "basename" 1 with left := input }

/-- The directory that a path leads through. -/
def dirname : Tool := fun _ args input =>
  let above (path : List Char) : List Char :=
    let bare := withoutSlashes path
    if !bare.contains '/' then if bare.isEmpty && !path.isEmpty then ['/'] else ['.']
    else
      let rest := withoutSlashes (bare.reverse.dropWhile (· ≠ '/')).reverse
      if rest.isEmpty then ['/'] else rest
  if args.isEmpty then { misused "dirname" 1 with left := input }
  else { out := unlines (args.map above), left := input }

/-- Prints variables of the environment. -/
def printenv : Tool := fun s args input =>
  if args.isEmpty then
    { out := unlines (s.environment.map fun v => v.1 ++ '=' :: v.2), left := input }
  else
    let found := args.map fun name => (s.environment.find? fun v => v.1 = name).map Prod.snd
    { out := unlines (found.filterMap id)
      status := if found.all Option.isSome then 0 else 1
      left := input }

/-- Prints the arguments as they are. -/
def echo : Tool := fun _ args input => { out := Format.echoedPlainly args, left := input }

/-- Fills the arguments into a format. -/
def printf : Tool := fun _ args input =>
  match args with
  | [] => { misused "printf" 2 with left := input }
  | format :: rest =>
      let (format, rest) := if format = ['-', '-'] then (rest.headD [], rest.drop 1)
        else (format, rest)
      let (out, verdict) := Format.printed format rest
      let status := match verdict with
        | .clean => 0
        | .badArgument => 1
        | .badFormat => 2
      { out := out, status := status, left := input }

/-- The effect of a program that only answers yes or no. -/
def answering (holds : Option Bool) (program : String) (input : List Char) : Effect :=
  match holds with
  | some true => { left := input }
  | some false => { status := 1, left := input }
  | none => { misused program 2 with left := input }

/-- Checks a condition. -/
def test : Tool := fun s args input => answering (Condition.holds? s.kindOf args) "test" input

/-- Checks a condition in brackets. -/
def bracket : Tool := fun s args input =>
  let holds := if args.getLast? = some [']'] then Condition.holds? s.kindOf args.dropLast else none
  answering holds "[" input

/-- Copies the input to the output; the copies for the files that are named are not kept. -/
def tee : Tool := fun _ args input =>
  if args.any fun a => a.head? = some '-' && a ≠ ['-', 'a'] then misused "tee" 1
  else { out := input }

/-- The utility of a name. -/
def find? (name : List Char) : Option Tool :=
  match String.ofList name with
  | "cat" => some cat
  | "sleep" => some sleep
  | "seq" => some seq
  | "head" => some head
  | "tail" => some tail
  | "wc" => some wc
  | "tr" => some tr
  | "sort" => some sort
  | "uniq" => some uniq
  | "basename" => some basename
  | "dirname" => some dirname
  | "printenv" => some printenv
  | "echo" => some echo
  | "printf" => some printf
  | "test" => some test
  | "[" => some bracket
  | "tee" => some tee
  | "true" => some fun _ _ input => { left := input }
  | "false" => some fun _ _ input => { status := 1, left := input }
  | _ => none

/-- The directories with programs. -/
def programDirectories : List (List Char) := ["/bin/", "/usr/bin/"].map String.toList

/-- Whether programs are found by their bare names, given the list of directories to search. -/
def searches (path : Option (List Char)) : Bool :=
  match path with
  | none => true
  | some p =>
      (Text.splitAt ':' p).any fun d => programDirectories.contains (withoutSlashes d ++ ['/'])

/-- The name of a program by which it is known, given its name or its path. -/
def knownAs (name : List Char) : List Char :=
  match programDirectories.filterMap fun d => Text.stripStart? d name with
  | bare :: _ => if bare.contains '/' then name else bare
  | [] => name

end OrderedDispatch.Shell.Utility
