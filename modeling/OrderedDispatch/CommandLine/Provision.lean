/-
**What the program needs from the system.**

Before a command line is carried out, the files that may matter to it are read, and so is the
standard input if the items come from there.  Which ones these are follows from the command line and
the places around it.  The system tells its variables and its free memory as texts.

Main definitions:

* `Provision.needsInput` — whether the standard input has to be read;
* `Provision.paths` — the files to look for;
* `Provision.home` — the user's own directory;
* `Provision.environment`, `Provision.freeMemory` — the readings of the system's own texts.
-/

import OrderedDispatch.CommandLine.Execution

set_option relaxedAutoImplicit false
set_option autoImplicit false

namespace OrderedDispatch.CommandLine.Provision

/-- Whether the standard input has to be read. -/
def needsInput (i : Invocation) : Bool :=
  match i.request with
  | some (.run _ .standardInput _ _) => true
  | some (.run _ (.file path) _ _) => path = "/dev/stdin".toList
  | _ => false

/-- A directory and all those above it. -/
def withParents (directory : FilePath) : List FilePath :=
  (List.range (directory.length + 1)).map directory.take

/-- The places that a location may lead to, in the working directory or above it. -/
def placesOf (here : FilePath) : Location → List FilePath
  | .relative steps => (withParents here).map fun d => d ++ FileTree.tidy steps
  | .fromRoot steps => [FileTree.tidy steps]
  | .absolute steps => [FileTree.tidy steps]

/-- The locations of the files that may matter. -/
def locations (s : Config.Surroundings) (i : Invocation) : List Location :=
  let source := match i.request with
    | some (.run _ (.file path) _ _) => [Location.ofText path]
    | _ => []
  let standard := (Config.candidates "config").map (fun n => (Config.userDirectory s).below [n])
    ++ (Config.candidates "orderly").map fun n => .relative [n]
  i.config.toList.map Location.ofText ++ standard ++ source

/-- The files to look for. -/
def paths (s : Config.Surroundings) (i : Invocation) : List FilePath :=
  ((locations s i).flatMap (placesOf s.here)).eraseDups

/-- The path of a file as a text. -/
def pathText (path : FilePath) : String := String.ofList (path.flatMap fun name => '/' :: name)

/-- The user's own directory, as a text names it.  What is below it is found by writing further
names behind the text, so that an empty text stands for the root. -/
def home (text : List Char) : Location := if text = [] then .absolute [] else .ofText text

/-- What is below the user's own directory is where the text leads with further names behind it. -/
theorem below_home (text further : List Char) :
    (home text).below (Text.splitAt '/' further) = .ofText (text ++ '/' :: further) := by
  cases text with
  | nil => rfl
  | cons c text =>
      rw [home, if_neg (List.cons_ne_nil c text)]
      by_cases hc : c = '/'
      · subst hc
        exact congrArg Location.absolute (Text.splitAt_append '/' text further).symm
      · have hrelative : ∀ s, Location.ofText (c :: s) = .relative (Text.splitAt '/' (c :: s)) := by
          intro s
          rw [Location.ofText]
          rintro _ h
          exact hc (List.cons.inj h).1
        rw [List.cons_append, hrelative, hrelative]
        exact congrArg Location.relative (Text.splitAt_append '/' (c :: text) further).symm

/-- The variables in a text that ends each of them with a zero. -/
def environment (text : List Char) : List Config.Environment.Variable :=
  (Text.splitAt '\x00' text).filterMap fun entry =>
    match entry.dropWhile (· ≠ '=') with
    | _ :: value => some ⟨entry.takeWhile (· ≠ '='), value⟩
    | [] => none

/-- The line of the system's account of its memory that tells how much is free. -/
def memoryLine : String := "MemAvailable:"

/-- The free memory in bytes, by the system's account in units of 1024; zero if it is not told. -/
def freeMemory (text : String) : Nat :=
  let found := (Text.splitString '\n' text).filterMap fun line =>
    Text.stripStart? memoryLine.toList line.toList
  match found with
  | rest :: _ =>
      1024 * ((Text.natOfDigits? 10 ((Text.trimStart rest).takeWhile Text.isDigit)).getD 0)
  | [] => 0

end OrderedDispatch.CommandLine.Provision
