/-
**Files and the ways to them.**

A tree of files is all that the program can see of a file system.  A path is followed name by name:
a dot stays, two dots go up, and any other name goes down into a directory.  A relative path to a
settings file is tried in the working directory and then in each directory above it.  Messages name
a file by the way to it from the working directory.

Main definitions:

* `FileTree` — files and directories, each by the names that lead to it from the root;
* `FileTree.follow` — where a path leads;
* `Location`, `FileTree.search?` — a path as it is written, and the file that it is found at;
* `FileTree.wayTo` — the way from one place to another.
-/

import OrderedDispatch.Fault
import OrderedDispatch.Text.Pattern

set_option relaxedAutoImplicit false
set_option autoImplicit false

namespace OrderedDispatch

/-- The name of a file or a directory. -/
abbrev Name := List Char

/-- The names that lead from the root to a file or a directory. -/
abbrev FilePath := List Name

/-- The files and directories that the program can see. -/
structure FileTree where
  files : List (FilePath × List UInt8) := []
  /-- directories, with all those above them, besides the ones that hold files -/
  directories : List FilePath := []
  /-- whether the tree is the whole file system, not a part of it at an unknown place -/
  isWhole : Bool := false
  deriving Inhabited

/-- A path as it is written: from the working directory, from the root of the tree or from the root
of the whole file system. -/
inductive Location where
  | relative (steps : List Name)
  | fromRoot (steps : List Name)
  | absolute (steps : List Name)
  deriving DecidableEq, Inhabited

namespace Location

/-- The location that a text spells; what begins with a slash is seen from the root of the whole
file system. -/
def ofText (s : List Char) : Location :=
  match s with
  | '/' :: s => .absolute (Text.splitAt '/' s)
  | s => .relative (Text.splitAt '/' s)

/-- A location below another. -/
def below (steps : List Name) : Location → Location
  | relative base => .relative (base ++ steps)
  | fromRoot base => .fromRoot (base ++ steps)
  | absolute base => .absolute (base ++ steps)

end Location

namespace FileTree

/-- The content of a file. -/
def file? (t : FileTree) (path : FilePath) : Option (List UInt8) :=
  (t.files.find? fun f => f.1 = path).map Prod.snd

/-- Whether a directory is at a place. -/
def isDirectory (t : FileTree) (path : FilePath) : Bool :=
  path.isEmpty || (t.files.any fun f => f.1.length > path.length && f.1.take path.length = path)
    || t.directories.any fun d => d.take path.length = path

/-- Where the names lead to from a directory. -/
def follow (t : FileTree) (here : FilePath) : List Name → Except SystemError FilePath
  | [] =>
      if t.isDirectory here || (t.file? here).isSome then .ok here else .error .notFound
  | name :: rest =>
      if t.isDirectory here then
        if name = [] || name = ['.'] then follow t here rest
        else if name = ['.', '.'] then follow t here.dropLast rest
        else follow t (here ++ [name]) rest
      else if (t.file? here).isSome then .error .notADirectory
      else .error .notFound

/-- The content of the file that the names lead to, or why there is none. -/
def content (t : FileTree) (here : FilePath) (steps : List Name) :
    Except SystemError (List UInt8) :=
  match t.follow here steps with
  | .error e => .error e
  | .ok path =>
      match t.file? path with
      | some bytes => .ok bytes
      | none => .error .isADirectory

/-- The content of the file at a location. -/
def read (t : FileTree) (here : FilePath) : Location → Except SystemError (List UInt8)
  | .relative steps => if steps = [[]] then .error .notFound else t.content here steps
  | .fromRoot steps => t.content [] steps
  | .absolute steps => if t.isWhole then t.content [] steps else .error .notFound

/-- Whether a file is at a location. -/
def isFile (t : FileTree) (here : FilePath) (l : Location) : Bool := (t.read here l).isOk

/-- The names of a path without dots and empty names. -/
def tidy (steps : List Name) : List Name := steps.filter fun n => n ≠ [] && n ≠ ['.']

/-- The way from one place to another; common names at the start are left out. -/
def wayTo : (here : FilePath) → (path : List Name) → List Name
  | a :: here, b :: path => if a = b then wayTo here path
      else (a :: here).map (fun _ => ['.', '.']) ++ b :: path
  | here, path => here.map (fun _ => ['.', '.']) ++ path

/-- A file that was found: how messages name it, and what it holds. -/
structure Hit where
  name : String
  bytes : List UInt8
  deriving DecidableEq, Inhabited

/-- A file as it is seen from the working directory. -/
def hit (here : FilePath) (path : List Name) (bytes : List UInt8) : Hit where
  name := String.ofList (['/'].intercalate (wayTo here path))
  bytes := bytes

/-- The file that relative names lead to from a directory or from one above it; `up` counts the
directories still to try. -/
def searchUp? (t : FileTree) (here : FilePath) (steps : List Name) : Nat → FilePath → Option Hit
  | left, base =>
      match t.content base steps with
      | .ok bytes => some (hit here (base ++ tidy steps) bytes)
      | .error _ =>
          match left with
          | 0 => none
          | left + 1 => searchUp? t here steps left base.dropLast

/-- The file that names lead to from the root. -/
def hitFromRoot? (t : FileTree) (here : FilePath) (steps : List Name) : Option Hit :=
  match t.content [] steps with
  | .ok bytes => some (hit here (tidy steps) bytes)
  | .error _ => none

/-- The file at a location; a relative one is looked for in the working directory and then in each
directory above it. -/
def search? (t : FileTree) (here : FilePath) : Location → Option Hit
  | .relative steps => t.searchUp? here steps here.length here
  | .fromRoot steps => t.hitFromRoot? here steps
  | .absolute steps => if t.isWhole then t.hitFromRoot? here steps else none

end FileTree

end OrderedDispatch
