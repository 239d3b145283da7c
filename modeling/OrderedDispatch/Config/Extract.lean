/-
**The settings of the program.**

Of all values in the layers seven are settings of the program, in three sections.  Each is converted
from its winning value; other keys are ignored, and a missing key leaves the default.  A section may
also be given as a list, whose items are then its settings in order.  Sections and the settings in
them are looked at in the order of their names, and the first that cannot be converted is complained
about.

Main definitions:

* `Config` — the settings;
* `Config.word?`, `Config.text?`, `Config.flag?` — how values are converted;
* `Config.Setting.fromTable`, `Config.Setting.fromList` — a section's settings from a table and from
  a list;
* `Config.extract` — the settings of a tree.
-/

import OrderedDispatch.Command.Flag
import OrderedDispatch.Config.Complaint
import OrderedDispatch.Session.Basic
import OrderedDispatch.Sizing

set_option relaxedAutoImplicit false
set_option autoImplicit false

namespace OrderedDispatch

/-- The settings of the program. -/
structure Config where
  /-- how many threads to start -/
  parallel : Sizing.Policy := {}
  /-- the flags of every session -/
  session : Settings := {}
  /-- the program that runs command lines -/
  shell : String := "sh"
  /-- the gap for the item in command lines -/
  placeholder : String := "\x7b\x7d"
  deriving DecidableEq, Inhabited

namespace Config

/-! ### Conversion -/

/-- A complaint about a value at hand. -/
def complain {α : Type} (fault : Fault) (t : Tree) : Except Complaint α :=
  .error (.atKey fault [] t.origin)

/-- A whole number of 64 bits without sign. -/
def word? (expected : Expected) (t : Tree) : Except Complaint Nat :=
  match t with
  | .leaf _ (.int signed n) =>
      if isWide n then complain (.wrongType (.scalar (.int signed n)) expected) t
      else if n < 0 then complain (.wrongValue (.scalar (.int signed n)) expected) t
      else .ok n.toNat
  | t => complain (.wrongType (.ofTree t) expected) t

/-- A text. -/
def text? (t : Tree) : Except Complaint String :=
  match t with
  | .leaf _ (.text s) => .ok (String.ofList s)
  | t => complain (.wrongType (.ofTree t) .text) t

/-- The flag that a value stands for: a truth value, zero or one, or a word for it. -/
def flagOf : Found → Except Fault Bool
  | .scalar (.bool b) => .ok b
  | .scalar (.int signed n) =>
      if n = 0 then .ok false
      else if n = 1 then .ok true
      else if isWide n then .error (.wrongType (.scalar (.int signed n)) .flag)
      else .error (.wrongValue (.scalar (.int signed n)) .flag)
  | .scalar (.text s) =>
      match Flag.parse s with
      | some b => .ok b
      | none => .error (.wrongValue (.scalar (.text s)) .flag)
  | found => .error (.wrongType found .flag)

/-- A flag. -/
def flag? (t : Tree) : Except Complaint Bool :=
  match flagOf (.ofTree t) with
  | .ok b => .ok b
  | .error fault => complain fault t

/-! ### Sections -/

/-- One setting of a section: its key, and how its value changes the section. -/
structure Setting (α : Type) where
  key : Key
  set : Tree → α → Except Complaint α

namespace Setting

variable {α : Type}

/-- A section with the settings that a table holds. -/
def fromTable (entries : List (Key × Tree)) : List (Setting α) → α → Except Complaint α
  | [], a => .ok a
  | s :: rest, a =>
      match Entries.get? s.key entries with
      | none => fromTable entries rest a
      | some v =>
          match s.set v a with
          | .error c => .error (c.under s.key)
          | .ok a => fromTable entries rest a

/-- A section with the settings that a list holds, from a position on. -/
def fromList (position : Nat) : List (Setting α) → List Tree → α → Except Complaint α
  | s :: rest, v :: values, a =>
      match s.set v a with
      | .error c => .error (c.under (Nat.toDigits 10 position))
      | .ok a => fromList (position + 1) rest values a
  | _, _, a => .ok a

end Setting

/-- A section: its name in complaints, its settings in the order of a list, and the same in the
order of their names. -/
structure Section (α : Type) where
  name : String
  inOrder : List (Setting α)
  byName : List (Setting α)

/-- A section read from its value. -/
def Section.read {α : Type} (c : Section α) (default : α) (t : Tree) : Except Complaint α :=
  match t with
  | .table _ entries => Setting.fromTable entries c.byName default
  | .list _ values => Setting.fromList 0 c.inOrder values default
  | t => complain (.wrongType (.ofTree t) (.settings c.name)) t

/-- The thread count asked for. -/
def threadsSetting : Setting Sizing.Policy where
  key := "threads".toList
  set t p := (word? .count t).map fun n => { p with requested := n }

/-- The cap on a chosen thread count. -/
def maxThreadsSetting : Setting Sizing.Policy where
  key := "max_threads".toList
  set t p := (word? .count t).map fun n => { p with maxThreads := n }

/-- The memory reckoned for each thread. -/
def memorySetting : Setting Sizing.Policy where
  key := "memory_per_thread_mb".toList
  set t p := (word? .amount t).map fun n => { p with memoryPerThread := n }

/-- The section that decides the number of threads. -/
def parallelSection : Section Sizing.Policy where
  name := "ParallelConfig"
  inOrder := [threadsSetting, maxThreadsSetting, memorySetting]
  byName := [maxThreadsSetting, memorySetting, threadsSetting]

/-- Whether sessions log their beginning and end. -/
def traceSetting : Setting Settings where
  key := "trace".toList
  set t s := (flag? t).map fun b => { s with trace := b }

/-- Whether progress is logged prominently. -/
def verboseSetting : Setting Settings where
  key := "verbose".toList
  set t s := (flag? t).map fun b => { s with verbose := b }

/-- The section with the flags of every session. -/
def sessionSection : Section Settings where
  name := "SessionConfig"
  inOrder := [traceSetting, verboseSetting]
  byName := [traceSetting, verboseSetting]

/-- The program that runs command lines. -/
def shellSetting : Setting (String × String) where
  key := "shell".toList
  set t r := (text? t).map fun s => (s, r.2)

/-- The gap for the item in command lines. -/
def placeholderSetting : Setting (String × String) where
  key := "placeholder".toList
  set t r := (text? t).map fun s => (r.1, s)

/-- The section about command lines: the shell and the item's gap. -/
def runSection : Section (String × String) where
  name := "RunConfig"
  inOrder := [shellSetting, placeholderSetting]
  byName := [placeholderSetting, shellSetting]

/-- The section that decides the number of threads, as a setting of the whole. -/
def parallelPart : Setting Config where
  key := "parallel".toList
  set t c := (parallelSection.read {} t).map fun p => { c with parallel := p }

/-- The section about command lines, as a setting of the whole. -/
def runPart : Setting Config where
  key := "run".toList
  set t c := (runSection.read ("sh", "\x7b\x7d") t).map fun r =>
    { c with shell := r.1, placeholder := r.2 }

/-- The section with the flags of every session, as a setting of the whole. -/
def sessionPart : Setting Config where
  key := "session".toList
  set t c := (sessionSection.read {} t).map fun s => { c with session := s }

/-- The settings of a tree. -/
def extract (t : Tree) : Except Complaint Config :=
  Setting.fromTable t.entries [parallelPart, runPart, sessionPart] {}

/-- What introduces a complaint about the settings. -/
def parseContext : String := "Failed to parse configuration: "

/-! ### Handing values out -/

mutual

/-- A value without its origins, if all whole numbers in it fit 64 bits; entries come in the order
of their keys. -/
def plain : Tree → Except Complaint Doc
  | .leaf o (.int signed n) =>
      if isWide n then .error (.atKey .tooWide [] o) else .ok (.scalar (.int signed n))
  | .leaf _ s => .ok (.scalar s)
  | .list _ items => (plainItems 0 items).map .list
  | .table _ entries => (plainEntries entries).map .table

/-- The items of a list from a position on. -/
def plainItems (position : Nat) : List Tree → Except Complaint (List Doc)
  | [] => .ok []
  | t :: rest =>
      match plain t with
      | .error c => .error (c.under (Nat.toDigits 10 position))
      | .ok d => (plainItems (position + 1) rest).map (d :: ·)

/-- The entries of a table. -/
def plainEntries : List (Key × Tree) → Except Complaint (List (Key × Doc))
  | [] => .ok []
  | (k, t) :: rest =>
      match plain t with
      | .error c => .error (c.under k)
      | .ok d => (plainEntries rest).map ((k, d) :: ·)

end

/-- The keys of a dotted path up to the first that is empty. -/
def sectionKeys (path : List Char) : List Key :=
  (Text.splitAt '.' path).takeWhile fun k => !k.isEmpty

/-- The value that a dotted path leads to. -/
def sectionOf (t : Tree) (path : List Char) : Except Complaint Doc :=
  match t.find? (sectionKeys path) with
  | none => .error (.missing path)
  | some v =>
      match plain v with
      | .ok d => .ok d
      | .error c => .error ((sectionKeys path).foldr Complaint.under c)

end Config

end OrderedDispatch
