/-
**From words to fields.**

Expanding a word gives characters of three standings: those written outside of quotes, those that
quotes protect, and those that an unquoted expansion brought in.  Only the last are split into
fields, at the separators of the shell; a field with an unquoted pattern in it stands for the files
that the pattern matches, if there are any.

Main definitions:

* `Standing`, `Bit` — the parts of an expanded word;
* `Fields.split` — the fields of expanded words;
* `Fields.paths` — the files that a pattern matches.

Main results:

* `Fields.split_firm` — a text that quotes protect is one field.
-/

import OrderedDispatch.Shell.Glob
import OrderedDispatch.Shell.State

set_option relaxedAutoImplicit false
set_option autoImplicit false

namespace OrderedDispatch.Shell

/-- Where a character of an expanded word comes from: from the word itself outside of quotes, from
inside of quotes, or from an expansion outside of quotes. -/
inductive Standing where
  | plain
  | firm
  | loose
  deriving DecidableEq, Inhabited

/-- A part of an expanded word: a character, the mark of a field that is here even if nothing is in
it, or the place where one field ends and another may begin. -/
inductive Bit where
  | glyph (c : Char) (standing : Standing)
  | presence
  | boundary
  deriving DecidableEq, Inhabited

namespace Bit

/-- The parts of a text of one standing. -/
def ofText (standing : Standing) (s : List Char) : List Bit := s.map fun c => glyph c standing

/-- The parts of what an expansion brings in. -/
def ofValue (quoted : Bool) (s : List Char) : List Bit :=
  if quoted then presence :: ofText .firm s else ofText .loose s

/-- The parts of a word that stands in for a value: unless it is quoted, it is split like one. -/
def asValue (quoted : Bool) (bits : List Bit) : List Bit :=
  if quoted then bits
  else
    bits.map fun b => match b with
      | glyph c .plain => glyph c .loose
      | b => b

/-- The parts of a list of values, each a field of its own. -/
def ofValues (quoted : Bool) (values : List (List Char)) : List Bit :=
  [boundary].intercalate (values.map (ofValue quoted))

/-- The characters of expanded words, with a blank where one field ends. -/
def chars (bits : List Bit) : List Char :=
  bits.filterMap fun b => match b with
    | glyph c _ => some c
    | presence => none
    | boundary => some ' '

/-- The characters of expanded words as those of a pattern. -/
def glyphs (bits : List Bit) : List Glob.Glyph :=
  bits.filterMap fun b => match b with
    | glyph c standing => some ⟨c, standing ≠ .firm⟩
    | presence => none
    | boundary => some ⟨' ', false⟩

end Bit

namespace Fields

/-- The separators that are not named by any variable. -/
def defaultSeparators : List Char := [' ', '\t', '\n']

/-- Fields being collected: those that are complete, last first; the characters of the one that is
not, last first, if one has begun; and whether white space has just ended a field. -/
structure Collector where
  complete : List (List Glob.Glyph) := []
  current : Option (List Glob.Glyph) := none
  afterSpace : Bool := false
  deriving Inhabited

/-- Ends the field that has begun, if one has. -/
def Collector.close (k : Collector) (afterSpace : Bool) : Collector :=
  match k.current with
  | some field => ⟨field.reverse :: k.complete, none, afterSpace⟩
  | none => k

/-- Adds a character to the field that has begun, or begins one. -/
def Collector.push (k : Collector) (g : Glob.Glyph) : Collector :=
  { k with current := some (g :: k.current.getD []), afterSpace := false }

/-- Takes a part into account. -/
def Collector.add (separators : List Char) (k : Collector) : Bit → Collector
  | .presence => { k with current := some (k.current.getD []), afterSpace := false }
  | .boundary => k.close false
  | .glyph c .plain => k.push ⟨c, true⟩
  | .glyph c .firm => k.push ⟨c, false⟩
  | .glyph c .loose =>
      if !separators.contains c then k.push ⟨c, true⟩
      else if defaultSeparators.contains c then k.close true
      else if k.current.isSome then k.close false
      else if k.afterSpace then { k with afterSpace := false }
      else { k with complete := [] :: k.complete }

/-- The fields of an expanded word. -/
def split (separators : List Char) (bits : List Bit) : List (List Glob.Glyph) :=
  ((bits.foldl (Collector.add separators) {}).close false).complete.reverse

/-- Protected characters all come into the field that has begun. -/
theorem foldl_firm (separators : List Char) (s : List Char) (k : Collector)
    (field : List Glob.Glyph) (h : k.current = some field) :
    ((Bit.ofText .firm s).foldl (Collector.add separators) k).close false
      = ⟨(field.reverse ++ s.map (⟨·, false⟩)) :: k.complete, none, false⟩ := by
  induction s generalizing k field with
  | nil => simp [Bit.ofText, Collector.close, h]
  | cons c s ih =>
      have := ih (k.push ⟨c, false⟩) (⟨c, false⟩ :: field) (by simp [Collector.push, h])
      simpa [Bit.ofText, Collector.add, Collector.push] using this

/-- A text that quotes protect is one field. -/
theorem split_firm (separators : List Char) (s : List Char) :
    split separators (Bit.ofValue true s) = [s.map (⟨·, false⟩)] := by
  have := foldl_firm separators s ⟨[], some [], false⟩ [] rfl
  simp [split, Bit.ofValue, Collector.add, this]

/-- The text of a field. -/
def text (field : List Glob.Glyph) : List Char := field.map Glob.Glyph.char

/-! ### Files that a pattern matches -/

/-- The names in a directory, in order. -/
def namesIn (t : FileTree) (directory : FilePath) : List (List Char) :=
  let paths := t.files.map Prod.fst ++ t.directories
  let names := paths.filterMap fun p =>
    if p.take directory.length = directory then p[directory.length]?.map Octets.ofText else none
  names.eraseDups.mergeSort fun a b => !decide (b < a)

/-- The pieces of a pattern between slashes. -/
def components : List Glob.Glyph → List (List Glob.Glyph)
  | [] => [[]]
  | g :: s =>
      if g.char = '/' then [] :: components s
      else
        match components s with
        | [] => [[g]]
        | piece :: pieces => (g :: piece) :: pieces

/-- Whether a piece of a pattern matches a name; a point at the start has to be written out. -/
def admits (piece : List Glob.Glyph) (name : List Char) : Bool :=
  (name.head? ≠ some '.' || (piece.head?.map Glob.Glyph.char) = some '.')
    && Glob.accepts (Glob.compile piece) name

/-- The paths below a directory that match, each as it is written and as it leads from the root. -/
def matchesBelow (t : FileTree) :
    List (List Glob.Glyph) → (written : List Char) → (directory : FilePath) → List (List Char)
  | [], written, _ => [written]
  | piece :: pieces, written, directory =>
      let slash := if pieces.isEmpty then [] else ['/']
      if !Glob.isActive (Glob.compile piece) then
        let name := text piece
        match t.follow directory [Octets.toText name] with
        | .ok path => matchesBelow t pieces (written ++ name ++ slash) path
        | .error _ => []
      else
        ((namesIn t directory).filter (admits piece)).flatMap fun name =>
          let path := directory ++ [Octets.toText name]
          if pieces.isEmpty || t.isDirectory path then
            matchesBelow t pieces (written ++ name ++ slash) path
          else []

/-- The files that a field stands for if it is a pattern that matches some, and else its text. -/
def paths (t : FileTree) (here : FilePath) (field : List Glob.Glyph) : List (List Char) :=
  if !Glob.isActive (Glob.compile field) || (field.head?.map Glob.Glyph.char) = some '/' then
    [text field]
  else
    match matchesBelow t (components field) [] here with
    | [] => [text field]
    | found => found

end Fields

end OrderedDispatch.Shell
