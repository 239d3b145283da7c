/-
**Patterns.**

A pattern is a text in which a star stands for any text, a question mark for any character, and a
bracket for one of a set of characters; quotes take those meanings away.  A pattern is matched as a
whole, or cut from one end of a value.

Main definitions:

* `Glob.Glyph`, `Glob.Mark` — a character that may be quoted, and an element of a pattern;
* `Glob.compile` — the pattern that some characters spell;
* `Glob.accepts` — whether a pattern matches a text;
* `Glob.trim` — a value without what a pattern matches at one end.

Main results:

* `Glob.accepts_exactly` — a pattern of fixed characters accepts exactly those characters.
-/

import OrderedDispatch.Shell.Node
import OrderedDispatch.Text.Numeral

set_option relaxedAutoImplicit false
set_option autoImplicit false

namespace OrderedDispatch.Shell.Glob

/-- A character, and whether it may have a meaning in a pattern. -/
structure Glyph where
  char : Char
  active : Bool
  deriving DecidableEq, Inhabited

/-- An element of a pattern; it may ask for a character in one of some ranges, or in none of them.
-/
inductive Mark where
  | exactly (c : Char)
  | anyChar
  | anyText
  | oneOf (outside : Bool) (ranges : List (Char × Char))
  deriving DecidableEq, Inhabited

/-! ### From characters to patterns -/

/-- The ranges of a named class of characters. -/
def classRanges (name : List Char) : List (Char × Char) :=
  match String.ofList name with
  | "alpha" => [('a', 'z'), ('A', 'Z')]
  | "digit" => [('0', '9')]
  | "alnum" => [('a', 'z'), ('A', 'Z'), ('0', '9')]
  | "upper" => [('A', 'Z')]
  | "lower" => [('a', 'z')]
  | "space" => [(' ', ' '), ('\t', '\r')]
  | "blank" => [(' ', ' '), ('\t', '\t')]
  | "punct" => [('!', '/'), (':', '@'), ('[', '\x60'), ('\x7b', '~')]
  | "xdigit" => [('0', '9'), ('a', 'f'), ('A', 'F')]
  | _ => []

/-- The ranges in a bracket and what follows it, none if the bracket is not closed; a closing
bracket that comes first stands for itself. -/
def ranges? : Nat → (first : Bool) → List Glyph → Option (List (Char × Char) × List Glyph)
  | 0, _, _ => none
  | fuel + 1, first, s =>
      match s with
      | [] => none
      | ⟨'[', true⟩ :: ⟨':', true⟩ :: rest =>
          let name := (rest.takeWhile fun g => g.char ≠ ':').map Glyph.char
          match rest.dropWhile fun g => g.char ≠ ':' with
          | _ :: ⟨']', true⟩ :: rest =>
              (ranges? fuel false rest).map fun r => (classRanges name ++ r.1, r.2)
          | _ => none
      | a :: ⟨'-', true⟩ :: b :: rest =>
          if a.char = ']' && a.active && !first then some ([], ⟨'-', true⟩ :: b :: rest)
          else if b.char = ']' && b.active then
            (ranges? fuel false (b :: rest)).map fun r =>
              ((a.char, a.char) :: ('-', '-') :: r.1, r.2)
          else (ranges? fuel false rest).map fun r => ((a.char, b.char) :: r.1, r.2)
      | a :: rest =>
          if a.char = ']' && a.active && !first then some ([], rest)
          else (ranges? fuel false rest).map fun r => ((a.char, a.char) :: r.1, r.2)

/-- The set that the characters after an opening bracket spell, and what follows it. -/
def set? (s : List Glyph) : Option (Mark × List Glyph) :=
  match s with
  | ⟨'!', true⟩ :: rest =>
      (ranges? (rest.length + 1) true rest).map fun r => (.oneOf true r.1, r.2)
  | ⟨'^', true⟩ :: rest =>
      (ranges? (rest.length + 1) true rest).map fun r => (.oneOf true r.1, r.2)
  | rest => (ranges? (rest.length + 1) true rest).map fun r => (.oneOf false r.1, r.2)

/-- The elements of a pattern, read with a bound on their number. -/
def marks : Nat → List Glyph → List Mark
  | 0, _ => []
  | _, [] => []
  | fuel + 1, g :: rest =>
      if !g.active then .exactly g.char :: marks fuel rest
      else
        match g.char with
        | '*' => .anyText :: marks fuel rest
        | '?' => .anyChar :: marks fuel rest
        | '[' =>
            match set? rest with
            | some (m, rest) => m :: marks fuel rest
            | none => .exactly '[' :: marks fuel rest
        | c => .exactly c :: marks fuel rest

/-- The pattern that some characters spell. -/
def compile (s : List Glyph) : List Mark := marks s.length s

/-- Whether a pattern stands for anything but its own characters. -/
def isActive (pattern : List Mark) : Bool :=
  pattern.any fun m => match m with
    | .exactly _ => false
    | _ => true

/-! ### Matching -/

/-- Whether a character is an instance of an element that stands for one character. -/
def Mark.admits (m : Mark) (c : Char) : Bool :=
  match m with
  | exactly d => d = c
  | anyChar => true
  | anyText => false
  | oneOf outside ranges => (ranges.any fun r => r.1 ≤ c && c ≤ r.2) != outside

/-- Whether a pattern matches a whole text. -/
def accepts : List Mark → List Char → Bool
  | [], s => s.isEmpty
  | .anyText :: ps, [] => accepts ps []
  | .anyText :: ps, c :: s => accepts ps (c :: s) || accepts (.anyText :: ps) s
  | _ :: _, [] => false
  | m :: ps, c :: s => m.admits c && accepts ps s
  termination_by ps s => ps.length + s.length

/-- A pattern of fixed characters accepts exactly those characters. -/
theorem accepts_exactly (p s : List Char) : accepts (p.map .exactly) s = true ↔ s = p := by
  induction p generalizing s with
  | nil => rw [List.map_nil, accepts, List.isEmpty_iff]
  | cons c p ih =>
      cases s with
      | nil =>
          rw [List.map_cons, accepts] <;> simp
      | cons d s =>
          rw [List.map_cons, accepts, Bool.and_eq_true, ih]
          · simp [Mark.admits, eq_comm]
          · simp

/-- A value without the shortest or longest part at one end that a pattern matches. -/
def trim (t : Trim) (pattern : List Mark) (value : List Char) : List Char :=
  let lengths := List.range (value.length + 1)
  let lengths := if t.longest then lengths.reverse else lengths
  let found := lengths.find? fun n =>
    if t.atStart then accepts pattern (value.take n)
    else accepts pattern (value.drop (value.length - n))
  match found with
  | some n => if t.atStart then value.drop n else value.take (value.length - n)
  | none => value

end OrderedDispatch.Shell.Glob
