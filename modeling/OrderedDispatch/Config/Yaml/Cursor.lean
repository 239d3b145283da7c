/-
**A place in a YAML text.**

Columns matter in YAML, and so does whether a key may begin at a place: it may at the start of a
line and after a mark of a list, but not after a key or a value on the same line.  A tab is no
indentation, so it may not stand where a key may begin.

Main definitions:

* `Config.Yaml.Cursor` — the rest of a text, with its column, its line and whether a key may begin;
* `Config.Yaml.Cursor.skipBlank?` — past white space, line breaks and comments.
-/

import OrderedDispatch.Config.Reader

set_option relaxedAutoImplicit false
set_option autoImplicit false

namespace OrderedDispatch.Config.Yaml

/-- A place in a text. -/
structure Cursor where
  /-- the text from there on -/
  rest : List Char
  /-- how many characters stand before it in its line -/
  column : Nat := 0
  /-- how many lines are before its line -/
  line : Nat := 0
  /-- whether a key may begin there -/
  fresh : Bool := true
  deriving DecidableEq, Inhabited

/-- Whether a text is at its end or goes on with white space or a line break. -/
def atBlank : List Char → Bool
  | [] => true
  | c :: _ => c = ' ' || c = '\t' || c = '\n'

namespace Cursor

/-- The place so many characters further on in the same line. -/
def skip (c : Cursor) (count : Nat) : Cursor :=
  { c with rest := c.rest.drop count, column := c.column + count }

/-- The place after something on the same line, where no key may begin. -/
def past (c : Cursor) (count : Nat) : Cursor := { c.skip count with fresh := false }

/-- The place at the start of the next line, after the line break at this place. -/
def nextLine (c : Cursor) : Cursor :=
  { rest := c.rest.drop 1, column := 0, line := c.line + 1, fresh := true }

/-- The place after the white space at this place. -/
def skipSpaces (c : Cursor) : Cursor :=
  c.skip (c.rest.takeWhile fun d => d = ' ' || d = '\t').length

/-- Whether a mark for the start or the end of a document stands at this place. -/
def atMarker (c : Cursor) : Bool :=
  c.column = 0 &&
    match c.rest with
    | '-' :: '-' :: '-' :: rest => atBlank rest
    | '.' :: '.' :: '.' :: rest => atBlank rest
    | _ => false

/-- Whether nothing of the document follows. -/
def atEnd (c : Cursor) : Bool := c.rest.isEmpty || c.atMarker

/-- The place past white space, line breaks and comments; `none` if a tab stands where a key may
begin.  Inside of brackets line breaks do not let a key begin. -/
def skipBlank? (flow : Bool) : Nat → Cursor → Option Cursor
  | 0, c => some c
  | steps + 1, c =>
      match c.rest with
      | ' ' :: _ => skipBlank? flow steps (c.skip 1)
      | '\t' :: _ => if c.fresh && !flow then none else skipBlank? flow steps (c.skip 1)
      | '#' :: rest =>
          skipBlank? flow steps (c.skip (1 + (rest.takeWhile (· ≠ '\n')).length))
      | '\n' :: _ =>
          skipBlank? flow steps { c.nextLine with fresh := if flow then c.fresh else true }
      | _ => some c

/-- The next place where something stands. -/
def next? (flow : Bool) (c : Cursor) : Option Cursor := c.skipBlank? flow (c.rest.length + 1)

end Cursor

/-- Line breaks as one character each. -/
def unifyBreaks : List Char → List Char
  | '\r' :: '\n' :: rest => '\n' :: unifyBreaks rest
  | '\r' :: rest => '\n' :: unifyBreaks rest
  | '\u0085' :: rest => '\n' :: unifyBreaks rest
  | c :: rest => c :: unifyBreaks rest
  | [] => []

/-- A character that may stand in a text at all. -/
def isAllowed (c : Char) : Bool :=
  c = '\t' || c = '\n' || c = '\r' || (0x20 ≤ c.toNat && c.toNat ≤ 0x7E) || c.toNat = 0x85
    || (0xA0 ≤ c.toNat && c.toNat ≠ 0xFEFF && c.toNat ≠ 0xFFFE && c.toNat ≠ 0xFFFF)

end OrderedDispatch.Config.Yaml
