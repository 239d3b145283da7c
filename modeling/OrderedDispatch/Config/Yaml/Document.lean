/-
**Documents of YAML.**

A text holds one document, with directives and marks for its start and its end if it likes.  Where
nothing stands the document is an empty table.

Main definitions:

* `Config.Yaml.afterDirectives?` — the place where the document begins;
* `Config.Yaml.read?` — the value that a whole text spells.

Main results:

* `Config.Yaml.nested_of_read?` — no text spells a value that is nested deeper than is allowed.
-/

import OrderedDispatch.Config.Yaml.Node

set_option relaxedAutoImplicit false
set_option autoImplicit false

namespace OrderedDispatch.Config.Yaml

/-- Whether a line that starts with a percent sign is a directive that is known. -/
def isDirective (line : List Char) : Bool :=
  match ((Text.splitAt ' ' line).filter fun w => !w.isEmpty).take 2 with
  | [word, argument] =>
      (word = "%YAML".toList && (argument = "1.1".toList || argument = "1.2".toList))
        || word = "%TAG".toList
  | _ => false

/-- Past the directives at the start of a text: whether there were any, and the place. -/
def skipDirectives? : Nat → Bool → Cursor → Option (Bool × Cursor)
  | 0, _, _ => none
  | steps + 1, any, c => do
      let c ← c.next? false
      match c.rest with
      | '%' :: _ =>
          if c.column = 0 && isDirective (c.rest.takeWhile (· ≠ '\n')) then
            skipDirectives? steps true
              (c.skip (c.rest.takeWhile (· ≠ '\n')).length)
          else none
      | _ => some (any, c)

/-- The place where the document begins: after its mark, if there is one. -/
def afterDirectives? (c : Cursor) : Option Cursor := do
  let (any, c) ← skipDirectives? (c.rest.length + 1) false c
  if c.column = 0 && c.atMarker && c.rest.head? = some '-' then some (c.past 3)
  else if any then none
  else some c

/-- Whether nothing but marks for the end of the document stands from a place on. -/
def isFinished : Nat → Cursor → Bool
  | 0, _ => false
  | steps + 1, c =>
      match c.next? false with
      | none => false
      | some d =>
          if d.rest.isEmpty then true
          else if d.atMarker && d.rest.head? = some '.' then
            isFinished steps (d.skip 3)
          else false

/-- A text without the byte order mark at its front. -/
def skipMark : List Char → List Char
  | '\ufeff' :: rest => rest
  | s => s

/-- The value that a whole text spells. -/
def read? (s : List Char) : Option Doc := do
  let text := skipMark s
  if !(text.all isAllowed) then none
  else
    let c ← afterDirectives? { rest := unifyBreaks text }
    let (n, after) ← blockNode? (4 * text.length + 8) (-1) false { cursor := c }
    let after ← after.next? false
    if n.extent.isAllowed && after.cursor.atEnd && isFinished (text.length + 1) after.cursor then
      match n.doc, n.key with
      | .scalar .null, some [] => some (.table [])
      | d, _ => some d
    else none

/-- **No text spells a value that is nested deeper than is allowed**, however it repeats itself by
aliases. -/
theorem nested_of_read? {s : List Char} {d : Doc} (h : read? s = some d) :
    d.NestedAtMost maxDepth := by
  rw [read?] at h
  split at h
  · cases h
  · simp only [Option.bind_eq_bind, Option.bind_eq_some_iff] at h
    obtain ⟨c, -, ⟨n, place⟩, -, after, -, h⟩ := h
    split at h
    rotate_left
    · cases h
    rename_i hallowed
    simp only [Bool.and_eq_true] at hallowed
    split at h
    · cases h
      exact fun _ => nofun
    · cases h
      exact n.nested_of_isAllowed hallowed.1.1

/-- Brackets may be nested as deep as is allowed, and no deeper. -/
example : (read? (List.replicate 128 '[' ++ List.replicate 128 ']')).isSome = true
    ∧ (read? (List.replicate 129 '[' ++ List.replicate 129 ']')).isNone = true := by
  decide +kernel

end OrderedDispatch.Config.Yaml
