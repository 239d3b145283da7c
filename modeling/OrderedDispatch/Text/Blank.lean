/-
**White space, as a property of characters.**

Items, settings and identifiers are all trimmed by one rule: a character is blank when Unicode
gives it the property `White_Space`.  Core's `Char.isWhitespace` knows ASCII only, so the property
is written out here.

Main definitions:

* `Text.isBlank` — the characters with the property `White_Space`;
* `Text.trimStart`, `Text.trimEnd`, `Text.trim` — a text without the blanks at its ends.

Main results:

* `Text.trimStart_eq_self`, `Text.trimStart_cons` — what trimming does at the first character.
-/

set_option relaxedAutoImplicit false
set_option autoImplicit false

namespace OrderedDispatch.Text

/-- The characters with the Unicode property `White_Space`. -/
def isBlank (c : Char) : Bool :=
  let n := c.toNat
  (9 ≤ n && n ≤ 13) || n == 0x20 || n == 0x85 || n == 0xA0 || n == 0x1680
    || (0x2000 ≤ n && n ≤ 0x200A) || n == 0x2028 || n == 0x2029 || n == 0x202F || n == 0x205F
    || n == 0x3000

/-- A text without its leading blanks. -/
def trimStart (s : List Char) : List Char := s.dropWhile isBlank

/-- A text without its trailing blanks. -/
def trimEnd (s : List Char) : List Char := (s.reverse.dropWhile isBlank).reverse

/-- A text without leading and trailing blanks. -/
def trim (s : List Char) : List Char := trimEnd (trimStart s)

/-- A text that starts with a visible character keeps its start. -/
theorem trimStart_eq_self {c : Char} {s : List Char} (h : isBlank c = false) :
    trimStart (c :: s) = c :: s := by
  simp [trimStart, h]

/-- A leading blank is dropped. -/
theorem trimStart_cons {c : Char} {s : List Char} (h : isBlank c = true) :
    trimStart (c :: s) = trimStart s := by
  simp [trimStart, h]

end OrderedDispatch.Text
