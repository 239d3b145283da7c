/-
**Permissive flags.**

A setting that is a flag may be written in several words, in any case and with blanks around it.

Main definitions:

* `Flag.trueWords`, `Flag.falseWords` — the words;
* `Flag.parse` — the flag that a text spells.

Main results:

* `Flag.parse_eq_some_iff` — a text spells a flag if, trimmed and in lower case, it is one of its
  words.
-/

import OrderedDispatch.Text.Blank

set_option relaxedAutoImplicit false
set_option autoImplicit false

namespace OrderedDispatch.Flag

/-- The words for a flag that is set. -/
def trueWords : List String := ["1", "true", "t", "yes", "y", "on"]

/-- The words for a flag that is not set. -/
def falseWords : List String := ["0", "false", "f", "no", "n", "off"]

/-- Whether a text is one of the words when its ASCII letters are in lower case. -/
def isOneOf (words : List String) (text : List Char) : Bool :=
  words.any fun w => text.map Char.toLower = w.toList

/-- The flag that a text spells. -/
def parse (text : List Char) : Option Bool :=
  if isOneOf trueWords (Text.trim text) then some true
  else if isOneOf falseWords (Text.trim text) then some false
  else none

/-- No text is a word of both kinds. -/
theorem not_both (text : List Char) :
    ¬(isOneOf trueWords text = true ∧ isOneOf falseWords text = true) := by
  simp only [isOneOf, trueWords, falseWords, List.any_cons, List.any_nil, Bool.or_false,
    Bool.or_eq_true, decide_eq_true_eq, not_and]
  intro h
  rcases h with h | h | h | h | h | h <;> rw [h] <;> decide

/-- A text spells a flag if, trimmed and in lower case, it is one of its words. -/
theorem parse_eq_some_iff {text : List Char} {b : Bool} :
    parse text = some b ↔ isOneOf (if b then trueWords else falseWords) (Text.trim text) := by
  have := not_both (Text.trim text)
  unfold parse
  cases b <;> split <;> simp_all

end OrderedDispatch.Flag
