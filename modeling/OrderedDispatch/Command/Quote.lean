/-
**Quoting for a shell.**

An item becomes part of a command line, where blanks, quotes and operators have a meaning.  A text
of plain characters is written as it is; any other text, the empty one included, is put between
single quotes, inside of which only the closing quote has a meaning.  A quote in the text is written
by leaving the quoted span, escaping one quote, and entering a span again.

Main definitions:

* `Command.isPlain` — the characters that need no quoting;
* `Command.shellQuote` — a text as one word of a command line.

Main results:

* `Command.shellQuote_of_plain` — a plain text that is not empty is left alone.
-/

import OrderedDispatch.Text.Numeral

set_option relaxedAutoImplicit false
set_option autoImplicit false

namespace OrderedDispatch.Command

/-- The characters besides ASCII letters and digits that need no quoting. -/
def plainMarks : List Char := ['-', '_', '.', '/', ':', '=', '+', ',', '@', '%']

/-- A character that has no meaning of its own to a shell. -/
def isPlain (c : Char) : Bool := Text.isLetter c || Text.isDigit c || plainMarks.contains c

/-- A character inside single quotes: a quote leaves the span, escaped, and enters it again. -/
def quoteChar (c : Char) : List Char := if c = '\'' then ['\'', '\\', '\'', '\''] else [c]

/-- A text between single quotes. -/
def singleQuoted (s : List Char) : List Char := '\'' :: s.flatMap quoteChar ++ ['\'']

/-- A text as one word of a shell command line. -/
def shellQuote (s : List Char) : List Char :=
  if !s.isEmpty && s.all isPlain then s else singleQuoted s

/-- A plain text that is not empty is left alone. -/
theorem shellQuote_of_plain {s : List Char} (hne : s ≠ []) (h : ∀ c ∈ s, isPlain c = true) :
    shellQuote s = s := by
  have hall : s.all isPlain = true := List.all_eq_true.2 h
  simp [shellQuote, hall, hne]

@[simp] theorem shellQuote_nil : shellQuote [] = ['\'', '\''] := rfl

end OrderedDispatch.Command
