/-
**Reading items.**

There is one item on each line of the input.  Carriage returns at the end of a line are not part of
its item, blank lines hold none, and a line that is not UTF-8 makes the whole input unreadable.

Main definitions:

* `Command.lines` — the bytes between newlines;
* `Command.itemOfLine` — the text of a line without its carriage returns;
* `Command.readItems` — the items of an input.

Main results:

* `Command.lines_append` — the lines on both sides of a newline are found independently.
-/

import OrderedDispatch.Fault
import OrderedDispatch.Text.Blank
import OrderedDispatch.Text.Utf8

set_option relaxedAutoImplicit false
set_option autoImplicit false

namespace OrderedDispatch.Command

/-- The byte that ends a line. -/
def newline : UInt8 := 10

/-- The bytes between newlines; there is one piece more than there are newlines. -/
def lines : List UInt8 → List (List UInt8)
  | [] => [[]]
  | b :: rest =>
      if b = newline then [] :: lines rest
      else
        match lines rest with
        | [] => [[b]]
        | line :: more => (b :: line) :: more

theorem lines_ne_nil (bytes : List UInt8) : lines bytes ≠ [] := by
  cases bytes with
  | nil => simp [lines]
  | cons b rest =>
      by_cases h : b = newline
      · simp [lines, h]
      · simp only [lines, h, if_false]
        split <;> simp

/-- The lines on both sides of a newline are found independently. -/
theorem lines_append (a b : List UInt8) : lines (a ++ newline :: b) = lines a ++ lines b := by
  induction a with
  | nil => simp [lines]
  | cons c a ih =>
      by_cases h : c = newline
      · simp [lines, h, ih]
      · simp only [List.cons_append, lines, h, if_false, ih]
        cases hl : lines a with
        | nil => exact absurd hl (lines_ne_nil a)
        | cons line more => simp

/-- A text without the carriage returns at its end. -/
def itemOfLine (line : List Char) : List Char :=
  (line.reverse.dropWhile (· = '\r')).reverse

/-- Whether a text holds anything but white space. -/
def isItem (text : List Char) : Bool := text.any fun c => !Text.isBlank c

/-- The items of an input, `none` if some line is not UTF-8. -/
def readItems (bytes : List UInt8) : Option (List (List Char)) :=
  ((lines bytes).mapM Text.decode).map fun texts => (texts.map itemOfLine).filter isItem

/-- The message about an input that cannot be read. -/
def readFailure (reason : String) : String := "Failed to read items: " ++ reason

/-- The reason given for an input that is not UTF-8. -/
def notUtf8 : String := "stream did not contain valid UTF-8"

end OrderedDispatch.Command
