/-
**Command templates.**

A template is a command line with two kinds of gaps: one for the item, whose spelling is a setting,
and one for the item's number.  Rendering fills the number in first and then the item, quoted for
the shell.  A template without any gap gets the item as a further argument.

Main definitions:

* `Command.Template`, `Command.Template.make` — a template, and the two reasons to refuse one;
* `Command.Template.render` — the command line of an item.

Main results:

* `Command.Template.make_ok_iff` — a template is accepted unless it has no words or its item gap is
  spelt by no character.
-/

import OrderedDispatch.Command.Quote
import OrderedDispatch.Text.Pattern

set_option relaxedAutoImplicit false
set_option autoImplicit false

namespace OrderedDispatch.Command

/-- The gap for the number of an item. -/
def indexGap : List Char := ['\x7b', '#', '\x7d']

/-- A command line with gaps. -/
structure Template where
  /-- the program that runs the command line -/
  shell : String
  /-- the gap for the item -/
  itemGap : List Char
  /-- the command line -/
  text : List Char
  deriving DecidableEq, Inhabited

/-- Why a template is refused: its command line has no word, or no character spells its item gap. -/
inductive TemplateError where
  | noCommand
  | emptyGap
  deriving DecidableEq, Inhabited

/-- The refusal in words. -/
def TemplateError.message : TemplateError → String
  | .noCommand => "No command given"
  | .emptyGap => "run.placeholder must not be empty"

namespace Template

/-- The words of a command line with a blank between each two. -/
def joinWords (words : List (List Char)) : List Char := [' '].intercalate words

@[simp] theorem joinWords_singleton (word : List Char) : joinWords [word] = word := by
  simp [joinWords]

/-- A blank follows each word but the last. -/
theorem joinWords_cons_cons (word next : List Char) (words : List (List Char)) :
    joinWords (word :: next :: words) = word ++ ' ' :: joinWords (next :: words) := by
  simp [joinWords, List.intercalate_cons_cons]

/-- The template of a command line given in words. -/
def make (words : List (List Char)) (shell : String) (itemGap : List Char) :
    Except TemplateError Template :=
  if words.isEmpty then .error .noCommand
  else if itemGap.isEmpty then .error .emptyGap
  else .ok { shell, itemGap, text := joinWords words }

/-- A number in decimal digits. -/
def decimal (n : Nat) : List Char := Nat.toDigits 10 n

/-- Whether the template has a gap for the item. -/
def hasItemGap (t : Template) : Bool := Text.occurs t.itemGap t.text

/-- Whether the template has a gap for the number. -/
def hasIndexGap (t : Template) : Bool := Text.occurs indexGap t.text

/-- The template with every gap filled, the number first. -/
def filled (t : Template) (item : List Char) (index : Nat) : List Char :=
  Text.replaceAll t.itemGap (shellQuote item) (Text.replaceAll indexGap (decimal index) t.text)

/-- The command line of an item. -/
def render (t : Template) (item : List Char) (index : Nat) : List Char :=
  if t.hasItemGap || t.hasIndexGap then t.filled item index
  else t.filled item index ++ ' ' :: shellQuote item

/-- A template is accepted unless it has no words or its item gap is spelt by no character. -/
theorem make_ok_iff {words : List (List Char)} {shell : String} {itemGap : List Char}
    {t : Template} :
    make words shell itemGap = .ok t ↔
      words ≠ [] ∧ itemGap ≠ [] ∧ t = { shell, itemGap, text := joinWords words } := by
  cases words with
  | nil => simp [make]
  | cons w ws =>
      cases itemGap with
      | nil => simp [make]
      | cons c cs =>
          have h : make (w :: ws) shell (c :: cs)
              = .ok { shell, itemGap := c :: cs, text := joinWords (w :: ws) } := rfl
          rw [h]
          exact ⟨fun e => ⟨List.cons_ne_nil _ _, List.cons_ne_nil _ _, (Except.ok.inj e).symm⟩,
            fun e => congrArg Except.ok e.2.2.symm⟩

end Template

end OrderedDispatch.Command
