/-
**The words of a command line.**

A shell reads a command line from left to right and keeps track of the quoting.  A single quote
opens a span in which every character stands for itself, up to the next single quote; a backslash
outside of such a span does the same for one character.  The other characters outside of spans are
active: blanks among them separate words, and some others start expansions, patterns, comments and
operators.  A word is made up of everything between two separating blanks, whether quoted or not,
and it exists even if nothing but quotes spells it.

An item is put on a command line as a quoted text.  This module reads it as a shell does, and finds
that it is one word, that the word is the item, and that no character of it is active that could
mean anything to a shell.

Main definitions:

* `Command.Quoting`, `Command.Role` — where a reader stands, and what a character is to it;
* `Command.Quoting.roles` — every character of a text with its role;
* `Command.words?` — the words of a command line, unless it ends within a quotation;
* `Command.IsWord` — a text is one word, whose active characters have no meaning.

Main results:

* `Command.isWord_shellQuote` — **a quoted text is one word**, and the word is the text;
* `Command.IsWord.words?_append_blank` — the words before and after a blank are found independently;
* `Command.shellQuote_undone` — **reading undoes quoting**.
-/

import OrderedDispatch.Command.Template

set_option relaxedAutoImplicit false
set_option autoImplicit false

namespace OrderedDispatch.Command

/-! ### Reading with quotes -/

/-- Where the reader of a command line stands: outside of quotations, between single quotes or right
after a backslash. -/
inductive Quoting where
  | bare
  | quoted
  | escaped
  deriving DecidableEq, Inhabited

/-- What a character of a command line is to its reader: it has whatever meaning the shell gives to
it, it stands for itself, or it only says how to read others. -/
inductive Role where
  | active
  | literal
  | mark
  deriving DecidableEq, Inhabited

namespace Quoting

/-- Where the reader stands after a character. -/
def next : Quoting → Char → Quoting
  | bare, c => if c = '\'' then quoted else if c = '\\' then escaped else bare
  | quoted, c => if c = '\'' then bare else quoted
  | escaped, _ => bare

/-- What a character is to the reader. -/
def role : Quoting → Char → Role
  | bare, c => if c = '\'' ∨ c = '\\' then .mark else .active
  | quoted, c => if c = '\'' then .mark else .literal
  | escaped, _ => .literal

/-- Where the reader stands after a text. -/
def after (q : Quoting) (s : List Char) : Quoting := s.foldl next q

/-- Every character of a text with its role. -/
def roles : Quoting → List Char → List (Char × Role)
  | _, [] => []
  | q, c :: s => (c, q.role c) :: roles (q.next c) s

@[simp] theorem after_nil (q : Quoting) : q.after [] = q := rfl

@[simp] theorem after_cons (q : Quoting) (c : Char) (s : List Char) :
    q.after (c :: s) = (q.next c).after s := rfl

@[simp] theorem after_append (q : Quoting) (s t : List Char) :
    q.after (s ++ t) = (q.after s).after t := List.foldl_append

@[simp] theorem roles_nil (q : Quoting) : q.roles [] = [] := rfl

@[simp] theorem roles_cons (q : Quoting) (c : Char) (s : List Char) :
    q.roles (c :: s) = (c, q.role c) :: (q.next c).roles s := rfl

/-- A text is read on from where the text before it has left the reader. -/
@[simp] theorem roles_append (q : Quoting) (s t : List Char) :
    q.roles (s ++ t) = q.roles s ++ (q.after s).roles t := by
  induction s generalizing q with
  | nil => rfl
  | cons c s ih => simp [ih]

/-- No character is lost or added. -/
theorem length_roles (q : Quoting) (s : List Char) : (q.roles s).length = s.length := by
  induction s generalizing q with
  | nil => rfl
  | cons c s ih => simp [ih]

end Quoting

/-! ### Words -/

/-- Whether a character separates words. -/
def separates (x : Char × Role) : Bool := x.2 = .active && (x.1 = ' ' || x.1 = '\t')

/-- What is left of a text when the marks of the quoting are removed. -/
def unquoted (xs : List (Char × Role)) : List Char := (xs.filter (·.2 ≠ .mark)).map Prod.fst

@[simp] theorem unquoted_append (xs ys : List (Char × Role)) :
    unquoted (xs ++ ys) = unquoted xs ++ unquoted ys := by
  simp [unquoted]

/-- The words of a command line: what stands between separating blanks, without the marks of the
quoting.  A command line that ends within a quotation has none. -/
def words? (s : List Char) : Option (List (List Char)) :=
  if Quoting.bare.after s = .bare then
    some ((((Quoting.bare.roles s).splitOnP separates).filter (!·.isEmpty)).map unquoted)
  else none

/-- The text is one word, which stands for the value: it leaves no quotation open, and none of its
active characters needs quoting. -/
structure IsWord (text value : List Char) : Prop where
  closed : Quoting.bare.after text = .bare
  spelt : text ≠ []
  inert : ∀ c, (c, Role.active) ∈ Quoting.bare.roles text → isPlain c = true
  value : unquoted (Quoting.bare.roles text) = value

namespace IsWord

variable {text value rest : List Char}

/-- A word has no separating blanks. -/
theorem separates_eq_false (h : IsWord text value) :
    ∀ x ∈ Quoting.bare.roles text, separates x = false := by
  rintro ⟨c, role⟩ hx
  refine Bool.eq_false_iff.2 fun hsep => ?_
  simp only [separates, Bool.and_eq_true, Bool.or_eq_true, decide_eq_true_eq] at hsep
  obtain ⟨rfl, hblank⟩ := hsep
  have hplain := h.inert c hx
  rcases hblank with rfl | rfl <;> exact absurd hplain (by decide)

theorem roles_ne_nil (h : IsWord text value) : Quoting.bare.roles text ≠ [] := by
  rw [← List.length_pos_iff, Quoting.length_roles]
  exact List.length_pos_iff.2 h.spelt

/-- A word by itself. -/
theorem words?_eq (h : IsWord text value) : words? text = some [value] := by
  rw [words?, if_pos h.closed, List.splitOnP_eq_singleton h.separates_eq_false]
  simp [h.roles_ne_nil, h.value]

/-- A word, and the words after the blank that follows it. -/
theorem words?_append_blank (h : IsWord text value) (rest : List Char) :
    words? (text ++ ' ' :: rest) = (words? rest).map (value :: ·) := by
  have hafter : Quoting.bare.after (text ++ ' ' :: rest) = Quoting.bare.after rest := by
    rw [Quoting.after_append, h.closed]
    rfl
  have hroles : Quoting.bare.roles (text ++ ' ' :: rest)
      = Quoting.bare.roles text ++ (' ', Role.active) :: Quoting.bare.roles rest := by
    rw [Quoting.roles_append, h.closed]
    rfl
  rw [words?, words?, hafter, hroles,
    List.splitOnP_append_cons_of_forall_mem h.separates_eq_false _ rfl]
  split
  · simp [h.roles_ne_nil, h.value]
  · rfl

end IsWord

/-! ### Quoted texts -/

/-- A plain character means nothing to the reader. -/
theorem bare_of_isPlain {c : Char} (h : isPlain c = true) :
    Quoting.bare.next c = .bare ∧ Quoting.bare.role c = .active := by
  have hquote : c ≠ '\'' := by
    rintro rfl
    exact absurd h (by decide)
  have hbackslash : c ≠ '\\' := by
    rintro rfl
    exact absurd h (by decide)
  simp [Quoting.next, Quoting.role, hquote, hbackslash]

theorem roles_of_plain {s : List Char} (h : ∀ c ∈ s, isPlain c = true) :
    Quoting.bare.after s = .bare ∧ Quoting.bare.roles s = s.map (·, Role.active) := by
  induction s with
  | nil => exact ⟨rfl, rfl⟩
  | cons c s ih =>
      obtain ⟨hnext, hrole⟩ := bare_of_isPlain (h c (List.mem_cons_self ..))
      obtain ⟨hafter, hroles⟩ := ih fun d hd => h d (List.mem_cons_of_mem _ hd)
      simp [hnext, hrole, hafter, hroles]

/-- A plain text that is not empty is a word as it is. -/
theorem isWord_of_plain {s : List Char} (hne : s ≠ []) (h : ∀ c ∈ s, isPlain c = true) :
    IsWord s s := by
  obtain ⟨hafter, hroles⟩ := roles_of_plain h
  refine ⟨hafter, hne, fun c hc => ?_, ?_⟩
  · rw [hroles, List.mem_map] at hc
    obtain ⟨d, hd, heq⟩ := hc
    cases heq
    exact h _ hd
  · rw [hroles, unquoted, List.filter_map]
    simp [Function.comp_def]

/-- The text continues a quotation and stands for the value: it leaves the quotation open, and none
of its characters is active. -/
structure IsSpan (text value : List Char) : Prop where
  opened : Quoting.quoted.after text = .quoted
  inert : ∀ c, (c, Role.active) ∉ Quoting.quoted.roles text
  value : unquoted (Quoting.quoted.roles text) = value

namespace IsSpan

variable {text value text' value' : List Char}

theorem nil : IsSpan [] [] := ⟨rfl, nofun, rfl⟩

theorem append (h : IsSpan text value) (h' : IsSpan text' value') :
    IsSpan (text ++ text') (value ++ value') where
  opened := by rw [Quoting.after_append, h.opened, h'.opened]
  inert := by
    intro c hc
    rw [Quoting.roles_append, h.opened, List.mem_append] at hc
    exact hc.elim (h.inert c) (h'.inert c)
  value := by rw [Quoting.roles_append, h.opened, unquoted_append, h.value, h'.value]

/-- A quote leaves the quotation, escaped, and enters it again; any other character stays in it. -/
theorem of_quoteChar (c : Char) : IsSpan (quoteChar c) [c] := by
  by_cases hc : c = '\''
  · subst hc
    exact ⟨rfl, by simp [quoteChar, Quoting.next, Quoting.role], rfl⟩
  · have hquoted : quoteChar c = [c] := if_neg hc
    rw [hquoted]
    refine ⟨?_, ?_, ?_⟩ <;> simp [Quoting.next, Quoting.role, unquoted, hc]

theorem of_flatMap_quoteChar (s : List Char) : IsSpan (s.flatMap quoteChar) s := by
  induction s with
  | nil => exact nil
  | cons c s ih => exact (of_quoteChar c).append ih

/-- A span between single quotes is a word, also if the span is empty. -/
theorem isWord (h : IsSpan text value) : IsWord ('\'' :: text ++ ['\'']) value := by
  have hroles : Quoting.bare.roles ('\'' :: text ++ ['\''])
      = ('\'', Role.mark) :: (Quoting.quoted.roles text ++ [('\'', Role.mark)]) := by
    rw [List.cons_append, Quoting.roles_cons, show Quoting.bare.next '\'' = .quoted from rfl,
      Quoting.roles_append, h.opened]
    rfl
  refine ⟨?_, List.cons_ne_nil _ _, fun c hc => ?_, ?_⟩
  · have hopen : Quoting.bare.after ('\'' :: text) = .quoted := h.opened
    rw [Quoting.after_append, hopen]
    rfl
  · rw [hroles, List.mem_cons, List.mem_append, List.mem_singleton] at hc
    rcases hc with hc | hc | hc
    · cases hc
    · exact absurd hc (h.inert c)
    · cases hc
  · rw [hroles, ← List.singleton_append, unquoted_append, unquoted_append, h.value]
    exact List.append_nil _

end IsSpan

/-- **A quoted text is one word**, and the word is the text. -/
theorem isWord_shellQuote (s : List Char) : IsWord (shellQuote s) s := by
  rw [shellQuote]
  split
  · rename_i hplain
    simp only [Bool.and_eq_true, Bool.not_eq_true', List.isEmpty_eq_false_iff,
      List.all_eq_true] at hplain
    exact isWord_of_plain hplain.1 hplain.2
  · exact (IsSpan.of_flatMap_quoteChar s).isWord

/-! ### Quoted texts in a row -/

/-- The characters with which an expansion, a pattern, a comment, an operator or another kind of
quotation begins, and those besides the blank that separate words or commands. -/
def shellMarks : List Char :=
  ['$', '\x60', '~', '*', '?', '[', '#', '!', '|', '&', ';', '<', '>', '(', ')', '\x7b', '\x7d',
    '\x22', '\\', '\t', '\n', '\r']

/-- Plain characters are ASCII letters and digits and a few more. -/
theorem isPlain_iff (c : Char) :
    isPlain c = true ↔ c.isAlphanum = true ∨ c ∈ "-_./:=+,@%".toList := by
  have hletter : Text.isLetter c = c.isAlpha := by
    unfold Char.isAlpha Char.isUpper Char.isLower
    rw [Bool.or_comm]
    simp only [Text.isLetter, Char.le_def, ge_iff_le, Bool.decide_and]
  have hdigit : Text.isDigit c = c.isDigit := by
    simp only [Text.isDigit, Char.isDigit, Char.le_def, ge_iff_le]
  rw [isPlain, hletter, hdigit, Char.isAlphanum, Bool.or_eq_true]
  exact or_congr Iff.rfl (by simp [plainMarks])

/-- No plain character has a meaning of its own to a shell. -/
theorem not_isPlain_of_mem_shellMarks {c : Char} (h : c ∈ shellMarks) : isPlain c = false := by
  have hall : shellMarks.all (!isPlain ·) = true := by decide
  simpa using List.all_eq_true.1 hall c h

/-- Words with a blank between each two are read one by one. -/
theorem words?_joinWords_shellQuote (texts : List (List Char)) :
    words? (Template.joinWords (texts.map shellQuote)) = some texts := by
  induction texts with
  | nil => rfl
  | cons s rest ih =>
      cases rest with
      | nil =>
          rw [List.map_singleton, Template.joinWords_singleton]
          exact (isWord_shellQuote s).words?_eq
      | cons s' rest =>
          rw [List.map_cons, List.map_cons, Template.joinWords_cons_cons,
            (isWord_shellQuote s).words?_append_blank, ← List.map_cons, ih]
          rfl

/-- What is active in a row of words is plain, or the blank between two of them. -/
theorem isPlain_of_active {texts : List (List Char)} {c : Char}
    (h : (c, Role.active) ∈ Quoting.bare.roles (Template.joinWords (texts.map shellQuote))) :
    isPlain c = true ∨ c = ' ' := by
  induction texts with
  | nil => cases h
  | cons s rest ih =>
      have hword := isWord_shellQuote s
      cases rest with
      | nil =>
          rw [List.map_singleton, Template.joinWords_singleton] at h
          exact Or.inl (hword.inert c h)
      | cons s' rest =>
          rw [List.map_cons, List.map_cons, Template.joinWords_cons_cons, Quoting.roles_append,
            hword.closed, List.mem_append, Quoting.roles_cons, List.mem_cons] at h
          rcases h with h | h | h
          · exact Or.inl (hword.inert c h)
          · exact Or.inr (congrArg Prod.fst h)
          · exact ih h

/-- **Reading undoes quoting.**  Quoted texts with a blank between each two are read as just these
texts, empty ones included.  A character that is neither inside a quotation nor a mark of one is an
ASCII letter or digit, one of a few others, or the blank between two texts, so that none begins an
expansion, a pattern, a comment or an operator, and there is no newline. -/
theorem shellQuote_undone (texts : List (List Char)) :
    words? (Template.joinWords (texts.map shellQuote)) = some texts
      ∧ (∀ c, (c, Role.active) ∈ Quoting.bare.roles (Template.joinWords (texts.map shellQuote)) →
          c.isAlphanum = true ∨ c ∈ "-_./:=+,@%".toList ∨ c = ' ')
      ∧ ∀ c ∈ shellMarks,
          (c, Role.active) ∉ Quoting.bare.roles (Template.joinWords (texts.map shellQuote)) := by
  refine ⟨words?_joinWords_shellQuote texts, fun c hc => ?_, fun c hmark hc => ?_⟩
  · rw [← or_assoc, ← isPlain_iff]
    exact isPlain_of_active hc
  · rcases isPlain_of_active hc with hplain | rfl
    · rw [not_isPlain_of_mem_shellMarks hmark] at hplain
      cases hplain
    · exact absurd hmark (by decide)

example : words? "echo 'two words' it\\'s  ''".toList
    = some ["echo".toList, "two words".toList, "it's".toList, []] := by
  decide

end OrderedDispatch.Command
