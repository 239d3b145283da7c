/-
**The tokens of a command line.**

Before a shell takes a command line for anything, it cuts it into tokens.  Blanks and newlines
separate them, some characters start operators, which are as long as they can be, and everything
else makes up words, with three ways of quoting: single quotes, double quotes and the backslash.  An
unquoted token of digits alone right in front of `<` or `>` is no word, it is the number of the file
that a redirection is about.

A command line with gaps is read in the same way, a gap being one more sign that belongs to words.
Filling the gaps with a quoted item and then reading is the same as reading with the gaps and then
putting the item into the words, as long as no gap stands within a quotation or right behind `<<`,
which a dash makes a longer operator.  There is one thing that reading with the gaps cannot tell:
whether a token of gaps and digits in front of `<` or `>` is a word.  The item decides it, since a
text of digits is left without quotes.

Main definitions:

* `Command.Sign`, `Command.fillWith` — a command line with gaps, and a text in place of every gap;
* `Command.Token`, `Command.Token.kind` — tokens, and what is left of them without their texts;
* `Command.Lexer.step`, `Command.Lexer.run` — what reading one sign does, and a command line;
* `Command.tokens?` — the tokens of a command line, unless it ends within a quotation;
* `Command.Token.fill` — the token that an item makes out of one with gaps;
* `Command.Lexer.Free` — every gap stands where a quoted text goes into a word.

Main results:

* `Command.Lexer.run_append` — a text is read on from where the text before it has left the reader;
* `Command.Lexer.run_shellQuote` — **a quoted text goes into one word**;
* `Command.Lexer.run_fill`, `Command.tokens?_fill` — **filling commutes with reading**.
-/

import Mathlib.Tactic.SplitIfs
import OrderedDispatch.Proofs.Command.Words

set_option relaxedAutoImplicit false
set_option autoImplicit false

namespace OrderedDispatch.Command

/-! ### Command lines with gaps -/

/-- A sign of a command line with gaps. -/
inductive Sign where
  | char (c : Char)
  | gap
  deriving DecidableEq, Inhabited

/-- A command line without gaps. -/
def literal (s : List Char) : List Sign := s.map .char

/-- The text of a command line with a given text in place of every gap. -/
def fillWith (text : List Char) : List Sign → List Char
  | [] => []
  | .char c :: s => c :: fillWith text s
  | .gap :: s => text ++ fillWith text s

@[simp] theorem literal_nil : literal [] = [] := rfl

@[simp] theorem literal_cons (c : Char) (s : List Char) :
    literal (c :: s) = .char c :: literal s := rfl

@[simp] theorem literal_append (s t : List Char) : literal (s ++ t) = literal s ++ literal t :=
  List.map_append

@[simp] theorem fillWith_append (text : List Char) (s t : List Sign) :
    fillWith text (s ++ t) = fillWith text s ++ fillWith text t := by
  induction s with
  | nil => rfl
  | cons x s ih => cases x <;> simp [fillWith, ih]

@[simp] theorem fillWith_literal (text s : List Char) : fillWith text (literal s) = s := by
  induction s with
  | nil => rfl
  | cons c s ih => simp [fillWith, ih]

@[simp] theorem gap_notMem_literal (s : List Char) : .gap ∉ literal s := by
  simp [literal]

/-! ### Tokens -/

/-- A token of a command line: a word, by what it stands for without its quotes; the number of the
file that the redirection behind it is about; an operator; or the end of a line. -/
inductive Token where
  | word (value : List Sign)
  | number (digits : List Sign)
  | operator (text : List Char)
  | newline
  deriving DecidableEq, Inhabited

/-- A token without the text of a word or a number. -/
def Token.kind : Token → Token
  | word _ => word []
  | number _ => number []
  | operator text => operator text
  | newline => newline

/-- The operators. -/
def operators : List (List Char) := [
  ['&'], ['&', '&'], [';'], [';', ';'], ['|'], ['|', '|'], ['('], [')'],
  ['<'], ['<', '<'], ['<', '<', '-'], ['<', '&'], ['<', '>'],
  ['>'], ['>', '>'], ['>', '&'], ['>', '|']]

/-- A character with which an operator starts. -/
def isOperatorStart (c : Char) : Bool := operators.contains [c]

/-- A character that separates tokens within a line. -/
def isTokenBlank (c : Char) : Bool := c = ' ' || c = '\t'

/-- A character with which a redirection starts. -/
def isRedirection (c : Char) : Bool := c = '<' || c = '>'

/-- A text of digits alone. -/
def isNumeral (s : List Char) : Bool := !s.isEmpty && s.all Text.isDigit

namespace Lexer

/-- Where a reader stands among the quotations: outside of them, between single quotes, between
double quotes, or right after a backslash, outside of quotations or between double quotes. -/
inductive Mode where
  | bare
  | single
  | double
  | escaped
  | doubleEscaped
  deriving DecidableEq, Inhabited

/-- The token that is being read, if there is one; for a word also whether it is made of gaps and
unquoted digits alone so far. -/
inductive Partial where
  | none
  | word (value : List Sign) (digits : Bool)
  | operator (text : List Char)
  deriving DecidableEq, Inhabited

namespace Partial

/-- The operator that a character makes out of the one that is being read. -/
def extend? : Partial → Char → Option (List Char)
  | operator text, c => if operators.contains (text ++ [c]) then some (text ++ [c]) else Option.none
  | _, _ => Option.none

/-- The token that ends in front of a character or at the end of the command line. -/
def close (next : Option Char) : Partial → List Token
  | none => []
  | word value digits => [if digits && next.any isRedirection then .number value else .word value]
  | operator text => [.operator text]

/-- The token that ends when a word goes on or begins. -/
def left : Partial → List Token
  | operator text => [.operator text]
  | _ => []

/-- What the word is already that goes on or begins. -/
def value : Partial → List Sign
  | word value _ => value
  | _ => []

/-- Whether there is nothing but gaps and unquoted digits in the word that goes on or begins. -/
def digits : Partial → Bool
  | word _ digits => digits
  | _ => true

end Partial

end Lexer

/-- A reader of a command line. -/
structure Lexer where
  mode : Lexer.Mode
  current : Lexer.Partial
  deriving DecidableEq, Inhabited

namespace Lexer

/-- A reader between two tokens. -/
def idle : Lexer := ⟨.bare, .none⟩

/-- The word that is being read goes on, or one begins. -/
def Partial.push (p : Partial) (text : List Sign) (isDigits : Bool) (mode : Mode) :
    List Token × Lexer :=
  (p.left, ⟨mode, .word (p.value ++ text) (p.digits && isDigits)⟩)

/-- The characters that a backslash quotes between double quotes. -/
def isEscapable (c : Char) : Bool := c = '$' || c = '\x60' || c = '"' || c = '\\'

/-- Reading a character that quotes nothing. -/
def activeStep (p : Partial) (c : Char) : List Token × Lexer :=
  match p.extend? c with
  | some text => ([], ⟨.bare, .operator text⟩)
  | none =>
      if isTokenBlank c then (p.close (some c), idle)
      else if c = '\n' then (p.close (some c) ++ [.newline], idle)
      else if isOperatorStart c then (p.close (some c), ⟨.bare, .operator [c]⟩)
      else p.push [.char c] (Text.isDigit c) .bare

/-- Reading a character outside of quotations. -/
def bareStep (p : Partial) (c : Char) : List Token × Lexer :=
  if c = '\'' then p.push [] false .single
  else if c = '"' then p.push [] false .double
  else if c = '\\' then ([], ⟨.escaped, p⟩)
  else activeStep p c

/-- Reading one sign: the tokens that end with it, and where the reader stands after it. -/
def step : Lexer → Sign → List Token × Lexer
  | ⟨.bare, p⟩, .char c => bareStep p c
  | ⟨.single, p⟩, .char c => if c = '\'' then ([], ⟨.bare, p⟩) else p.push [.char c] false .single
  | ⟨.double, p⟩, .char c =>
      if c = '"' then ([], ⟨.bare, p⟩)
      else if c = '\\' then ([], ⟨.doubleEscaped, p⟩)
      else p.push [.char c] false .double
  -- a line that ends in a backslash goes on with the next one
  | ⟨.escaped, p⟩, .char c => if c = '\n' then ([], ⟨.bare, p⟩) else p.push [.char c] false .bare
  | ⟨.doubleEscaped, p⟩, .char c =>
      if c = '\n' then ([], ⟨.double, p⟩)
      else if isEscapable c then p.push [.char c] false .double
      else p.push [.char '\\', .char c] false .double
  | ⟨m, p⟩, .gap => p.push [.gap] true m

/-- Reading a command line: the tokens that end in it, and where the reader stands after it. -/
def run : Lexer → List Sign → List Token × Lexer
  | r, [] => ([], r)
  | r, x :: s => ((r.step x).1 ++ (run (r.step x).2 s).1, (run (r.step x).2 s).2)

/-- The token that ends with the command line, unless a quotation is open. -/
def finish? (r : Lexer) : Option (List Token) :=
  if r.mode = .bare then some (r.current.close none) else none

/-- The tokens of a text that is read to its end. -/
def readAll? (r : Lexer) (s : List Sign) : Option (List Token) :=
  (r.run s).2.finish?.map ((r.run s).1 ++ ·)

variable {r : Lexer} {p : Partial} {c : Char}

@[simp] theorem run_nil (r : Lexer) : r.run [] = ([], r) := rfl

theorem run_cons (r : Lexer) (x : Sign) (s : List Sign) :
    r.run (x :: s) = ((r.step x).1 ++ ((r.step x).2.run s).1, ((r.step x).2.run s).2) := rfl

/-- A text is read on from where the text before it has left the reader. -/
theorem run_append (r : Lexer) (s t : List Sign) :
    r.run (s ++ t) = ((r.run s).1 ++ ((r.run s).2.run t).1, ((r.run s).2.run t).2) := by
  induction s generalizing r with
  | nil => rfl
  | cons x s ih =>
      rw [List.cons_append, run_cons, run_cons, ih]
      simp only [List.append_assoc]

theorem readAll?_append (r : Lexer) (s t : List Sign) :
    r.readAll? (s ++ t) = ((r.run s).2.readAll? t).map ((r.run s).1 ++ ·) := by
  rw [readAll?, readAll?, run_append, Option.map_map]
  simp only [Function.comp_def, List.append_assoc]

/-! ### Quoted texts -/

/-- No plain character makes an operator longer, apart from the dash behind `<<`. -/
theorem extend?_of_isPlain (hc : isPlain c = true) (hp : p ≠ .operator ['<', '<']) :
    p.extend? c = none := by
  have hlast : ∀ text ∈ operators,
      text.getLast?.all (!isPlain ·) = true ∨ text.dropLast = ['<', '<'] := by decide
  cases p with
  | none => rfl
  | word => rfl
  | operator text =>
      refine if_neg fun hmem => ?_
      rcases hlast _ (List.contains_iff_mem.1 hmem) with hplain | hdash
      · rw [List.getLast?_concat, Option.all_some, hc] at hplain
        cases hplain
      · rw [List.dropLast_concat] at hdash
        exact hp (congrArg Partial.operator hdash)

/-- A plain character outside of quotations is part of a word. -/
theorem bareStep_of_isPlain (hc : isPlain c = true) (hp : p ≠ .operator ['<', '<']) :
    bareStep p c = p.push [.char c] (Text.isDigit c) .bare := by
  have hmark : ∀ d ∈ '\'' :: shellMarks, c ≠ d := by
    rintro d hd rfl
    rcases List.mem_cons.1 hd with rfl | hd
    · exact absurd hc (by decide)
    · rw [not_isPlain_of_mem_shellMarks hd] at hc
      cases hc
  have hblank : isTokenBlank c = false := by
    have hspace : c ≠ ' ' := by
      rintro rfl
      exact absurd hc (by decide)
    simp [isTokenBlank, hspace, hmark '\t' (by decide)]
  have hstart : isOperatorStart c = false := by
    refine Bool.eq_false_iff.2 fun h => ?_
    have hall : ∀ text ∈ operators, text.head?.all (· ∈ shellMarks) = true := by decide
    have hmem : c ∈ shellMarks := by simpa using hall _ (List.contains_iff_mem.1 h)
    exact hmark c (List.mem_cons_of_mem _ hmem) rfl
  simp [bareStep, activeStep, extend?_of_isPlain hc hp, hblank, hstart, hmark '\'' (by decide),
    hmark '"' (by decide), hmark '\\' (by decide), hmark '\n' (by decide)]

/-- Plain text makes a word longer. -/
theorem run_of_plain {s : List Char} (h : ∀ c ∈ s, isPlain c = true) (value : List Sign)
    (digits : Bool) :
    (⟨.bare, .word value digits⟩ : Lexer).run (literal s)
      = ([], ⟨.bare, .word (value ++ literal s) (digits && s.all Text.isDigit)⟩) := by
  induction s generalizing value digits with
  | nil => simp
  | cons c s ih =>
      rw [List.forall_mem_cons] at h
      have hstep : step ⟨.bare, .word value digits⟩ (.char c)
          = ([], ⟨.bare, .word (value ++ [.char c]) (digits && Text.isDigit c)⟩) :=
        bareStep_of_isPlain h.1 (by simp)
      rw [literal_cons, run_cons, hstep, ih h.2]
      simp [Bool.and_assoc]

/-- What stands between the quotes of a quoted text makes a word longer. -/
theorem run_quoteChars (s : List Char) (value : List Sign) :
    (⟨.single, .word value false⟩ : Lexer).run (literal (s.flatMap quoteChar))
      = ([], ⟨.single, .word (value ++ literal s) false⟩) := by
  induction s generalizing value with
  | nil => simp
  | cons c s ih =>
      have hchar : (⟨.single, .word value false⟩ : Lexer).run (literal (quoteChar c))
          = ([], ⟨.single, .word (value ++ [.char c]) false⟩) := by
        by_cases hc : c = '\''
        · subst hc
          simp [quoteChar, run_cons, step, bareStep, Partial.push, Partial.left, Partial.value,
            Partial.digits]
        · simp [quoteChar, hc, run_cons, step, Partial.push, Partial.left, Partial.value,
            Partial.digits]
      rw [List.flatMap_cons, literal_append, run_append, hchar, ih]
      simp

/-- **A quoted text goes into one word**, which begins with it or goes on. -/
theorem run_shellQuote (hp : p ≠ .operator ['<', '<']) (item : List Char) :
    (⟨.bare, p⟩ : Lexer).run (literal (shellQuote item))
      = p.push (literal item) (isNumeral item) .bare := by
  rw [shellQuote]
  split
  · rename_i hplain
    rw [Bool.and_eq_true, List.all_eq_true] at hplain
    obtain ⟨hne, hplain⟩ := hplain
    cases item with
    | nil => cases hne
    | cons c s =>
        rw [List.forall_mem_cons] at hplain
        have hstep : step ⟨.bare, p⟩ (.char c) = p.push [.char c] (Text.isDigit c) .bare :=
          bareStep_of_isPlain hplain.1 hp
        rw [literal_cons, run_cons, hstep, Partial.push, run_of_plain hplain.2]
        simp [Partial.push, isNumeral, Bool.and_assoc]
  · rename_i hplain
    have hopen : step ⟨.bare, p⟩ (.char '\'') = p.push [] false .single := rfl
    have hnumeral : isNumeral item = false := by
      refine Bool.eq_false_iff.2 fun hdigits => hplain ?_
      rw [isNumeral, Bool.and_eq_true, List.all_eq_true] at hdigits
      rw [Bool.and_eq_true, List.all_eq_true]
      exact ⟨hdigits.1, fun c hc => by simp [isPlain, hdigits.2 c hc]⟩
    rw [singleQuoted, List.cons_append, literal_cons, run_cons, hopen, Partial.push,
      Bool.and_false, List.append_nil, literal_append, run_append, run_quoteChars]
    simp [run_cons, step, Partial.push, hnumeral]

end Lexer

/-! ### Filling the gaps -/

/-- What an item makes out of a text with gaps, once it has been read. -/
def valueWith (item : List Char) (value : List Sign) : List Sign := literal (fillWith item value)

@[simp] theorem valueWith_append (item : List Char) (s t : List Sign) :
    valueWith item (s ++ t) = valueWith item s ++ valueWith item t := by
  simp [valueWith]

@[simp] theorem valueWith_literal (item s : List Char) :
    valueWith item (literal s) = literal s := by
  simp [valueWith]

@[simp] theorem valueWith_gap (item : List Char) : valueWith item [.gap] = literal item := by
  simp [valueWith, fillWith]

/-- Whether an item makes nothing but digits out of gaps and digits. -/
def staysDigits (item : List Char) (value : List Sign) : Bool :=
  !value.contains .gap || isNumeral item

/-- The token that an item makes out of one with gaps.  Whether gaps and digits in front of a
redirection are a number is up to the item. -/
def Token.fill (item : List Char) : Token → Token
  | word value => word (valueWith item value)
  | number digits =>
      if staysDigits item digits then number (valueWith item digits)
      else word (valueWith item digits)
  | operator text => operator text
  | newline => newline

namespace Lexer

/-- The token being read, with the item in its gaps. -/
def Partial.fill (item : List Char) : Partial → Partial
  | none => none
  | word value digits => word (valueWith item value) (digits && staysDigits item value)
  | operator text => operator text

/-- The reader who has found the item where another has found gaps. -/
def fill (item : List Char) (r : Lexer) : Lexer := ⟨r.mode, r.current.fill item⟩

/-- What has been read with gaps, with the item in them. -/
def fillBoth (item : List Char) (x : List Token × Lexer) : List Token × Lexer :=
  (x.1.map (Token.fill item), x.2.fill item)

variable {r : Lexer} {item : List Char}

theorem fill_close (p : Partial) (next : Option Char) :
    (p.fill item).close next = (p.close next).map (Token.fill item) := by
  cases p with
  | none => rfl
  | operator => rfl
  | word value digits =>
      cases digits <;> cases hnext : next.any isRedirection <;>
        cases hstays : staysDigits item value <;>
        simp [Partial.fill, Partial.close, Token.fill, hnext, hstays]

theorem fill_extend? (p : Partial) (c : Char) : (p.fill item).extend? c = p.extend? c := by
  cases p <;> rfl

/-- A text without gaps is pushed after filling as before. -/
theorem fill_push (p : Partial) (text : List Char) (isDigits : Bool) (m : Mode) :
    (p.fill item).push (literal text) isDigits m
      = fillBoth item (p.push (literal text) isDigits m) := by
  cases p <;>
    simp [Partial.push, Partial.fill, Partial.left, Partial.value, Partial.digits, fillBoth, fill,
      Token.fill, staysDigits, Bool.and_assoc, Bool.and_comm]

/-- Where a gap has been pushed, the item is pushed as it is. -/
theorem fill_push_gap (p : Partial) (m : Mode) :
    (p.fill item).push (literal item) (isNumeral item) m = fillBoth item (p.push [.gap] true m) := by
  have hdigits (value : List Sign) :
      (staysDigits item value && isNumeral item) = staysDigits item (value ++ [.gap]) := by
    cases hnumeral : isNumeral item <;> simp [staysDigits, hnumeral]
  cases p with
  | word value digits =>
      simp [Partial.push, Partial.fill, Partial.left, Partial.value, Partial.digits, fillBoth, fill,
        Bool.and_assoc, hdigits]
  | _ =>
      simp [Partial.push, Partial.fill, Partial.left, Partial.value, Partial.digits, fillBoth, fill,
        Token.fill, staysDigits]

theorem fill_activeStep (p : Partial) (c : Char) :
    activeStep (p.fill item) c = fillBoth item (activeStep p c) := by
  rw [activeStep, activeStep, fill_extend?, fill_close]
  cases p.extend? c with
  | some text => rfl
  | none =>
      simp only
      split_ifs
      · rfl
      · simp [fillBoth, fill, Partial.fill, Token.fill, idle]
      · rfl
      · exact fill_push p [c] (Text.isDigit c) .bare

theorem fill_bareStep (p : Partial) (c : Char) :
    bareStep (p.fill item) c = fillBoth item (bareStep p c) := by
  rw [bareStep, bareStep]
  split_ifs
  · exact fill_push p [] false .single
  · exact fill_push p [] false .double
  · rfl
  · exact fill_activeStep p c

/-- A character is read after filling as before. -/
theorem fill_step (r : Lexer) (c : Char) :
    (r.fill item).step (.char c) = fillBoth item (r.step (.char c)) := by
  obtain ⟨m, p⟩ := r
  cases m with
  | bare => exact fill_bareStep p c
  | single =>
      simp only [fill, step]
      split_ifs
      · rfl
      · exact fill_push p [c] false .single
  | double =>
      simp only [fill, step]
      split_ifs
      · rfl
      · rfl
      · exact fill_push p [c] false .double
  | escaped =>
      simp only [fill, step]
      split_ifs
      · rfl
      · exact fill_push p [c] false .bare
  | doubleEscaped =>
      simp only [fill, step]
      split_ifs
      · rfl
      · exact fill_push p [c] false .double
      · exact fill_push p ['\\', c] false .double

/-- Every gap stands outside of quotations and not right behind `<<`. -/
def Free : Lexer → List Sign → Prop
  | _, [] => True
  | r, x :: s =>
      (x = .gap → r.mode = .bare ∧ r.current ≠ .operator ['<', '<']) ∧ Free (r.step x).2 s

instance decidableFree : ∀ (r : Lexer) (s : List Sign), Decidable (Free r s)
  | _, [] => .isTrue trivial
  | r, x :: s =>
      have := decidableFree (r.step x).2 s
      inferInstanceAs (Decidable (_ ∧ Free (r.step x).2 s))

/-- **Filling commutes with reading.** -/
theorem run_fill {s : List Sign} (h : Free r s) (item : List Char) :
    (r.fill item).run (literal (fillWith (shellQuote item) s)) = fillBoth item (r.run s) := by
  induction s generalizing r with
  | nil => rfl
  | cons x s ih =>
      obtain ⟨hgap, hrest⟩ := h
      have hx : (r.fill item).run (literal (fillWith (shellQuote item) [x]))
          = fillBoth item (r.step x) := by
        cases x with
        | char c =>
            rw [fillWith, fillWith, literal_cons, literal_nil, run_cons, fill_step]
            simp
        | gap =>
            obtain ⟨m, p⟩ := r
            obtain ⟨rfl, hp⟩ := hgap rfl
            have hfill : p.fill item ≠ .operator ['<', '<'] := by
              cases p with
              | none => exact hp
              | operator => exact hp
              | word => simp [Partial.fill]
            rw [fillWith, fillWith, List.append_nil]
            exact (run_shellQuote hfill item).trans (fill_push_gap p .bare)
      rw [← List.singleton_append, fillWith_append, literal_append, run_append, hx, run_append]
      simp [fillBoth, ih hrest, run_cons]

theorem fill_finish? (r : Lexer) :
    (r.fill item).finish? = r.finish?.map (List.map (Token.fill item)) := by
  simp only [finish?, fill, fill_close]
  split <;> rfl

theorem readAll?_fill {s : List Sign} (h : Free r s) (item : List Char) :
    (r.fill item).readAll? (literal (fillWith (shellQuote item) s))
      = (r.readAll? s).map (List.map (Token.fill item)) := by
  rw [readAll?, readAll?, run_fill h, fillBoth, fill_finish?, Option.map_map, Option.map_map]
  simp only [Function.comp_def, List.map_append]

end Lexer

/-- The tokens of a command line, unless it ends within a quotation. -/
def tokens? (s : List Sign) : Option (List Token) := Lexer.idle.readAll? s

/-- **The tokens of a filled command line** are those of the command line with gaps, filled. -/
theorem tokens?_fill {s : List Sign} (h : Lexer.idle.Free s) (item : List Char) :
    tokens? (literal (fillWith (shellQuote item) s))
      = (tokens? s).map (List.map (Token.fill item)) :=
  Lexer.readAll?_fill h item

end OrderedDispatch.Command
