/-
**Items among the tokens of a command line.**

A template may put the gap for the item anywhere, and the item may be any text.  Where the gap
begins a token, and a blank, an operator or the end of the command line follows it, one would expect
the item to be a word of its own, and all other tokens to be of the same kinds whatever it is.

This is so except for one thing.  Digits are plain, and so an item of digits is left without
quotes; if `<` or `>` follows immediately then it is no word but the number of the file to be
redirected.  The template `sort {}>out` sorts the file `a` into `out`, but for the item `2` it sorts
the standard input and sends the complaints there.

Main definitions:

* `Command.gapped` — a template with its numbers filled in and its gaps for the item left open;
* `Command.Begins`, `Command.endsToken` — where a token begins, and what ends it;
* `Command.kinds?` — the kinds of the tokens of a command line.

Main results:

* `Command.render_eq_fillWith` — a command line is the template with the quoted item in its gaps;
* `Command.item_token` — **which token an item is**, and for which templates the kinds of the tokens
  do not depend on it;
* `Command.item_read_as_number` — a template in which they do.
-/

import OrderedDispatch.Proofs.Command.Rendering
import OrderedDispatch.Proofs.Command.Tokens

set_option relaxedAutoImplicit false
set_option autoImplicit false

namespace OrderedDispatch.Command

/-! ### Templates with open gaps -/

/-- The usual gap for the item. -/
def usualGap : List Char := ['\x7b', '\x7d']

/-- A text with digits in its gaps for the number, and its usual gaps for the item left open. -/
def gapped (digits : List Char) : List Char → List Sign
  | '\x7b' :: '#' :: '\x7d' :: s => literal digits ++ gapped digits s
  | '\x7b' :: '\x7d' :: s => .gap :: gapped digits s
  | c :: s => .char c :: gapped digits s
  | [] => []

variable {digits before after : List Char}

theorem gapped_append_gap (digits before after : List Char) :
    gapped digits (before ++ usualGap ++ after)
      = gapped digits before ++ .gap :: gapped digits after := by
  rw [List.append_assoc]
  fun_induction gapped digits before with
  | case1 s ih => simp [gapped, ih]
  | case2 s ih => simp [gapped, ih]
  | case3 c s hnumber hitem ih =>
      -- no gap begins before the occurrence and ends in it
      have hcopied : gapped digits (c :: (s ++ (usualGap ++ after)))
          = .char c :: gapped digits (s ++ (usualGap ++ after)) := by
        refine gapped.eq_3 digits c _ (fun rest hc hrest => ?_) fun rest hc hrest => ?_
        · rcases s with - | ⟨d, - | ⟨e, s⟩⟩
          · simp [usualGap] at hrest
          · simp [usualGap] at hrest
          · simp only [List.cons_append, List.cons.injEq] at hrest
            exact hnumber s hc (by rw [hrest.1, hrest.2.1])
        · rcases s with - | ⟨d, s⟩
          · simp [usualGap] at hrest
          · simp only [List.cons_append, List.cons.injEq] at hrest
            exact hitem s hc (by rw [hrest.1])
      rw [List.cons_append, hcopied, ih, List.cons_append]
  | case4 => rfl

theorem scan_eq_fillWith (quoted digits s : List Char) :
    scan usualGap quoted digits s = fillWith quoted (gapped digits s) := by
  fun_induction gapped digits s with
  | case1 s ih =>
      rw [scan, if_pos ⟨s, rfl⟩]
      simp [indexGap, ih]
  | case2 s ih =>
      rw [scan, if_neg (by simp [indexGap]), if_pos ⟨s, rfl⟩]
      exact congrArg (quoted ++ ·) ih
  | case3 c s hnumber hitem ih =>
      have hnumber' : ¬ indexGap <+: c :: s := by
        rintro ⟨rest, hrest⟩
        simp only [indexGap, List.cons_append, List.cons.injEq, List.nil_append] at hrest
        exact hnumber rest hrest.1.symm hrest.2.symm
      have hitem' : ¬ usualGap <+: c :: s := by
        rintro ⟨rest, hrest⟩
        simp only [usualGap, List.cons_append, List.cons.injEq, List.nil_append] at hrest
        exact hitem rest hrest.1.symm hrest.2.symm
      rw [scan, if_neg hnumber', if_neg hitem', ih, fillWith]
  | case4 => simp [scan, fillWith]

/-- A command line is the template with the quoted item in its gaps. -/
theorem render_eq_fillWith {words : List (List Char)} {shell : String} {t : Template}
    (ht : Template.make words shell usualGap = .ok t) (hgap : usualGap <:+: t.text)
    (item : List Char) (index : Nat) :
    t.render item index
      = fillWith (shellQuote item) (gapped (Template.decimal index) t.text) := by
  have hgapOf : t.itemGap = usualGap := by
    rw [(Template.make_ok_iff.1 ht).2.2]
  have hsome : t.hasItemGap = true := by
    rw [Template.hasItemGap, hgapOf]
    exact Text.occurs_iff.2 hgap
  have htame : Tame usualGap := Or.inl rfl
  rw [Template.render, hsome, Bool.true_or, if_pos rfl, Template.filled, hgapOf,
    filled_eq_scan htame, scan_eq_fillWith]

/-! ### Where tokens begin and end -/

/-- A token begins behind the text: it is empty or ends in a blank outside of quotations. -/
def Begins (s : List Sign) : Prop :=
  s = [] ∨ ∃ t c, s = t ++ [.char c] ∧ isTokenBlank c = true ∧ (Lexer.idle.run t).2.mode = .bare

/-- A character that ends the token in front of it, unless that is an operator. -/
def endsToken (c : Char) : Bool := isTokenBlank c || c = '\n' || isOperatorStart c

namespace Lexer

variable {r : Lexer} {p : Partial} {c : Char}

theorem extend?_of_isTokenBlank (h : isTokenBlank c = true) : p.extend? c = none := by
  have hnone : ∀ text ∈ operators, text.all (!isTokenBlank ·) = true := by decide
  cases p with
  | operator text =>
      refine if_neg fun hmem => ?_
      have hc := List.all_eq_true.1 (hnone _ (List.contains_iff_mem.1 hmem)) c (by simp)
      rw [h] at hc
      cases hc
  | _ => rfl

theorem ne_of_isTokenBlank (h : isTokenBlank c = true) :
    c ≠ '\'' ∧ c ≠ '"' ∧ c ≠ '\\' ∧ c ≠ '\n' := by
  simp only [isTokenBlank, Bool.or_eq_true, decide_eq_true_eq] at h
  rcases h with rfl | rfl <;> decide

/-- Where a token begins, none is being read. -/
theorem run_of_begins {s : List Sign} (h : Begins s) : (idle.run s).2 = idle := by
  rcases h with rfl | ⟨t, c, rfl, hblank, hbare⟩
  · rfl
  · obtain ⟨hsingle, hdouble, hbackslash, -⟩ := ne_of_isTokenBlank hblank
    rcases hr : (idle.run t).2 with ⟨m, p⟩
    obtain rfl : m = .bare := by rw [← hbare, hr]
    have hstep : step ⟨.bare, p⟩ (.char c) = (p.close (some c), idle) := by
      simp [step, bareStep, activeStep, hsingle, hdouble, hbackslash, hblank,
        extend?_of_isTokenBlank hblank]
    rw [run_append, hr, run_cons, hstep]
    rfl

/-- A word ends at the end of the command line, and in front of a character that ends tokens. -/
theorem readAll?_of_endsToken {s : List Char} (h : s.head?.all endsToken = true)
    (value : List Sign) (digits : Bool) :
    (⟨.bare, .word value digits⟩ : Lexer).readAll? (literal s)
      = (idle.readAll? (literal s)).map ((Partial.word value digits).close s.head? ++ ·) := by
  cases s with
  | nil => rfl
  | cons c s =>
      rw [List.head?_cons, Option.all_some] at h
      have hquote : c ≠ '\'' ∧ c ≠ '"' ∧ c ≠ '\\' := by
        refine ⟨?_, ?_, ?_⟩ <;> rintro rfl <;> exact absurd h (by decide)
      have hstep : step ⟨.bare, .word value digits⟩ (.char c)
          = ((Partial.word value digits).close (some c) ++ (idle.step (.char c)).1,
              (idle.step (.char c)).2) := by
        simp only [endsToken, Bool.or_eq_true, decide_eq_true_eq] at h
        simp only [step, idle, bareStep, activeStep, Partial.extend?, hquote.1, hquote.2.1,
          hquote.2.2, if_false]
        split_ifs with hblank hnewline hstart
        · simp [Partial.close]
        · simp [Partial.close]
        · simp [Partial.close]
        · tauto
      rw [readAll?, readAll?, literal_cons, run_cons, run_cons, hstep, Option.map_map]
      simp [Function.comp_def]

end Lexer

/-! ### The token of an item -/

/-- The kinds of the tokens of a command line. -/
def kinds? (s : List Char) : Option (List Token) :=
  (tokens? (literal s)).map (List.map Token.kind)

/-- The token of an item in front of what follows it. -/
def itemToken (item : List Char) (next : Option Char) : Token :=
  if isNumeral item && next.any isRedirection then .number (literal item) else .word (literal item)

/-- A character that ends tokens stays what it is when gaps are filled. -/
theorem head?_fillWith_gapped (h : after.head?.all endsToken = true) (text digits : List Char) :
    (fillWith text (gapped digits after)).head? = after.head? := by
  cases after with
  | nil => rfl
  | cons c s =>
      rw [List.head?_cons, Option.all_some] at h
      have hbrace : c ≠ '\x7b' := by
        rintro rfl
        exact absurd h (by decide)
      rw [gapped.eq_3 digits c s (fun _ hc _ => hbrace hc) fun _ hc _ => hbrace hc]
      rfl

/-- Where a token begins, the tokens before it are complete. -/
theorem tokens?_of_begins {s : List Sign} (h : Begins s) :
    tokens? s = some (Lexer.idle.run s).1 := by
  rw [tokens?, Lexer.readAll?, Lexer.run_of_begins h]
  simp [Lexer.finish?, Lexer.idle, Lexer.Partial.close]

/-- The item is a token of its own between those before its gap and those behind it. -/
theorem tokens?_of_gap {s : List Sign} (hfree : Lexer.idle.Free s) (hbegins : Begins s)
    (hends : after.head?.all endsToken = true) (item : List Char) :
    tokens? (literal (fillWith (shellQuote item) s ++ (shellQuote item ++ after)))
      = (tokens? (literal after)).map fun us =>
          (Lexer.idle.run s).1.map (Token.fill item) ++ itemToken item after.head? :: us := by
  have hbefore : Lexer.idle.run (literal (fillWith (shellQuote item) s))
      = ((Lexer.idle.run s).1.map (Token.fill item), Lexer.idle) := by
    have hfill := Lexer.run_fill hfree item
    rwa [Lexer.fillBoth, Lexer.run_of_begins hbegins] at hfill
  have hitem : Lexer.idle.run (literal (shellQuote item))
      = ([], ⟨.bare, .word (literal item) (isNumeral item)⟩) :=
    Lexer.run_shellQuote (by simp) item
  rw [tokens?, literal_append, Lexer.readAll?_append, hbefore, literal_append,
    Lexer.readAll?_append, hitem, Lexer.readAll?_of_endsToken hends, Option.map_map,
    Option.map_map]
  rfl

/-- No item changes the kind of a token but of a number with a gap. -/
theorem kind_fill_eq_iff (token : Token) :
    (∀ item item', (token.fill item).kind = (token.fill item').kind)
      ↔ ∀ digits, token = .number digits → .gap ∉ digits := by
  cases token with
  | number digits =>
      have hkind (item : List Char) : ((Token.number digits).fill item).kind
          = if .gap ∉ digits ∨ isNumeral item = true then .number [] else .word [] := by
        rw [Token.fill, apply_ite Token.kind]
        simp [staysDigits, Token.kind]
      constructor
      · rintro h _ ⟨⟩ hgap
        -- a letter is no digit
        have hletter : isNumeral ['a'] = false := by decide
        have hdiffer := h ['0'] ['a']
        rw [hkind, hkind, if_pos (Or.inr (by decide)), hletter, if_neg (by simpa using hgap)]
          at hdiffer
        cases hdiffer
      · intro h item item'
        have hgap := h digits rfl
        rw [hkind, hkind, if_pos (Or.inl hgap), if_pos (Or.inl hgap)]
  | _ => simp [Token.fill, Token.kind]

/-- The item changes no kinds of tokens if and only if there is no number with a gap. -/
theorem kinds?_forall_iff {s : List Sign} (hfree : Lexer.idle.Free s) :
    (∀ item item', kinds? (fillWith (shellQuote item) s) = kinds? (fillWith (shellQuote item') s))
      ↔ ∀ ts, tokens? s = some ts → ∀ digits, .number digits ∈ ts → .gap ∉ digits := by
  simp only [kinds?, tokens?_fill hfree, Option.map_map]
  cases tokens? s with
  | none => simp
  | some ts =>
      simp only [Option.map_some, Function.comp_apply, List.map_map, Option.some.injEq,
        forall_eq', List.map_inj_left]
      constructor
      · intro h digits hmem
        refine (kind_fill_eq_iff _).1 (fun item item' => h item item' _ hmem) digits rfl
      · intro h item item' token hmem
        refine (kind_fill_eq_iff token).2 (fun digits hdigits => ?_) item item'
        exact h digits (hdigits ▸ hmem)

/-- **Which token an item is.**  In a command line from a template with the usual gap, whose gap
begins a token and is followed by a blank, an operator, a newline or the end, the item is a token of
its own, between the tokens of what is before and of what is after it: a word that stands for the
item, unless the item is of digits alone and `<` or `>` follows immediately, when it is a number.
If every gap stands outside of quotations and not right behind `<<`, the kinds of all tokens are the
same for all items if and only if no token of gaps and digits has `<` or `>` immediately behind
it. -/
theorem item_token {words : List (List Char)} {shell : String} {t : Template}
    (ht : Template.make words shell usualGap = .ok t) (htext : t.text = before ++ usualGap ++ after)
    (index : Nat) (hfree : Lexer.idle.Free (gapped (Template.decimal index) before))
    (hbegins : Begins (gapped (Template.decimal index) before))
    (hends : after.head?.all endsToken = true) :
    (∃ ts, tokens? (gapped (Template.decimal index) before) = some ts ∧ ∀ item,
      tokens? (literal (t.render item index))
        = (tokens? (literal (fillWith (shellQuote item) (gapped (Template.decimal index) after)))).map
            fun us => ts.map (Token.fill item) ++ itemToken item after.head? :: us)
    ∧ (Lexer.idle.Free (gapped (Template.decimal index) t.text) →
        ((∀ item item', kinds? (t.render item index) = kinds? (t.render item' index))
          ↔ ∀ ts, tokens? (gapped (Template.decimal index) t.text) = some ts →
              ∀ digits, .number digits ∈ ts → .gap ∉ digits)) := by
  have hgap : usualGap <:+: t.text := htext ▸ ⟨before, after, rfl⟩
  have hrender := render_eq_fillWith ht hgap
  refine ⟨⟨_, tokens?_of_begins hbegins, fun item => ?_⟩, fun hfreeAll => ?_⟩
  · rw [hrender, htext, gapped_append_gap, fillWith_append, fillWith,
      ← head?_fillWith_gapped hends (shellQuote item) (Template.decimal index)]
    refine tokens?_of_gap hfree hbegins ?_ item
    rwa [head?_fillWith_gapped hends]
  · simp only [hrender]
    exact kinds?_forall_iff hfreeAll

/-- An item between two blanks, whatever it is. -/
theorem item_token_sample : ∃ t, Template.make ["cat".toList, usualGap, "2>&1".toList] "sh" usualGap
      = .ok t
    ∧ ∀ item, kinds? (t.render item 7) = kinds? (t.render "a b".toList 7)
      ∧ tokens? (literal (t.render item 7))
        = some [.word (literal "cat".toList), .word (literal item), .number (literal ['2']),
            .operator ['>', '&'], .word (literal ['1'])] := by
  have ht : Template.make ["cat".toList, usualGap, "2>&1".toList] "sh" usualGap
      = .ok ⟨"sh", usualGap, "cat \x7b\x7d 2>&1".toList⟩ := by decide
  have htext : "cat \x7b\x7d 2>&1".toList = "cat ".toList ++ usualGap ++ " 2>&1".toList := by decide
  obtain ⟨⟨ts, hts, hitem⟩, hkinds⟩ := item_token ht htext 7 (by decide)
    (Or.inr ⟨literal "cat".toList, ' ', by decide⟩) (by decide)
  obtain rfl : [.word (literal "cat".toList)] = ts := by
    have hbefore : tokens? (gapped (Template.decimal 7) "cat ".toList)
        = some [.word (literal "cat".toList)] := by decide
    exact Option.some.inj (hbefore.symm.trans hts)
  refine ⟨_, ht, fun item => ⟨?_, ?_⟩⟩
  · refine (hkinds (by decide)).2 (fun us hus digits hmem => ?_) item _
    have htokens : tokens? (gapped (Template.decimal 7) "cat \x7b\x7d 2>&1".toList)
        = some [.word (literal "cat".toList), .word [.gap], .number (literal ['2']),
            .operator ['>', '&'], .word (literal ['1'])] := by decide
    obtain rfl := Option.some.inj (htokens.symm.trans hus)
    obtain rfl : digits = literal ['2'] := by simpa using hmem
    exact gap_notMem_literal _
  · have hafter : gapped (Template.decimal 7) " 2>&1".toList = literal " 2>&1".toList := by decide
    have hrest : tokens? (literal " 2>&1".toList) = some [.number (literal ['2']),
        .operator ['>', '&'], .word (literal ['1'])] := by decide
    rw [hitem, hafter, fillWith_literal, hrest]
    simp [itemToken, isRedirection, Token.fill, valueWith, fillWith]

/-- A template that makes a number of an item: the gap stands directly in front of a redirection,
and items differ in the kinds of their tokens. -/
theorem item_read_as_number : ∃ t, Template.make ["sort".toList, "\x7b\x7d>out".toList] "sh" usualGap
      = .ok t
    ∧ tokens? (literal (t.render "a".toList 0))
      = some [.word (literal "sort".toList), .word (literal "a".toList), .operator ['>'],
          .word (literal "out".toList)]
    ∧ tokens? (literal (t.render "2".toList 0))
      = some [.word (literal "sort".toList), .number (literal "2".toList), .operator ['>'],
          .word (literal "out".toList)] :=
  ⟨⟨"sh", usualGap, "sort \x7b\x7d>out".toList⟩, by decide, by decide +kernel, by decide +kernel⟩

end OrderedDispatch.Command
