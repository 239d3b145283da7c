/-
**Shown TOML texts are read back.**

A text is shown in the first of four forms that needs no escape: between single or triple quotes,
basic or literal.  Each form has a reader of its own, and a text is read back only if the reader is
not misled about which form it is and where the text ends.  A form over several lines ends at the
first run of three quotes or more, of which two belong to the text at most; that is why a text has
never three quotes in a row there, and those at its end may stand right before the closing ones.

Main definitions:

* `Config.Toml.RunsWithin` — no run of a character in a text is longer than a bound.

Main results:

* `Config.Toml.basic?_tomlChars` — a text with escapes is read as the text;
* `Config.Toml.multiline?_longBody`, `Config.Toml.multiline?_literal` — the same over several lines,
  with and without escapes;
* `Config.Toml.string?_tomlText` — **a text is read back whatever its form**.
-/

import Mathlib.Tactic.SplitIfs
import OrderedDispatch.Proofs.Config.Shown.Basic

set_option relaxedAutoImplicit false
set_option autoImplicit false

namespace OrderedDispatch.Config.Toml

open Render

variable {c : Char} {s rest : List Char}

/-! ### Escapes -/

/-- What is shown as itself may stand in a text as itself. -/
theorem isVisible_of_not_control (h : ¬ (c.toNat < 0x20 ∨ c.toNat = 0x7F)) :
    isVisible c = true := by
  rw [not_or] at h
  simp only [isVisible, Bool.or_eq_true, Bool.and_eq_true, decide_eq_true_eq]
  exact Or.inr ⟨by omega, h.2⟩

/-- A letter that a character is escaped by stands for the character. -/
theorem escapeLetter?_of_shown {d : Char} (h : Render.escapeLetter? c = some d) :
    Toml.escapeLetter? d = some c ∧ d ≠ 'u' ∧ d ≠ 'U' ∧ isSpace d = false ∧ d ≠ '\n'
      ∧ d ≠ '\r' := by
  unfold Render.escapeLetter? at h
  split_ifs at h <;> cases h <;> subst_vars <;> decide

/-- A character shown in a basic text: an escape that is read as the character, or the character
itself if it may stand for itself and has no other meaning. -/
theorem tomlChar_cases (c : Char) :
    (∃ e, tomlChar c = '\\' :: e ∧ (∀ rest, escape? (e ++ rest) = some (c, rest))
        ∧ ∀ rest, newline? (skipSpace (e ++ rest)) = none)
      ∨ tomlChar c = [c] ∧ c ≠ '"' ∧ c ≠ '\\' ∧ c ≠ '\n' ∧ c ≠ '\r' ∧ isVisible c = true := by
  cases hletter : Render.escapeLetter? c with
  | some d =>
      obtain ⟨hd, hu, hU, hspace, hline, hreturn⟩ := escapeLetter?_of_shown hletter
      refine Or.inl ⟨[d], by simp [tomlChar, hletter], fun rest => ?_, fun rest => ?_⟩
      · rw [List.singleton_append, escape?, hd]
        · rfl
        · simpa using hu
        · simpa using hU
      · simp [skipSpace, hspace, newline?, hline, hreturn]
  | none =>
      by_cases hcontrol : c.toNat < 0x20 ∨ c.toNat = 0x7F
      · refine Or.inl ⟨'u' :: (hexTail 4 c.toNat).map Char.toUpper,
          by simp [tomlChar, hletter, hcontrol], fun rest => ?_, fun rest => rfl⟩
        rw [List.cons_append, escape?, hexCode?_hexTail_upper hcontrol, Char.ofNat_toNat]
      · refine Or.inr ⟨by simp [tomlChar, hletter, hcontrol], ?_, ?_, ?_, ?_,
          isVisible_of_not_control hcontrol⟩
        all_goals
          rintro rfl
          exact absurd hletter (by decide)

/-- A character is read as itself, escaped or not. -/
theorem basic?_tomlChar (c : Char) (steps : Nat) (acc rest : List Char) :
    basic? (steps + 1) acc (tomlChar c ++ rest) = basic? steps (c :: acc) rest := by
  obtain ⟨e, he, hescape, -⟩ | ⟨hself, hquote, hbackslash, -, -, hvisible⟩ := tomlChar_cases c
  · rw [he, List.cons_append, basic?]
    simp [hescape]
  · rw [hself, List.singleton_append, basic?]
    · rw [if_pos hvisible]
    · simpa using hquote
    · simpa using hbackslash

/-- A text with escapes is read as the text. -/
theorem basic?_tomlChars (s : List Char) (steps : Nat) (hsteps : s.length < steps)
    (acc rest : List Char) :
    basic? steps acc (s.flatMap tomlChar ++ '"' :: rest) = some (acc.reverse ++ s, rest) :=
  read_flatMap (fun _ _ _ => by simp [basic?]) basic?_tomlChar s steps hsteps acc rest

/-! ### Runs of quotes -/

/-- No run of a character in a text is longer than a bound. -/
def RunsWithin (bound : Nat) (q : Char) (s : List Char) : Prop :=
  ∀ t, t <:+ s → quoteRun q t ≤ bound

variable {q : Char}

theorem quoteRun_cons (q c : Char) (s : List Char) :
    quoteRun q (c :: s) = if c = q then quoteRun q s + 1 else 0 := by
  rw [quoteRun, List.takeWhile_cons]
  by_cases h : c = q <;> simp [h, quoteRun]

theorem RunsWithin.of_cons {bound : Nat} (h : RunsWithin bound q (c :: s)) : RunsWithin bound q s :=
  fun t ht => h t (ht.trans (List.suffix_cons c s))

/-- The longest run counts the run before the text together with the one that the text begins
with. -/
theorem le_longestRun (q : Char) (run : Nat) (s : List Char) :
    run + quoteRun q s ≤ longestRun q run s ∧ RunsWithin (longestRun q run s) q s := by
  induction s generalizing run with
  | nil =>
      refine ⟨Nat.le_refl run, fun t ht => ?_⟩
      rw [List.suffix_nil.1 ht]
      exact Nat.zero_le _
  | cons d s ih =>
      rw [longestRun, quoteRun_cons]
      split
      · rename_i hd
        obtain ⟨hfirst, hruns⟩ := ih (run + 1)
        refine ⟨by omega, fun t ht => ?_⟩
        rcases List.suffix_cons_iff.1 ht with rfl | ht
        · rw [quoteRun_cons, if_pos hd]
          omega
        · exact hruns t ht
      · rename_i hd
        obtain ⟨-, hruns⟩ := ih 0
        refine ⟨by omega, fun t ht => ?_⟩
        rcases List.suffix_cons_iff.1 ht with rfl | ht
        · rw [quoteRun_cons, if_neg hd]
          exact Nat.zero_le _
        · exact Nat.le_trans (hruns t ht) (Nat.le_max_right _ _)

theorem eq_replicate_of_all (h : s.all (· = q) = true) : s = List.replicate s.length q :=
  List.eq_replicate_of_mem (by simpa using h)

theorem quoteRun_of_all (h : s.all (· = q) = true) : quoteRun q s = s.length := by
  rw [eq_replicate_of_all h]
  simp [quoteRun]

/-- The closing quotes make the run in front of them longer. -/
theorem quoteRun_append_close (hrest : rest.head? ≠ some q) (s : List Char) :
    quoteRun q (s ++ q :: q :: q :: rest)
      = if s.all (· = q) then s.length + 3 else quoteRun q s := by
  induction s with
  | nil =>
      have hnone : quoteRun q rest = 0 := by
        cases rest with
        | nil => rfl
        | cons c rest =>
            rw [quoteRun_cons, if_neg (by simpa using hrest)]
      simp [quoteRun_cons, hnone]
  | cons c s ih =>
      rw [List.cons_append, quoteRun_cons, ih, quoteRun_cons]
      by_cases hc : c = q
      · simp only [hc, if_true, List.all_cons, decide_true, Bool.true_and, List.length_cons]
        split <;> omega
      · simp [hc]

/-- At the closing quotes the text ends. -/
theorem multiline?_close {escapes : Bool} (hrest : rest.head? ≠ some q) (steps : Nat)
    (acc : List Char) :
    multiline? q escapes (steps + 1) acc (q :: q :: q :: rest) = some (acc.reverse, rest) := by
  have hrun := quoteRun_append_close hrest []
  rw [List.nil_append] at hrun
  simp [multiline?, hrun]

/-- At a quote the text goes on after it, or has nothing but quotes left. -/
theorem multiline?_quote {escapes : Bool} (hrest : rest.head? ≠ some q)
    (hrun : quoteRun q (q :: s) ≤ 2) (steps : Nat) (acc : List Char) :
    multiline? q escapes (steps + 1) acc (q :: s ++ q :: q :: q :: rest)
      = if s.all (· = q) then some (acc.reverse ++ q :: s, rest)
        else multiline? q escapes steps (q :: acc) (s ++ q :: q :: q :: rest) := by
  have hwhole := quoteRun_append_close hrest (q :: s)
  simp only [List.all_cons, decide_true, Bool.true_and] at hwhole
  rw [List.cons_append] at hwhole ⊢
  rw [multiline?, if_pos rfl, hwhole]
  split
  · rename_i hall
    have hquotes : q :: s = List.replicate (s.length + 1) q := by
      rw [List.replicate_succ, ← eq_replicate_of_all hall]
    rw [quoteRun_cons, if_pos rfl, quoteRun_of_all hall] at hrun
    have hdrop : (q :: (s ++ q :: q :: q :: rest)).drop (s.length + 1 + 3) = rest := by
      have htext : q :: (s ++ q :: q :: q :: rest) = (q :: s ++ [q, q, q]) ++ rest := by simp
      rw [htext]
      exact List.drop_left' (by simp)
    have hreverse : (q :: s).reverse = q :: s := by
      rw [hquotes, List.reverse_replicate]
    simp only [List.length_cons]
    rw [if_neg (by omega), if_pos (by omega), hdrop, Nat.add_sub_cancel, ← hquotes,
      List.reverse_append, hreverse]
  · rw [if_pos (by omega)]

/-! ### Texts over several lines -/

theorem newline?_of_ne (hline : c ≠ '\n') (hreturn : c ≠ '\r') (rest : List Char) :
    newline? (c :: rest) = none := by
  rw [newline?]
  · simp [hline]
  · simp [hreturn]

/-- A character that is neither a quote nor a backslash goes into the text. -/
theorem multiline?_self {escapes : Bool} (hquote : c ≠ q)
    (hbackslash : (escapes && c = '\\') = false)
    (hreturn : c ≠ '\r') (hvisible : c = '\n' ∨ isVisible c = true) (steps : Nat)
    (acc rest : List Char) :
    multiline? q escapes (steps + 1) acc (c :: rest)
      = multiline? q escapes steps (c :: acc) rest := by
  rw [multiline?, if_neg hquote, hbackslash, if_neg Bool.false_ne_true]
  by_cases hline : c = '\n'
  · simp [hline, newline?]
  · rw [newline?_of_ne hline hreturn]
    exact if_pos (hvisible.resolve_left hline)

theorem visible_of_isControl (h : isControl c = false) :
    c ≠ '\r' ∧ (c = '\n' ∨ isVisible c = true) := by
  constructor
  · rintro rfl
    exact absurd h (by decide)
  · simp only [isControl, Bool.or_eq_false_iff, Bool.and_eq_false_iff, decide_eq_false_iff_not,
      ne_eq, Decidable.not_not] at h
    simp only [isVisible, Bool.or_eq_true, Bool.and_eq_true, decide_eq_true_eq]
    rcases h with ⟨(hlow | htab) | hline, hdelete⟩
    · exact Or.inr (Or.inr ⟨by omega, hdelete⟩)
    · exact Or.inr (Or.inl htab)
    · exact Or.inl hline

/-- A literal text over several lines is read as the text. -/
theorem multiline?_literal (hrest : rest.head? ≠ some q) (hruns : RunsWithin 2 q s)
    (hcontrol : ∀ c ∈ s, isControl c = false) (steps : Nat) (hsteps : s.length < steps)
    (acc : List Char) :
    multiline? q false steps acc (s ++ q :: q :: q :: rest) = some (acc.reverse ++ s, rest) := by
  induction s generalizing steps acc with
  | nil =>
      obtain ⟨steps, rfl⟩ := Nat.exists_eq_add_one_of_ne_zero (Nat.ne_zero_of_lt hsteps)
      rw [List.nil_append, multiline?_close hrest, List.append_nil]
  | cons c s ih =>
      obtain ⟨steps, rfl⟩ := Nat.exists_eq_add_one_of_ne_zero (Nat.ne_zero_of_lt hsteps)
      obtain ⟨hc, hs⟩ := List.forall_mem_cons.1 hcontrol
      have hmore := ih hruns.of_cons hs steps (Nat.lt_of_succ_lt_succ hsteps) (c :: acc)
      have hgoal : (c :: acc).reverse ++ s = acc.reverse ++ c :: s := by simp
      rw [hgoal] at hmore
      by_cases hquote : c = q
      · subst hquote
        rw [multiline?_quote hrest (hruns _ (List.suffix_refl _)), hmore, ite_self]
      · obtain ⟨hreturn, hvisible⟩ := visible_of_isControl hc
        rw [List.cons_append, multiline?_self hquote rfl hreturn hvisible, hmore]

/-- What is written for a character begins with a quote only if it is one that has been counted. -/
theorem tomlChar_head (c : Char) : ∃ d e, tomlChar c = d :: e ∧ d ≠ '"' := by
  obtain ⟨e, he, -, -⟩ | ⟨hself, hquote, -⟩ := tomlChar_cases c
  · exact ⟨_, e, he, by decide⟩
  · exact ⟨c, [], hself, hquote⟩

/-- The inside of a basic text over several lines begins with no more quotes than may be added to
those just written. -/
theorem quoteRun_longBody {run : Nat} (h : run ≤ 2) (s : List Char) :
    run + quoteRun '"' (longBody run s) ≤ 2 := by
  fun_induction longBody run s with
  | case1 run => simpa [quoteRun] using h
  | case2 run s ih => simpa [quoteRun_cons] using h
  | case3 run c s hline hquote ih =>
      rw [Bool.and_eq_true, decide_eq_true_eq, decide_eq_true_eq] at hquote
      have hmore := ih hquote.2
      rw [quoteRun_cons, if_pos rfl]
      omega
  | case4 run c s hline hquote ih =>
      obtain ⟨d, e, he, hd⟩ := tomlChar_head c
      rw [he, List.cons_append, quoteRun_cons, if_neg hd]
      exact h

/-- What is shown as quotes alone is quotes alone. -/
theorem longBody_of_all {run : Nat} (h : (longBody run s).all (· = '"') = true) :
    longBody run s = s := by
  fun_induction longBody run s with
  | case1 run => rfl
  | case2 run s ih => simp at h
  | case3 run c s hline hquote ih =>
      rw [Bool.and_eq_true, decide_eq_true_eq] at hquote
      rw [List.all_cons, Bool.and_eq_true] at h
      rw [ih h.2, hquote.1]
  | case4 run c s hline hquote ih =>
      obtain ⟨d, e, he, hd⟩ := tomlChar_head c
      simp [he, hd] at h

/-- A basic text over several lines is read as the text. -/
theorem multiline?_longBody (hrest : rest.head? ≠ some '"') {run : Nat} (hrun : run ≤ 2)
    (steps : Nat) (hsteps : s.length < steps) (acc : List Char) :
    multiline? '"' true steps acc (longBody run s ++ '"' :: '"' :: '"' :: rest)
      = some (acc.reverse ++ s, rest) := by
  induction s generalizing steps acc run with
  | nil =>
      obtain ⟨steps, rfl⟩ := Nat.exists_eq_add_one_of_ne_zero (Nat.ne_zero_of_lt hsteps)
      rw [longBody, List.nil_append, multiline?_close hrest, List.append_nil]
  | cons c s ih =>
      obtain ⟨steps, rfl⟩ := Nat.exists_eq_add_one_of_ne_zero (Nat.ne_zero_of_lt hsteps)
      have hmore := fun {run} (hrun : run ≤ 2) =>
        ih hrun steps (Nat.lt_of_succ_lt_succ hsteps) (c :: acc)
      have hgoal : (c :: acc).reverse ++ s = acc.reverse ++ c :: s := by simp
      rw [hgoal] at hmore
      rw [longBody]
      split_ifs with hline hquote
      · subst hline
        rw [List.cons_append, multiline?_self (by decide) (by decide) (by decide) (Or.inl rfl),
          hmore (Nat.zero_le 2)]
      · rw [Bool.and_eq_true, decide_eq_true_eq, decide_eq_true_eq] at hquote
        obtain ⟨rfl, hfew⟩ := hquote
        have hnext : run + 1 + quoteRun '"' (longBody (run + 1) s) ≤ 2 := quoteRun_longBody hfew s
        rw [multiline?_quote hrest (by rw [quoteRun_cons, if_pos rfl]; omega)]
        split
        · rename_i hall
          rw [longBody_of_all hall]
        · exact hmore hfew
      · obtain ⟨e, he, hescape, hbreak⟩ | ⟨hself, hplain, hbackslash, -, hreturn, hvisible⟩ :=
          tomlChar_cases c
        · have hnone : ∀ rest, escapedBreak? (e ++ rest) = none := by
            intro rest
            rw [escapedBreak?, hbreak]
            rfl
          rw [he, List.append_assoc, List.cons_append, multiline?, if_neg (by decide)]
          simp [hnone, hescape, hmore (Nat.zero_le 2)]
        · rw [hself, List.append_assoc, List.singleton_append,
            multiline?_self hplain (by simpa using hbackslash) hreturn (Or.inr hvisible),
            hmore (Nat.zero_le 2)]

/-! ### The form of a text -/

theorem traits_of_literal {t : Traits} (h : formOf t = .literal) :
    t.hasControl = false ∧ t.singles = 0 ∧ t.hasBreak = false := by
  unfold formOf at h
  split_ifs at h
  simp_all

theorem traits_of_longLiteral {t : Traits} (h : formOf t = .longLiteral) :
    t.hasControl = false ∧ t.singles ≤ 2 := by
  unfold formOf at h
  split_ifs at h
  simp_all

theorem isControl_of_traits (h : (traits s).hasControl = false) : ∀ c ∈ s, isControl c = false :=
  fun c hc => Bool.eq_false_iff.2 (List.any_eq_false.1 h c hc)

theorem ne_newline_of_traits (h : (traits s).hasBreak = false) : '\n' ∉ s := by
  simpa [traits] using h

theorem runsWithin_of_traits {bound : Nat} (h : (traits s).singles ≤ bound) :
    RunsWithin bound '\'' s :=
  fun t ht => Nat.le_trans ((le_longestRun '\'' 0 s).2 t ht) h

theorem tomlChar_ne_nil (c : Char) : tomlChar c ≠ [] := by
  obtain ⟨d, e, he, -⟩ := tomlChar_head c
  simp [he]

theorem length_le_longBody (run : Nat) (s : List Char) : s.length ≤ (longBody run s).length := by
  fun_induction longBody run s with
  | case1 run => exact Nat.le_refl 0
  | case2 run s ih => simpa using ih
  | case3 run c s hline hquote ih => simpa using ih
  | case4 run c s hline hquote ih =>
      obtain ⟨d, e, he, -⟩ := tomlChar_head c
      rw [he]
      simp only [List.length_append, List.length_cons]
      omega

theorem string?_basic (s rest : List Char) :
    string? ('"' :: s.flatMap tomlChar ++ '"' :: '\n' :: rest) = some (s, '\n' :: rest) := by
  have hlength := length_le_flatMap_escape tomlChar_ne_nil s
  rw [List.cons_append, string?]
  · refine basic?_tomlChars s _ ?_ [] _
    rw [List.length_append]
    omega
  · intro rest' hopen
    cases s with
    | nil => simp at hopen
    | cons c s =>
        obtain ⟨d, e, he, hd⟩ := tomlChar_head c
        rw [List.flatMap_cons, he] at hopen
        exact hd (List.cons.inj hopen).1

theorem string?_literal (hruns : RunsWithin 0 '\'' s) (hcontrol : ∀ c ∈ s, isControl c = false)
    (hbreak : '\n' ∉ s) (rest : List Char) :
    string? ('\'' :: s ++ '\'' :: '\n' :: rest) = some (s, '\n' :: rest) := by
  have hquote : '\'' ∉ s := by
    intro hmem
    obtain ⟨before, after, rfl⟩ := List.append_of_mem hmem
    have hrun := hruns _ (List.suffix_append before ('\'' :: after))
    simp [quoteRun_cons] at hrun
  have hplain : ∀ c ∈ s, (decide (c ≠ '\'') && isVisible c) = true := by
    intro c hc
    have hline : c ≠ '\n' := fun h => hbreak (h ▸ hc)
    have hself : c ≠ '\'' := fun h => hquote (h ▸ hc)
    simp [hself, (visible_of_isControl (hcontrol c hc)).2.resolve_left hline]
  rw [List.cons_append, string?]
  · rw [literal?, spanWhile_cons_of_not hplain (by decide)]
    rfl
  · intro rest' hopen
    cases s with
    | nil => simp at hopen
    | cons c s => exact hquote ((List.cons.inj hopen).1 ▸ List.mem_cons_self)

theorem newline?_longBody (hbreak : '\n' ∉ s) (rest : List Char) :
    newline? (longBody 0 s ++ '"' :: rest) = none := by
  cases s with
  | nil => rfl
  | cons c s =>
      have hline : c ≠ '\n' := fun h => hbreak (h ▸ List.mem_cons_self)
      rw [longBody, if_neg hline]
      split
      · rfl
      · obtain ⟨e, he, -, -⟩ | ⟨hself, -, -, -, hreturn, -⟩ := tomlChar_cases c
        · rw [he]
          rfl
        · rw [hself]
          exact newline?_of_ne hline hreturn _

theorem newline?_of_isControl (hcontrol : ∀ c ∈ s, isControl c = false) (hbreak : '\n' ∉ s)
    (rest : List Char) : newline? (s ++ '\'' :: rest) = none := by
  cases s with
  | nil => rfl
  | cons c s =>
      have hline : c ≠ '\n' := fun h => hbreak (h ▸ List.mem_cons_self)
      exact newline?_of_ne hline (visible_of_isControl (hcontrol c List.mem_cons_self)).1 _

/-- The line break after opening quotes is skipped, and nothing else is. -/
theorem exists_opening (q : Char) {t : Traits} (h : t.hasBreak = false → newline? s = none) :
    ∃ s', opening [q, q, q] t ++ s = q :: q :: q :: s' ∧ skipBreak s' = s
      ∧ s.length ≤ s'.length := by
  rw [opening]
  split
  · exact ⟨'\n' :: s, rfl, rfl, Nat.le_succ _⟩
  · rename_i hbreak
    refine ⟨s, rfl, ?_, Nat.le_refl _⟩
    rw [skipBreak, h (by simpa using hbreak)]
    rfl

/-- **A text is read back whatever its form.** -/
theorem string?_tomlText (s rest : List Char) :
    string? (tomlText s ++ '\n' :: rest) = some (s, '\n' :: rest) := by
  rw [tomlText]
  cases hform : formOf (traits s) with
  | basic => simpa using string?_basic s rest
  | literal =>
      obtain ⟨hcontrol, hsingles, hbreak⟩ := traits_of_literal hform
      simpa using string?_literal (runsWithin_of_traits (Nat.le_of_eq hsingles))
        (isControl_of_traits hcontrol) (ne_newline_of_traits hbreak) rest
  | longBasic =>
      obtain ⟨s', hopen, hskip, hlength⟩ := exists_opening '"'
        fun hbreak : (traits s).hasBreak = false =>
          newline?_longBody (ne_newline_of_traits hbreak) ('"' :: '"' :: '\n' :: rest)
      have hbody := length_le_longBody 0 s
      rw [List.length_append] at hlength
      have hread : multiline? '"' true (s'.length + 1) []
          (longBody 0 s ++ '"' :: '"' :: '"' :: '\n' :: rest) = some (s, '\n' :: rest) :=
        multiline?_longBody (by simp) (Nat.zero_le 2) _ (by omega) []
      have htext : opening ['"', '"', '"'] (traits s) ++ longBody 0 s ++ ['"', '"', '"']
          ++ '\n' :: rest = '"' :: '"' :: '"' :: s' := by simp [← hopen]
      simp only [htext]
      rw [string?, hskip, hread]
  | longLiteral =>
      obtain ⟨hcontrol, hsingles⟩ := traits_of_longLiteral hform
      have hplain := isControl_of_traits hcontrol
      obtain ⟨s', hopen, hskip, hlength⟩ := exists_opening '\''
        fun hbreak : (traits s).hasBreak = false =>
          newline?_of_isControl hplain (ne_newline_of_traits hbreak) ('\'' :: '\'' :: '\n' :: rest)
      rw [List.length_append] at hlength
      have hread : multiline? '\'' false (s'.length + 1) []
          (s ++ '\'' :: '\'' :: '\'' :: '\n' :: rest) = some (s, '\n' :: rest) :=
        multiline?_literal (by simp) (runsWithin_of_traits hsingles) hplain _ (by omega) []
      have htext : opening ['\'', '\'', '\''] (traits s) ++ s ++ ['\'', '\'', '\''] ++ '\n' :: rest
          = '\'' :: '\'' :: '\'' :: s' := by simp [← hopen]
      simp only [htext]
      rw [string?, hskip, hread]

end OrderedDispatch.Config.Toml
