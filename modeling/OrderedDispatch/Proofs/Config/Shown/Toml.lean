/-
**Shown TOML is read back.**

Settings shown in TOML are a header for each section with a line for each setting, and a blank line
between two sections.  A reader of TOML takes the lines one by one.  A number that fits a signed
word is read as a number, though dates and times begin with digits as well: what follows the digits
decides.  The file that is built into the program has lines of these kinds, and comments.

Main results:

* `Config.Toml.number?_toDigits`, `Config.Toml.moment?_of_digits` — digits at the end of a line are a
  number and no moment;
* `Config.Toml.line?_header`, `Config.Toml.line?_pair` — the lines of a section;
* `Config.Toml.read?_render` — **shown settings are read back**;
* `Config.Toml.read?_defaultText` — the built-in file says what holds where nothing is said.
-/

import OrderedDispatch.Proofs.Config.Shown.TomlText

set_option relaxedAutoImplicit false
set_option autoImplicit false

namespace OrderedDispatch.Config.Toml

open Render

variable {c : Char} {s rest : List Char} {n : Nat}

/-! ### Numbers -/

theorem field?_eq_some {count low high : Nat} {x : Nat × List Char} {after : List Char}
    (h : field? count low high s = some (x, after)) :
    (∀ c ∈ s.take count, Text.isDigit c = true) ∧ after = s.drop count := by
  rw [field?] at h
  split at h
  · rename_i hdigits
    obtain ⟨n, -, hn⟩ := Option.bind_eq_some_iff.1 h
    split at hn
    · cases hn
      exact ⟨List.all_eq_true.1 (Bool.and_eq_true_iff.1 hdigits).2, rfl⟩
    · cases hn
  · cases h

/-- Behind a field of digits there are more digits or what follows them all. -/
theorem char?_after_field {count low high : Nat} {x : Nat × List Char} {after : List Char}
    (hs : ∀ c ∈ s, Text.isDigit c = true)
    (h : field? count low high (s ++ '\n' :: rest) = some (x, after)) {mark : Char}
    (hdigit : Text.isDigit mark = false) (hline : mark ≠ '\n') : char? mark after = none := by
  obtain ⟨hfield, rfl⟩ := field?_eq_some h
  by_cases hcount : count ≤ s.length
  · rw [List.drop_append_of_le_length hcount]
    cases hdrop : s.drop count with
    | nil => simp [char?, hline.symm]
    | cons d s' =>
        have hd : d ∈ s := List.mem_of_mem_drop (hdrop ▸ List.mem_cons_self)
        simp [char?, Text.ne_of_isDigit (hs d hd) hdigit]
  · -- a field beyond the digits would have the end of the line in it
    have hend : '\n' ∈ (s ++ '\n' :: rest).take count := by
      obtain ⟨k, hk⟩ := Nat.exists_eq_add_of_lt (Nat.lt_of_not_le hcount)
      rw [List.take_append, hk]
      simp [Nat.add_assoc]
    exact absurd (hfield _ hend) (by decide)

/-- Digits at the end of a line are no moment. -/
theorem moment?_of_digits (hs : ∀ c ∈ s, Text.isDigit c = true) (rest : List Char) :
    moment? (s ++ '\n' :: rest) = none := by
  have hdate : date? (s ++ '\n' :: rest) = none := by
    rw [date?]
    cases h : field? 4 0 9999 (s ++ '\n' :: rest) with
    | none => rfl
    | some r =>
        have hdash : char? '-' r.2 = none := char?_after_field hs h rfl (by decide)
        simp [hdash]
  have htime : time? (s ++ '\n' :: rest) = none := by
    rw [time?]
    cases h : field? 2 0 23 (s ++ '\n' :: rest) with
    | none => rfl
    | some r =>
        have hcolon : char? ':' r.2 = none := char?_after_field hs h rfl (by decide)
        simp [hcolon]
  rw [moment?, hdate]
  exact htime

theorem moreDigits_of_digits (hs : ∀ c ∈ s, Text.isDigit c = true) (rest : List Char) :
    moreDigits Text.isDigit (s ++ '\n' :: rest) = some (s, '\n' :: rest) := by
  induction s with
  | nil => simp [moreDigits, Text.isDigit]
  | cons c s ih =>
      obtain ⟨hc, hs⟩ := List.forall_mem_cons.1 hs
      have hunderscore : c ≠ '_' := Text.ne_of_isDigit hc (by decide)
      rw [List.cons_append, moreDigits, if_pos hc, ih hs]
      · rfl
      · simp [hunderscore]
      · simp [hunderscore]

theorem decimalDigits?_toDigits (n : Nat) (rest : List Char) :
    decimalDigits? (Nat.toDigits 10 n ++ '\n' :: rest) = some (Nat.toDigits 10 n, '\n' :: rest) := by
  obtain ⟨-, hzero⟩ | ⟨c, s, hs, hc⟩ := Text.toDigits_cases n
  · rw [hzero]
    rfl
  · have hdigits : ∀ d ∈ c :: s, Text.isDigit d = true :=
      fun d hd => Text.isDigit_of_mem_toDigits (n := n) (hs ▸ hd)
    obtain ⟨hfirst, hmore⟩ := List.forall_mem_cons.1 hdigits
    rw [hs, List.cons_append, decimalDigits?]
    · rw [digits?, if_pos hfirst, moreDigits_of_digits hmore]
      rfl
    · simp [hc]

/-- Digits have no sign. -/
theorem sign_toDigits (n : Nat) (rest : List Char) :
    sign (Nat.toDigits 10 n ++ rest) = (false, Nat.toDigits 10 n ++ rest) := by
  obtain ⟨c, s, hs, hc⟩ := Text.exists_toDigits n
  have hminus : c ≠ '-' := Text.ne_of_isDigit hc (by decide)
  have hplus : c ≠ '+' := Text.ne_of_isDigit hc (by decide)
  rw [hs, List.cons_append, sign]
  · simp [hminus]
  · simp [hplus]

theorem decimal?_toDigits (hn : n < Text.signedLimit) (rest : List Char) :
    decimal? (Nat.toDigits 10 n ++ '\n' :: rest) = some (.int true n, '\n' :: rest) := by
  have hfits : Text.fitsSigned n = true := by
    simp only [Text.fitsSigned, Bool.and_eq_true, decide_eq_true_eq]
    omega
  have hplaces : places? ('\n' :: rest) = some ([], '\n' :: rest) := rfl
  have hexponent : exponent? ('\n' :: rest) = some (none, '\n' :: rest) := rfl
  rw [decimal?, sign_toDigits]
  simp only [decimalDigits?_toDigits, hplaces, hexponent, Option.bind_eq_bind, Option.bind_some,
    List.append_nil, Text.natOfDigits?_toDigits, List.isEmpty_nil, Option.isNone_none,
    Bool.and_self, if_true, Bool.false_eq_true, if_false, hfits]

/-- Digits at the end of a line are a number. -/
theorem number?_toDigits (hn : n < Text.signedLimit) (rest : List Char) :
    number? (Nat.toDigits 10 n ++ '\n' :: rest) = some (.int true n, '\n' :: rest) := by
  have hdecimal := decimal?_toDigits hn rest
  have hnamed : named? (Nat.toDigits 10 n ++ '\n' :: rest) = none := by
    obtain ⟨c, s, hs, hc⟩ := Text.exists_toDigits n
    have hi : c ≠ 'i' := Text.ne_of_isDigit hc (by decide)
    have hn : c ≠ 'n' := Text.ne_of_isDigit hc (by decide)
    rw [named?, sign_toDigits, hs]
    simp [hi, hn]
  obtain ⟨-, hzero⟩ | ⟨c, s, hs, hc⟩ := Text.toDigits_cases n
  · rw [hzero] at hdecimal hnamed ⊢
    rw [List.singleton_append] at hdecimal hnamed ⊢
    rw [number?, hnamed]
    · exact hdecimal
    all_goals simp
  · rw [hs] at hdecimal hnamed ⊢
    rw [List.cons_append] at hdecimal hnamed ⊢
    rw [number?, hnamed]
    · exact hdecimal
    all_goals simp [hc]

/-! ### Values -/

/-- The first character tells texts, and numbers and moments, from the other values. -/
theorem value?_cons (htrue : c ≠ 't') (hfalse : c ≠ 'f') (hlist : c ≠ '[') (htable : c ≠ '\x7b')
    (depth : Nat) (s : List Char) :
    value? depth (c :: s) = if c = '"' || c = '\'' then
      (string? (c :: s)).map fun r => (.ofText r.1, r.2) else plain? (c :: s) := by
  rw [value?]
  all_goals simp [htrue, hfalse, hlist, htable]

theorem value?_toDigits (hn : n < Text.signedLimit) (depth : Nat) (rest : List Char) :
    value? depth (Nat.toDigits 10 n ++ '\n' :: rest) = some (.scalar (.int true n), '\n' :: rest) := by
  have hplain : plain? (Nat.toDigits 10 n ++ '\n' :: rest)
      = some (.scalar (.int true n), '\n' :: rest) := by
    rw [plain?, moment?_of_digits (fun c hc => Text.isDigit_of_mem_toDigits hc),
      number?_toDigits hn]
    rfl
  obtain ⟨c, s, hs, hc⟩ := Text.exists_toDigits n
  have hne : ∀ d, Text.isDigit d = false → c ≠ d := fun d hd => Text.ne_of_isDigit hc hd
  rw [hs, List.cons_append] at hplain ⊢
  rw [value?_cons (hne _ (by decide)) (hne _ (by decide)) (hne _ (by decide)) (hne _ (by decide)),
    if_neg (by simp [hne '"' (by decide), hne '\'' (by decide)]), hplain]

/-- A text begins with a quote. -/
theorem tomlText_head (s : List Char) : ∃ c s', tomlText s = c :: s' ∧ (c = '"' ∨ c = '\'') := by
  rw [tomlText]
  cases formOf (traits s) with
  | basic => exact ⟨_, _, rfl, Or.inl rfl⟩
  | literal => exact ⟨_, _, rfl, Or.inr rfl⟩
  | longBasic =>
      obtain ⟨s', hs⟩ : ∃ s', opening ['"', '"', '"'] (traits s) = '"' :: s' := by
        rw [opening]
        split <;> exact ⟨_, rfl⟩
      exact ⟨'"', _, by rw [hs]; rfl, Or.inl rfl⟩
  | longLiteral =>
      obtain ⟨s', hs⟩ : ∃ s', opening ['\'', '\'', '\''] (traits s) = '\'' :: s' := by
        rw [opening]
        split <;> exact ⟨_, rfl⟩
      exact ⟨'\'', _, by rw [hs]; rfl, Or.inr rfl⟩

/-- A shown value is read as the value. -/
theorem value?_shown {e : Shown} (he : e.Fits Text.signedLimit) (depth : Nat) (rest : List Char) :
    value? depth (e.render tomlText ++ '\n' :: rest) = some (e.toDoc true, '\n' :: rest) := by
  cases e with
  | number n => exact value?_toDigits he depth rest
  | flag b =>
      have htrue : (toString true).toList = "true".toList := rfl
      have hfalse : (toString false).toList = "false".toList := rfl
      cases b <;> simp [Shown.render, Shown.toDoc, htrue, hfalse, value?]
  | text s =>
      have hstring := string?_tomlText s rest
      obtain ⟨c, s', hs, hquote⟩ := tomlText_head s
      have hne : ∀ d, d ≠ '"' ∧ d ≠ '\'' → c ≠ d := by
        rintro d ⟨hdouble, hsingle⟩ rfl
        exact hquote.elim hdouble hsingle
      rw [Shown.render, Shown.toDoc]
      rw [hs, List.cons_append] at hstring ⊢
      rw [value?_cons (hne _ (by decide)) (hne _ (by decide)) (hne _ (by decide))
        (hne _ (by decide)), if_pos (by simpa using hquote), hstring]
      rfl

/-! ### Lines -/

theorem skipSpace_of_not {s : List Char} (h : isSpace c = false) : skipSpace (c :: s) = c :: s :=
  List.dropWhile_cons_of_neg (by simp [h])

theorem isName_cases {name : String} (h : isName name = true) :
    (∀ c ∈ name.toList, isBare c = true) ∧ ∃ c s, name.toList = c :: s ∧ isBare c = true := by
  obtain ⟨hne, hall⟩ := Bool.and_eq_true_iff.1 h
  have hbare := List.all_eq_true.1 hall
  cases hs : name.toList with
  | nil => simp [hs] at hne
  | cons c s => exact ⟨hs ▸ hbare, c, s, rfl, hbare c (hs ▸ List.mem_cons_self)⟩

theorem isSpace_of_isBare (h : isBare c = true) : isSpace c = false := by
  simp [isSpace, ne_of_isBare h (show isBare ' ' = false by decide),
    ne_of_isBare h (show isBare '\t' = false by decide)]

/-- A name is a key of one part. -/
theorem key?_name {name : String} (h : isName name = true) (hc : isBare c = false)
    (hdot : ∀ r, skipSpace (c :: rest) ≠ '.' :: r) :
    key? (name.toList ++ c :: rest) = some ([name.toList], skipSpace (c :: rest)) := by
  obtain ⟨hall, d, s, hs, hd⟩ := isName_cases h
  have hpart : keyPart? (name.toList ++ c :: rest) = some (name.toList, c :: rest) := by
    have hspan := spanWhile_cons_of_not hall hc rest
    rw [hs, List.cons_append] at hspan ⊢
    rw [keyPart?, hspan]
    · rfl
    · exact fun _ hquote => ne_of_isBare hd rfl (List.cons.inj hquote).1
    · exact fun _ hquote => ne_of_isBare hd rfl (List.cons.inj hquote).1
  have hfront : skipSpace (name.toList ++ c :: rest) = name.toList ++ c :: rest := by
    rw [hs, List.cons_append, skipSpace_of_not (isSpace_of_isBare hd)]
  rw [key?, keyParts?, hfront, hpart]
  simp only [Option.bind_eq_bind, Option.bind_some]
  rfl

/-- The end of a line ends it. -/
theorem endOfLine?_newline (rest : List Char) : endOfLine? ('\n' :: rest) = some rest := rfl

/-- Whether a text is a comment on one line. -/
def isComment (s : List Char) : Bool := s.head? = some '#' && s.all isVisible

theorem line?_comment {s : List Char} (h : isComment s = true) (rest : List Char) :
    line? (s ++ '\n' :: rest) = some (.blank, rest) := by
  obtain ⟨hmark, hvisible⟩ := Bool.and_eq_true_iff.1 h
  obtain ⟨s, rfl⟩ := List.head?_eq_some_iff.1 (of_decide_eq_true hmark)
  obtain ⟨-, hvisible⟩ := List.forall_mem_cons.1 (List.all_eq_true.1 hvisible)
  have hskip : (s ++ '\n' :: rest).dropWhile isVisible = '\n' :: rest := by
    rw [List.dropWhile_append_of_pos hvisible]
    rfl
  have hend : endOfLine? ('#' :: (s ++ '\n' :: rest)) = some rest := by
    rw [endOfLine?, skipSpace_of_not rfl]
    simp [skipComment?, hskip, newline?]
  rw [line?, List.cons_append, skipSpace_of_not rfl]
  simp [hend]

theorem line?_header {name : String} (h : isName name = true) (rest : List Char) :
    line? ('[' :: name.toList ++ ']' :: '\n' :: rest) = some (.header false [name.toList], rest) := by
  have hkey : key? (name.toList ++ ']' :: '\n' :: rest)
      = some ([name.toList], ']' :: '\n' :: rest) :=
    key?_name h (by decide) (by intro r; simp [skipSpace, isSpace])
  have hheader : header? (name.toList ++ ']' :: '\n' :: rest)
      = some (.header false [name.toList], '\n' :: rest) := by
    obtain ⟨-, d, s, hs, hd⟩ := isName_cases h
    rw [hs, List.cons_append] at hkey ⊢
    rw [header?, hkey]
    · rfl
    · exact fun _ hopen => ne_of_isBare hd rfl (List.cons.inj hopen).1
  have hfront : skipSpace ('[' :: name.toList ++ ']' :: '\n' :: rest)
      = '[' :: (name.toList ++ ']' :: '\n' :: rest) := rfl
  rw [line?, hfront]
  simp only [hheader, Option.bind_eq_bind, Option.bind_some, endOfLine?_newline]

/-- A shown value has no white space at its front. -/
theorem skipSpace_shown (e : Shown) (rest : List Char) :
    skipSpace (' ' :: (e.render tomlText ++ rest)) = e.render tomlText ++ rest := by
  obtain ⟨c, s, hs, hc⟩ : ∃ c s, e.render tomlText = c :: s ∧ isSpace c = false := by
    cases e with
    | number n =>
        obtain ⟨c, s, hs, hc⟩ := Text.exists_toDigits n
        refine ⟨c, s, hs, ?_⟩
        have hspace : c ≠ ' ' := Text.ne_of_isDigit hc (by decide)
        have htab : c ≠ '\t' := Text.ne_of_isDigit hc (by decide)
        simp [isSpace, hspace, htab]
    | flag b => cases b <;> exact ⟨_, _, rfl, rfl⟩
    | text s =>
        obtain ⟨c, s', hs, rfl | rfl⟩ := tomlText_head s
        · exact ⟨_, s', hs, rfl⟩
        · exact ⟨_, s', hs, rfl⟩
  rw [hs, List.cons_append]
  exact skipSpace_of_not hc

/-- A line with a setting. -/
theorem line?_pair {name : String} (h : isName name = true) {e : Shown}
    (he : e.Fits Text.signedLimit) (rest : List Char) :
    line? (name.toList ++ " = ".toList ++ e.render tomlText ++ '\n' :: rest)
      = some (.pair ⟨[], name.toList, e.toDoc true⟩, rest) := by
  have hkey : key? (name.toList ++ ' ' :: '=' :: ' ' :: (e.render tomlText ++ '\n' :: rest))
      = some ([name.toList], '=' :: ' ' :: (e.render tomlText ++ '\n' :: rest)) :=
    key?_name h (by decide) (by intro r; simp [skipSpace, isSpace])
  have hspace : skipSpace (' ' :: (e.render tomlText ++ '\n' :: rest))
      = e.render tomlText ++ '\n' :: rest := skipSpace_shown e ('\n' :: rest)
  have hpair : pair? (value? maxDepth)
      (name.toList ++ ' ' :: '=' :: ' ' :: (e.render tomlText ++ '\n' :: rest))
        = some (⟨[], name.toList, e.toDoc true⟩, '\n' :: rest) := by
    rw [pair?, hkey]
    simp only [Option.bind_eq_bind, Option.bind_some, hspace, value?_shown he]
    rfl
  have htext : name.toList ++ " = ".toList ++ e.render tomlText ++ '\n' :: rest
      = name.toList ++ ' ' :: '=' :: ' ' :: (e.render tomlText ++ '\n' :: rest) := by simp
  obtain ⟨-, d, s, hs, hd⟩ := isName_cases h
  have hne : ∀ c, isBare c = false → d ≠ c := fun c hc => ne_of_isBare hd hc
  rw [htext, line?]
  rw [hs, List.cons_append] at hpair ⊢
  rw [skipSpace_of_not (isSpace_of_isBare hd)]
  simp [hne '#' rfl, hne '\n' rfl, hne '\r' rfl, hne '[' rfl, hpair, endOfLine?_newline]

/-! ### Documents -/

/-- A line as it is written and what it holds. -/
structure WrittenLine where
  text : List Char
  line : Line

/-- The line is read for what it holds, whatever comes after it. -/
def WrittenLine.Reads (w : WrittenLine) : Prop :=
  w.text ≠ [] ∧ ∀ rest, line? (w.text ++ rest) = some (w.line, rest)

namespace WrittenLine

/-- A comment, with its mark. -/
def comment (text : String) : WrittenLine := ⟨text.toList ++ ['\n'], .blank⟩

/-- A line without anything. -/
def blank : WrittenLine := ⟨['\n'], .blank⟩

/-- The header of a section. -/
def header (name : String) : WrittenLine :=
  ⟨'[' :: name.toList ++ [']', '\n'], .header false [name.toList]⟩

/-- A shown value under its name. -/
def pair (name : String) (e : Shown) : WrittenLine :=
  ⟨name.toList ++ " = ".toList ++ e.render tomlText ++ ['\n'],
    .pair ⟨[], name.toList, e.toDoc true⟩⟩

theorem reads_comment {text : String} (h : isComment text.toList = true) : (comment text).Reads :=
  ⟨by simp [comment], fun rest => by simpa [comment] using line?_comment h rest⟩

theorem reads_blank : blank.Reads := ⟨List.cons_ne_nil _ _, fun _ => rfl⟩

theorem reads_header {name : String} (h : isName name = true) : (header name).Reads :=
  ⟨List.cons_ne_nil _ _, fun rest => by simpa [header] using line?_header h rest⟩

theorem reads_pair {name : String} (h : isName name = true) {e : Shown}
    (he : e.Fits Text.signedLimit) : (pair name e).Reads :=
  ⟨by simp [pair], fun rest => by simpa [pair] using line?_pair h he rest⟩

end WrittenLine

/-- Lines are read one by one. -/
theorem lines?_written {ws : List WrittenLine} (h : ∀ w ∈ ws, w.Reads) (steps : Nat)
    (hsteps : ws.length < steps) (acc : List Line) :
    lines? steps acc (ws.flatMap WrittenLine.text)
      = some (acc.reverse ++ ws.map WrittenLine.line) := by
  induction ws generalizing steps acc with
  | nil =>
      obtain ⟨steps, rfl⟩ := Nat.exists_eq_add_one_of_ne_zero (Nat.ne_zero_of_lt hsteps)
      simp [lines?]
  | cons w ws ih =>
      obtain ⟨steps, rfl⟩ := Nat.exists_eq_add_one_of_ne_zero (Nat.ne_zero_of_lt hsteps)
      obtain ⟨⟨hne, hline⟩, hws⟩ := List.forall_mem_cons.1 h
      have hsome : (w.text ++ ws.flatMap WrittenLine.text).isEmpty = false := by simp [hne]
      rw [List.flatMap_cons, lines?, hsome, if_neg Bool.false_ne_true, hline]
      simp only [Option.bind_eq_bind, Option.bind_some]
      rw [ih hws steps (Nat.lt_of_succ_lt_succ hsteps)]
      simp

/-- The lines of a section. -/
def sectionLines (es : String × List (String × Shown)) : List WrittenLine :=
  .header es.1 :: es.2.map fun e => .pair e.1 e.2

/-- The lines of sections with a blank line between each two. -/
def documentLines : List (String × List (String × Shown)) → List WrittenLine
  | [] => []
  | [es] => sectionLines es
  | es :: more => sectionLines es ++ .blank :: documentLines more

theorem flatMap_sectionLines (es : String × List (String × Shown)) :
    (sectionLines es).flatMap WrittenLine.text = tomlSection es := by
  simp [sectionLines, tomlSection, WrittenLine.header, WrittenLine.pair, List.flatMap_map]

theorem flatMap_documentLines (ess : List (String × List (String × Shown))) :
    (documentLines ess).flatMap WrittenLine.text = ['\n'].intercalate (ess.map tomlSection) := by
  fun_induction documentLines ess with
  | case1 => rfl
  | case2 es => simp [flatMap_sectionLines]
  | case3 es more hmore ih =>
      obtain ⟨es', more, rfl⟩ := List.exists_cons_of_ne_nil hmore
      rw [List.flatMap_append, List.flatMap_cons, ih, flatMap_sectionLines]
      simp [WrittenLine.blank, List.intercalate_cons_cons]

/-- The lines of a section are read for what they hold. -/
theorem reads_of_mem_sectionLines {es : String × List (String × Shown)} (hname : isName es.1 = true)
    (h : ∀ e ∈ es.2, isName e.1 = true ∧ e.2.Fits Text.signedLimit) :
    ∀ w ∈ sectionLines es, w.Reads := by
  refine List.forall_mem_cons.2 ⟨WrittenLine.reads_header hname, fun w hw => ?_⟩
  obtain ⟨e, he, rfl⟩ := List.mem_map.1 hw
  exact WrittenLine.reads_pair (h e he).1 (h e he).2

theorem reads_of_mem_documentLines {ess : List (String × List (String × Shown))}
    (h : ∀ es ∈ ess, ∀ w ∈ sectionLines es, w.Reads) : ∀ w ∈ documentLines ess, w.Reads := by
  fun_induction documentLines ess with
  | case1 => exact nofun
  | case2 es => exact h es List.mem_cons_self
  | case3 es more hmore ih =>
      obtain ⟨hsection, hmore⟩ := List.forall_mem_cons.1 h
      exact List.forall_mem_append.2
        ⟨hsection, List.forall_mem_cons.2 ⟨WrittenLine.reads_blank, ih hmore⟩⟩

/-- There are more characters than lines. -/
theorem length_le_flatMap {ws : List WrittenLine} (h : ∀ w ∈ ws, w.Reads) :
    ws.length ≤ (ws.flatMap WrittenLine.text).length := by
  induction ws with
  | nil => exact Nat.le_refl 0
  | cons w ws ih =>
      obtain ⟨⟨hne, -⟩, hws⟩ := List.forall_mem_cons.1 h
      have hpos := List.length_pos_iff.2 hne
      have hmore := ih hws
      rw [List.flatMap_cons, List.length_append, List.length_cons]
      omega

/-- A text that is written line by line is read line by line. -/
theorem lines?_flatMap {ws : List WrittenLine} (h : ∀ w ∈ ws, w.Reads) :
    lines? ((ws.flatMap WrittenLine.text).length + 1) [] (ws.flatMap WrittenLine.text)
      = some (ws.map WrittenLine.line) :=
  lines?_written h _ (Nat.lt_succ_of_le (length_le_flatMap h)) []

/-- **Shown settings are read back.** -/
theorem read?_render {c : Config} (h : ∀ es ∈ shown c, ∀ e ∈ es.2, e.2.Fits Text.signedLimit) :
    read? (render c .toml) = some (shownDoc true c) := by
  have hreads : ∀ w ∈ documentLines (shown c), w.Reads := by
    refine reads_of_mem_documentLines fun es hes => ?_
    obtain ⟨hname, -, hnames⟩ := isName_of_mem_shown hes
    exact reads_of_mem_sectionLines hname fun e he => ⟨hnames e he, h es hes e he⟩
  have htext : render c .toml = (documentLines (shown c)).flatMap WrittenLine.text :=
    (flatMap_documentLines _).symm
  have hlines : lines? ((render c .toml).length + 1) [] (render c .toml)
      = some ((documentLines (shown c)).map WrittenLine.line) := by
    rw [htext]
    exact lines?_flatMap hreads
  have hmark : skipMark (render c .toml) = render c .toml := rfl
  rw [read?, hmark]
  simp only [hlines, Option.bind_eq_bind, Option.bind_some]
  -- all keys are known: putting the sections together is a computation
  simp [documentLines, sectionLines, WrittenLine.header, WrittenLine.pair, WrittenLine.blank, shown,
    sections, insertPairs?, addSection?, alterAt?,
    putSection?, insertPair?, insertAlong?, Entries.get?, Entries.put, Entries.before, entriesToDoc,
    Node.toDoc, shownDoc, tableOf, Shown.toDoc]

/-! ### The built-in file -/

/-- The built-in file, by what its lines hold. -/
def defaultWritten : List WrittenLine := [
  .comment "# Orderly default configuration",
  .comment "#",
  .comment "# Override any of these in ~/.config/orderly/config.toml, ./orderly.toml,",
  .comment "# a file passed with --config, or ORDERLY_<SECTION>__<KEY> environment variables.",
  .blank,
  .header "parallel",
  .comment "# Worker threads to start (0 = choose automatically)",
  .pair "threads" (.number 0),
  .comment "# Cap on the automatically chosen thread count",
  .pair "max_threads" (.number 12),
  .comment "# Memory assumed per worker when choosing automatically (MiB)",
  .pair "memory_per_thread_mb" (.number 650),
  .blank,
  .header "session",
  .comment "# Emit trace events when sessions open and close",
  .pair "trace" (.flag false),
  .comment "# Log per-item progress at info level",
  .pair "verbose" (.flag false),
  .blank,
  .header "run",
  .comment "# Shell used to run command templates",
  .pair "shell" (.text "sh".toList),
  .comment "# Replaced by the item text in command templates",
  .pair "placeholder" (.text "\x7b\x7d".toList)]

theorem flatMap_defaultWritten : defaultWritten.flatMap WrittenLine.text = defaultText := by
  have hlines : defaultWritten.map WrittenLine.text
      = defaultLines.map fun line => line.toList ++ ['\n'] := by
    simp only [defaultWritten, defaultLines, List.map_cons, List.map_nil]
    rfl
  rw [defaultText, List.flatMap_def, List.flatMap_def, hlines]

/-- **The built-in file says what holds where nothing is said.** -/
theorem read?_defaultText : read? defaultText = some (toDoc {}) := by
  have hreads : ∀ w ∈ defaultWritten, w.Reads := by
    simp (disch := decide) only [defaultWritten, List.forall_mem_cons, List.not_mem_nil,
      false_implies, implies_true, and_true, WrittenLine.reads_blank, WrittenLine.reads_comment,
      WrittenLine.reads_header, WrittenLine.reads_pair]
  have hmark : skipMark defaultText = defaultText := rfl
  rw [read?, hmark, ← flatMap_defaultWritten]
  simp only [lines?_flatMap hreads, Option.bind_eq_bind, Option.bind_some]
  rfl

end OrderedDispatch.Config.Toml
