/-
**Shown JSON is read back.**

Settings shown in JSON are a table of tables, indented and with a line for each entry.  A reader of
JSON takes the entries one by one: a key, a value, and the comma or the brace after it.  Numbers
below the size of a word keep their value exactly; texts are escaped character by character, and
each escape is read as the character it stands for.

Main results:

* `Config.Json.string?_jsonChars` — an escaped text is read as the text;
* `Config.Json.value?_shown` — a shown value is read as the value;
* `Config.Json.entries?_lines` — a table with a line for each entry is read entry by entry;
* `Config.Json.read?_render` — **shown settings are read back**.
-/

import Mathlib.Data.List.DropRight
import Mathlib.Tactic.SplitIfs
import OrderedDispatch.Proofs.Config.Shown.Basic

set_option relaxedAutoImplicit false
set_option autoImplicit false

namespace OrderedDispatch.Config.Json

open Render

variable {rest : List Char}

/-! ### Texts -/

/-- A character is read as itself, escaped or not. -/
theorem string?_jsonChar (c : Char) (steps : Nat) (acc rest : List Char) :
    string? (steps + 1) acc (jsonChar c ++ rest) = string? steps (c :: acc) rest := by
  unfold jsonChar
  split_ifs with hquote hbackslash hbackspace hfeed hline hreturn htab hcontrol
  · simp [hquote, string?, escape?]
  · simp [hbackslash, string?, escape?]
  · simp [hbackspace, string?, escape?]
  · simp [hfeed, string?, escape?]
  · simp [hline, string?, escape?]
  · simp [hreturn, string?, escape?]
  · simp [htab, string?, escape?]
  · have hhex := hexNumber?_hexTail (Or.inl hcontrol) rest
    have hlow : c.toNat < 0xD800 := by omega
    simp [string?, unicode?, hhex, hlow]
  · rw [List.singleton_append, string?]
    · rw [if_neg hcontrol]
    all_goals simp_all

/-- An escaped text is read as the text. -/
theorem string?_jsonChars (s : List Char) (steps : Nat) (hsteps : s.length < steps)
    (acc rest : List Char) :
    string? steps acc (s.flatMap jsonChar ++ '"' :: rest) = some (acc.reverse ++ s, rest) :=
  read_flatMap (fun _ _ _ => by simp [string?]) string?_jsonChar s steps hsteps acc rest

theorem jsonChar_ne_nil (c : Char) : jsonChar c ≠ [] := by
  rw [jsonChar]
  repeat' split
  all_goals simp

/-! ### Numbers -/

/-- A number is followed by the end of its line, with or without a comma. -/
def EndsValue (rest : List Char) : Prop := ∃ c s, rest = c :: s ∧ (c = ',' ∨ c = '\n')

theorem foldl_pushWhole {s : List Char} {acc : Nat}
    (h : Nat.ofDigitChars 10 s acc < Text.wordSize) :
    s.foldl Digits.pushWhole ⟨acc, 0, false⟩ = ⟨Nat.ofDigitChars 10 s acc, 0, false⟩ := by
  induction s generalizing acc with
  | nil => rfl
  | cons c s ih =>
      rw [Nat.ofDigitChars_cons, Nat.mul_comm] at h
      have hle := Text.le_ofDigitChars s (acc * 10 + (c.toNat - '0'.toNat))
      have hpush : Digits.pushWhole ⟨acc, 0, false⟩ c
          = ⟨acc * 10 + (c.toNat - '0'.toNat), 0, false⟩ := by
        simp only [Digits.pushWhole, Bool.false_or, decide_eq_true_eq]
        rw [if_neg (by omega)]
      rw [List.foldl_cons, hpush, ih h, Nat.ofDigitChars_cons, Nat.mul_comm]

theorem EndsValue.notDigit (h : EndsValue rest) :
    ∃ c s, rest = c :: s ∧ Text.isDigit c = false := by
  obtain ⟨c, s, rfl, rfl | rfl⟩ := h
  · exact ⟨_, _, rfl, rfl⟩
  · exact ⟨_, _, rfl, rfl⟩

theorem whole?_toDigits (n : Nat) (hrest : EndsValue rest) :
    whole? (Nat.toDigits 10 n ++ rest) = some (Nat.toDigits 10 n, rest) := by
  obtain ⟨d, tail, rfl, hd⟩ := hrest.notDigit
  obtain ⟨-, hzero⟩ | ⟨c, s, hs, hc⟩ := Text.toDigits_cases n
  · simp [hzero, whole?, hd]
  · have hspan := spanWhile_cons_of_not (s := Nat.toDigits 10 n)
      (fun c hc => Text.isDigit_of_mem_toDigits hc) hd tail
    rw [hs] at hspan ⊢
    rw [List.cons_append, whole?]
    · rw [← List.cons_append, hspan]
      simp
    · simp [hc]

theorem fraction?_of_endsValue (d : Digits) (hrest : EndsValue rest) :
    fraction? d rest = some ((d, false), rest) := by
  obtain ⟨c, s, rfl, rfl | rfl⟩ := hrest
  · simp [fraction?]
  · simp [fraction?]

/-- A number without sign, places and exponent. -/
theorem number?_of_whole {c : Char} {s digits : List Char} {d : Digits} (hc : c ≠ '-')
    (hwhole : whole? (c :: s) = some (digits, rest))
    (hdigits : digits.foldl Digits.pushWhole ⟨0, 0, false⟩ = d)
    (hfraction : fraction? d rest = some ((d, false), rest)) :
    number? (c :: s) = (wholeNumber? false d).map fun value => (value, rest) := by
  unfold number?
  split
  rename_i hsign
  split at hsign
  · rename_i hminus
    exact absurd (List.cons.inj hminus).1 hc
  · cases hsign
    rw [hwhole]
    simp only [Option.bind_eq_bind, Option.bind_some, hdigits, hfraction, Bool.false_eq_true,
      if_false]
    cases wholeNumber? false d <;> rfl

theorem number?_toDigits {n : Nat} (hn : n < Text.wordSize) (hrest : EndsValue rest) :
    number? (Nat.toDigits 10 n ++ rest) = some (.int false n, rest) := by
  have hdigits : (Nat.toDigits 10 n).foldl Digits.pushWhole ⟨0, 0, false⟩ = ⟨n, 0, false⟩ := by
    have hvalue : Nat.ofDigitChars 10 (Nat.toDigits 10 n) 0 = n :=
      Nat.ofDigitChars_toDigits (by decide) (by decide)
    rw [foldl_pushWhole (by rwa [hvalue]), hvalue]
  have hwhole := whole?_toDigits n hrest
  obtain ⟨c, s, hs, hc⟩ := Text.exists_toDigits n
  rw [hs] at hwhole hdigits ⊢
  exact number?_of_whole (Text.ne_of_isDigit hc (by decide)) hwhole hdigits
    (fraction?_of_endsValue _ hrest)

theorem value?_toDigits {n : Nat} (hn : n < Text.wordSize) (hrest : EndsValue rest) (depth : Nat) :
    value? depth (Nat.toDigits 10 n ++ rest) = some (.scalar (.int false n), rest) := by
  have hnumber := number?_toDigits hn hrest
  obtain ⟨c, s, hs, hc⟩ := Text.exists_toDigits n
  rw [hs] at hnumber ⊢
  rw [List.cons_append, value?]
  · rw [← List.cons_append, hnumber]
    rfl
  -- a digit begins no other kind of value
  all_goals
    intro rest' h
    obtain ⟨rfl, -⟩ := List.cons.inj h
    exact absurd hc (by decide)

/-- A shown value is read as the value. -/
theorem value?_shown {e : Shown} (he : e.Fits Text.wordSize) (hrest : EndsValue rest)
    (depth : Nat) : value? depth (e.render jsonText ++ rest) = some (e.toDoc false, rest) := by
  cases e with
  | number n => exact value?_toDigits he hrest depth
  | flag b =>
      cases b
      · have hword : (toString false).toList = "false".toList := rfl
        simp [Shown.render, Shown.toDoc, hword, value?]
      · have hword : (toString true).toList = "true".toList := rfl
        simp [Shown.render, Shown.toDoc, hword, value?]
  | text s =>
      have hlength := length_le_flatMap_escape jsonChar_ne_nil s
      have hstring := string?_jsonChars s ((s.flatMap jsonChar ++ '"' :: rest).length + 1)
        (by rw [List.length_append]; omega) [] rest
      rw [Shown.render, jsonText, List.cons_append, List.cons_append, List.append_assoc, value?]
      exact congrArg (Option.map _) hstring

/-! ### Tables -/

/-- So many blanks. -/
def blanks (n : Nat) : List Char := List.replicate n ' '

theorem isSpace_of_mem_blanks (n : Nat) : ∀ c ∈ blanks n, isSpace c = true := by
  intro c hc
  rw [List.eq_of_mem_replicate hc]
  rfl

/-- The lines of a table, one for each entry. -/
def linesText {α : Type} (indent : Nat) (text : α → List Char) (entries : List (String × α)) :
    List Char :=
  ",\n".toList.intercalate (entries.map fun e =>
    blanks indent ++ '"' :: e.1.toList ++ "\": ".toList ++ text e.2)

/-- A table with a line for each entry. -/
def tableText {α : Type} (indent closing : Nat) (text : α → List Char)
    (entries : List (String × α)) : List Char :=
  '\x7b' :: '\n' :: linesText indent text entries ++ '\n' :: blanks closing ++ ['\x7d']

/-- A text without white space at its front is read as a document wherever a line may end. -/
def Spells (value? : Reader Doc) (text : List Char) (d : Doc) : Prop :=
  ∀ rest, EndsValue rest → skipSpace (text ++ rest) = text ++ rest
    ∧ value? (text ++ rest) = some (d, rest)

theorem skipSpace_append {white : List Char} (h : ∀ c ∈ white, isSpace c = true) (s : List Char) :
    skipSpace (white ++ s) = skipSpace s := List.dropWhile_append_of_pos h

section Entries

variable {α : Type} {value? : Reader Doc} {text : α → List Char}
  {doc : α → Doc} {entries : List (String × α)}

/-- How the entries of a table go on after a value. -/
def afterValue (value? : Reader Doc) (steps : Nat) (acc : List (Key × Doc)) :
    Reader (List (Key × Doc)) := fun rest =>
  match skipSpace rest with
  | ',' :: rest => entries? value? steps acc rest
  | '\x7d' :: rest => some (acc, rest)
  | _ => none

/-- A line of a table is read up to what follows its value. -/
theorem entries?_line {key : List Char} {text : List Char} {d : Doc} {white rest : List Char}
    (hwhite : ∀ c ∈ white, isSpace c = true) (hkey : key.flatMap jsonChar = key)
    (hvalue : Spells value? text d) (hrest : EndsValue rest) (steps : Nat)
    (acc : List (Key × Doc)) :
    entries? value? (steps + 1) acc (white ++ '"' :: key ++ "\": ".toList ++ text ++ rest)
      = afterValue value? steps (Entries.put key d acc) rest := by
  have hfront : skipSpace (white ++ '"' :: key ++ "\": ".toList ++ text ++ rest)
      = '"' :: (key ++ '"' :: ':' :: ' ' :: (text ++ rest)) := by
    simp only [List.append_assoc, skipSpace_append hwhite]
    rfl
  have hstring := string?_jsonChars key ((key ++ '"' :: ':' :: ' ' :: (text ++ rest)).length + 1)
    (by rw [List.length_append]; omega) [] (':' :: ' ' :: (text ++ rest))
  rw [hkey] at hstring
  obtain ⟨hspace, hread⟩ := hvalue rest hrest
  have hcolon : skipSpace (':' :: ' ' :: (text ++ rest)) = ':' :: ' ' :: (text ++ rest) := rfl
  have hblank : skipSpace (' ' :: (text ++ rest)) = text ++ rest := hspace
  rw [entries?, hfront]
  simp only [hstring, Option.bind_eq_bind, Option.bind_some, hcolon, hblank, hread,
    List.reverse_nil, List.nil_append]
  rfl

/-- A table with a line for each entry is read entry by entry, whatever white space comes first. -/
theorem entries?_lines (indent closing : Nat) (hne : entries ≠ [])
    (hkeys : ∀ e ∈ entries, e.1.toList.flatMap jsonChar = e.1.toList)
    (hvalues : ∀ e ∈ entries, Spells value? (text e.2) (doc e.2)) (steps : Nat)
    (hsteps : entries.length ≤ steps) (acc : List (Key × Doc)) (white rest : List Char)
    (hwhite : ∀ c ∈ white, isSpace c = true) :
    entries? value? steps acc (white ++ linesText indent text entries
        ++ '\n' :: blanks closing ++ '\x7d' :: rest)
      = some (entries.foldl (fun es e => Entries.put e.1.toList (doc e.2) es) acc, rest) := by
  induction entries generalizing steps acc white with
  | nil => exact absurd rfl hne
  | cons e entries ih =>
      obtain ⟨steps, rfl⟩ := Nat.exists_eq_add_one_of_ne_zero (Nat.ne_zero_of_lt hsteps)
      obtain ⟨hkey, hkeys⟩ := List.forall_mem_cons.1 hkeys
      obtain ⟨hvalue, hvalues⟩ := List.forall_mem_cons.1 hvalues
      have hfront : ∀ c ∈ white ++ blanks indent, isSpace c = true :=
        List.forall_mem_append.2 ⟨hwhite, isSpace_of_mem_blanks indent⟩
      have hline := fun rest (hrest : EndsValue rest) =>
        entries?_line hfront hkey hvalue hrest steps acc
      cases entries with
      | nil =>
          have hclose : skipSpace ('\n' :: blanks closing ++ '\x7d' :: rest) = '\x7d' :: rest := by
            rw [skipSpace_append (List.forall_mem_cons.2 ⟨rfl, isSpace_of_mem_blanks closing⟩)]
            rfl
          have hlast := hline ('\n' :: blanks closing ++ '\x7d' :: rest)
            ⟨'\n', _, rfl, Or.inr rfl⟩
          rw [afterValue, hclose] at hlast
          simpa [linesText] using hlast
      | cons e' entries =>
          have hmore := ih (List.cons_ne_nil _ _) hkeys hvalues steps (by simpa using hsteps)
            (Entries.put e.1.toList (doc e.2) acc) ['\n'] (by simp [isSpace])
          have hnext := hline (',' :: '\n' :: (linesText indent text (e' :: entries)
            ++ '\n' :: blanks closing ++ '\x7d' :: rest)) ⟨',', _, rfl, Or.inl rfl⟩
          rw [List.foldl_cons, ← hmore]
          refine Eq.trans (congrArg (entries? value? (steps + 1) acc) ?_) hnext
          simp [linesText]

/-- There are at least as many quotes in a table as entries. -/
theorem length_le_count_quote (indent : Nat) (text : α → List Char)
    (entries : List (String × α)) :
    entries.length ≤ (linesText indent text entries).count '"' := by
  rw [linesText]
  induction entries with
  | nil => exact Nat.zero_le _
  | cons e entries ih =>
      cases entries with
      | nil =>
          simp
          omega
      | cons e' entries =>
          rw [List.map_cons, List.map_cons, List.intercalate_cons_cons, List.length_cons]
          simp only [List.count_append, List.count_cons_self]
          rw [List.map_cons] at ih
          omega

theorem count_skipSpace (s : List Char) : (skipSpace s).count '"' = s.count '"' := by
  induction s with
  | nil => rfl
  | cons c s ih =>
      rw [skipSpace, List.dropWhile_cons]
      split
      · rename_i hspace
        have hc : c ≠ '"' := by
          rintro rfl
          exact absurd hspace (by decide)
        rw [List.count_cons_of_ne hc, ← ih, skipSpace]
      · rfl

theorem entries?_skipSpace (steps : Nat) (acc : List (Key × Doc)) (s : List Char) :
    entries? value? (steps + 1) acc (skipSpace s) = entries? value? (steps + 1) acc s := by
  have hidem : skipSpace (skipSpace s) = skipSpace s := List.dropWhile_idempotent ..
  rw [entries?, entries?, hidem]

/-- A table is read as the table of its entries, in the order of their keys. -/
theorem value?_tableText (indent closing : Nat) (text : α → List Char) (doc : α → Doc)
    (hne : entries ≠ []) {depth : Nat}
    (hkeys : ∀ e ∈ entries, e.1.toList.flatMap jsonChar = e.1.toList)
    (hvalues : ∀ e ∈ entries, Spells (Json.value? depth) (text e.2) (doc e.2)) (rest : List Char) :
    Json.value? (depth + 1) (tableText indent closing text entries ++ rest)
      = some (.table (tableOf doc entries), rest) := by
  have hread := fun steps hsteps => entries?_lines indent closing hne hkeys hvalues
    (steps + 1) hsteps [] ['\n'] rest (by simp [isSpace])
  have htext : tableText indent closing text entries ++ rest = '\x7b' :: (['\n']
      ++ linesText indent text entries ++ '\n' :: blanks closing ++ '\x7d' :: rest) := by
    simp [tableText]
  have hquotes := length_le_count_quote indent text entries
  rw [htext]
  generalize hs : ['\n'] ++ linesText indent text entries
    ++ '\n' :: blanks closing ++ '\x7d' :: rest = s at hread
  have hsteps : entries.length ≤ (skipSpace s).length + 1 := by
    have hcount : entries.length ≤ s.count '"' := by
      rw [← hs]
      simp only [List.count_append]
      omega
    have hlength : (skipSpace s).count '"' ≤ (skipSpace s).length := List.count_le_length
    rw [count_skipSpace] at hlength
    omega
  have hentries := hread (skipSpace s).length hsteps
  rw [← entries?_skipSpace] at hentries
  -- what begins with an entry is no empty table
  have hnot : ∀ r, skipSpace s ≠ '\x7d' :: r := by
    intro r hr
    rw [hr] at hentries
    simp [entries?, skipSpace, isSpace] at hentries
  rw [value?]
  split
  · rename_i r hr
    exact absurd hr (hnot r)
  · rw [hentries]
    rfl

end Entries

/-! ### All settings -/

/-- The settings are shown as a table of tables. -/
theorem render_json (c : Config) :
    render c .json = tableText 2 0 (tableText 4 2 (Shown.render jsonText)) (shown c) := by
  have hsection : jsonSection = fun es => "  \"".toList ++ es.1.toList ++ "\": ".toList
      ++ tableText 4 2 (Shown.render jsonText) es.2 := by
    funext es
    simp [jsonSection, tableText, linesText, blanks, List.replicate]
  simp [render, tableText, linesText, blanks, List.replicate, hsection]

/-- A name needs no escapes. -/
theorem jsonChars_of_isName {s : String} (h : isName s = true) :
    s.toList.flatMap jsonChar = s.toList := by
  have hchar : ∀ c ∈ s.toList, jsonChar c = [c] := by
    intro c hc
    have hbare : Toml.isBare c = true := List.all_eq_true.1 (Bool.and_eq_true_iff.1 h).2 c hc
    have hne : ∀ d, Toml.isBare d = false → c ≠ d := fun d hd => ne_of_isBare hbare hd
    rw [jsonChar, if_neg (hne _ (by decide)), if_neg (hne _ (by decide)),
      if_neg (hne _ (by decide)), if_neg (hne _ (by decide)), if_neg (hne _ (by decide)),
      if_neg (hne _ (by decide)), if_neg (hne _ (by decide)), if_neg (not_lt_of_isBare hbare)]
  rw [List.flatMap_congr hchar]
  exact List.flatMap_singleton' _

theorem spells_shown {e : Shown} (he : e.Fits Text.wordSize) (depth : Nat) :
    Spells (value? depth) (e.render jsonText) (e.toDoc false) := by
  intro rest hrest
  refine ⟨?_, value?_shown he hrest depth⟩
  cases e with
  | number n =>
      obtain ⟨c, s, hs, hc⟩ := Text.exists_toDigits n
      have hne : ∀ d, Text.isDigit d = false → c ≠ d := fun d hd => Text.ne_of_isDigit hc hd
      have hspace : isSpace c = false := by
        simp [isSpace, hne ' ' (by decide), hne '\n' (by decide), hne '\t' (by decide),
          hne '\r' (by decide)]
      rw [Shown.render, hs, List.cons_append, skipSpace,
        List.dropWhile_cons_of_neg (by simp [hspace])]
  | flag b => cases b <;> rfl
  | text s => rfl

/-- **Shown settings are read back.** -/
theorem read?_render {c : Config} (h : ∀ es ∈ shown c, ∀ e ∈ es.2, e.2.Fits Text.wordSize) :
    read? (render c .json) = some (shownDoc false c) := by
  have hsections : ∀ es ∈ shown c, Spells (value? 126)
      (tableText 4 2 (Shown.render jsonText) es.2) (.table (tableOf (Shown.toDoc false) es.2)) := by
    intro es hes rest hrest
    obtain ⟨-, hne, hnames⟩ := isName_of_mem_shown hes
    refine ⟨rfl, value?_tableText 4 2 (Shown.render jsonText) (Shown.toDoc false) hne
      (fun e he => ?_) (fun e he => ?_) rest⟩
    · exact jsonChars_of_isName (hnames e he)
    · exact spells_shown (h es hes e he) _
  have hne : shown c ≠ [] := List.cons_ne_nil _ _
  have hdocument : value? 127 (render c .json ++ []) = some (shownDoc false c, []) := by
    rw [render_json]
    exact value?_tableText 2 0 _ (fun es => .table (tableOf (Shown.toDoc false) es)) hne
      (fun es hes => jsonChars_of_isName (isName_of_mem_shown hes).1) hsections []
  rw [List.append_nil] at hdocument
  have hfront : skipSpace (render c .json) = render c .json := rfl
  rw [read?, hfront, maxDepth, hdocument]
  rfl

end OrderedDispatch.Config.Json
