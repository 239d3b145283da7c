/-
**What the text of a variable stands for.**

The text of a variable is guessed at: it may be taken for a truth value, a number, a list, a table
or a quoted text, and it loses the blanks around it.  So a variable does not always stand for the
text that it has.  It does exactly if the guess fails, because something is left over after a value
or a bracket is never closed, or if there is nothing to guess: no bracket, no comma, no quote in
front, no blank at either end, no truth value and no number.

Still every text can be spelt.  Between double quotes, with escapes for quotes, backslashes and
control characters, it stands for itself.

Main definitions:

* `Config.Doc.text?` — the text that a document is, if it is one;
* `Config.Environment.IsLiteral` — a text in which there is nothing to guess;
* `Config.Environment.quote` — a text between double quotes.

Main results:

* `Config.Environment.length_lt_of_quoted?` — a quoted text is shorter than its spelling;
* `Config.Environment.value_eq_ofText_self_iff` — **the texts that stand for themselves**;
* `Config.Environment.value_quote` — **every text can be spelt**.
-/

import Mathlib.Data.List.TakeWhile
import Mathlib.Tactic.SplitIfs
import OrderedDispatch.Proofs.Config.Shown.Basic

set_option relaxedAutoImplicit false
set_option autoImplicit false

namespace OrderedDispatch.Config

/-- The text that a document is, if it is one. -/
def Doc.text? : Doc → Option (List Char)
  | .scalar (.text s) => some s
  | _ => none

theorem Doc.text?_ofText (s : List Char) : (Doc.ofText s).text? = some s := rfl

theorem Doc.eq_ofText_iff {d : Doc} {s : List Char} : d = .ofText s ↔ d.text? = some s := by
  constructor
  · rintro rfl
    rfl
  · intro h
    unfold text? at h
    split at h
    · rw [Option.some.inj h, ofText]
    · cases h

namespace Environment

variable {s t rest : List Char}

/-! ### Quoted texts -/

/-- A character between double quotes. -/
def quoteChar (c : Char) : List Char :=
  if c = '"' ∨ c = '\\' then ['\\', c]
  else if isQuotable c then [c]
  else '\\' :: 'u' :: Render.hexTail 4 c.toNat

/-- A text between double quotes. -/
def quote (s : List Char) : List Char := '"' :: s.flatMap quoteChar ++ ['"']

/-- A character is read as itself, escaped or not. -/
theorem quoted?_quoteChar (c : Char) (steps : Nat) (acc rest : List Char) :
    quoted? (steps + 1) acc (quoteChar c ++ rest) = quoted? steps (c :: acc) rest := by
  unfold quoteChar
  split_ifs with hspecial hquotable
  · obtain rfl | rfl := hspecial
    · simp [quoted?, escape?, escapeLetter?]
    · simp [quoted?, escape?, escapeLetter?]
  · rw [not_or] at hspecial
    rw [List.singleton_append, quoted?]
    · rw [if_pos hquotable]
    · simpa using hspecial.1
    · simpa using hspecial.2
  · have hcontrol : c.toNat < 0x20 ∨ c.toNat = 0x7F := by
      simp only [isQuotable, Bool.or_eq_true, Bool.and_eq_true, decide_eq_true_eq] at hquotable
      omega
    have hscalar : isScalarCode c.toNat = true := by
      simp only [isScalarCode, Bool.or_eq_true, Bool.and_eq_true, decide_eq_true_eq]
      omega
    simp [quoted?, escape?, hexCode?, hexNumber?_hexTail hcontrol, hscalar]

theorem quoteChar_ne_nil (c : Char) : quoteChar c ≠ [] := by
  rw [quoteChar]
  repeat' split
  all_goals simp

/-- **Every text can be spelt.** -/
theorem value_quote (s : List Char) : value (quote s) = .ofText s := by
  have hlength := length_le_flatMap_escape quoteChar_ne_nil s
  have hread := read_flatMap (fun _ _ _ => by simp [quoted?]) quoted?_quoteChar s
    ((s.flatMap quoteChar ++ ['"']).length + 1) (by rw [List.length_append]; omega) [] []
  have hvalue : value? ((quote s).length + 1) (quote s) = some (.ofText s, []) :=
    congrArg (Option.map fun r : List Char × List Char => (Doc.ofText r.1, skipSpace r.2)) hread
  rw [value, whole?, hvalue]
  rfl

theorem length_lt_of_hexCode? {count : Nat} (hcount : 0 < count) {c : Char}
    (h : hexCode? count s = some (c, rest)) : rest.length < s.length := by
  simp only [hexCode?, Option.bind_eq_bind, Option.bind_eq_some_iff, Prod.exists] at h
  obtain ⟨n, rest', hnumber, hscalar⟩ := h
  obtain ⟨-, -, hrest⟩ : _ ∧ _ ∧ rest' = rest := by simpa using hscalar
  rw [hexNumber?] at hnumber
  split_ifs at hnumber with hlength
  obtain ⟨_, -, hread⟩ := Option.map_eq_some_iff.1 hnumber
  rw [List.length_take] at hlength
  rw [← hrest, ← (Prod.mk.inj hread).2, List.length_drop]
  omega

/-- An escape takes up some of the text. -/
theorem length_lt_of_escape? {c : Char} (h : escape? s = some (c, rest)) :
    rest.length < s.length := by
  unfold escape? at h
  split at h
  · exact Nat.lt_succ_of_lt (length_lt_of_hexCode? (by decide) h)
  · exact Nat.lt_succ_of_lt (length_lt_of_hexCode? (by decide) h)
  · obtain ⟨d, -, hd⟩ := Option.map_eq_some_iff.1 h
    obtain ⟨-, rfl⟩ := Prod.mk.inj hd
    exact Nat.lt_succ_self _
  · cases h

/-- A quoted text is shorter than its spelling. -/
theorem length_lt_of_quoted? {steps : Nat} {acc : List Char}
    (h : quoted? steps acc s = some (t, rest)) : t.length < acc.length + s.length := by
  fun_induction quoted? steps acc s with
  | case1 => cases h
  | case2 steps acc s =>
      obtain ⟨rfl, -⟩ := Prod.mk.inj (Option.some.inj h)
      simp
  | case3 steps acc s ih =>
      obtain ⟨⟨c, s'⟩, hescape, hmore⟩ := Option.bind_eq_some_iff.1 h
      have hlonger := length_lt_of_escape? hescape
      have hshorter := ih c s' hmore
      simp only [List.length_cons] at hshorter ⊢
      omega
  | case4 steps acc c s hquote hbackslash hquotable ih =>
      have hshorter := ih h
      simp only [List.length_cons] at hshorter ⊢
      omega
  | case5 => cases h
  | case6 => cases h

/-! ### Blanks -/

/-- White space around a value is blank. -/
theorem isBlank_of_isSpace {c : Char} (h : isSpace c = true) : Text.isBlank c = true := by
  simp only [isSpace, Bool.or_eq_true, decide_eq_true_eq] at h
  obtain (((rfl | rfl) | rfl) | rfl) | rfl := h <;> decide

theorem trim_skipSpace (s : List Char) : Text.trim (skipSpace s) = Text.trim s := by
  have hstart : Text.trimStart (skipSpace s) = Text.trimStart s := by
    induction s with
    | nil => rfl
    | cons c s ih =>
        by_cases h : isSpace c = true
        · rw [skipSpace, List.dropWhile_cons_of_pos h, Text.trimStart_cons (isBlank_of_isSpace h)]
          exact ih
        · rw [skipSpace, List.dropWhile_cons_of_neg h]
  rw [Text.trim, hstart, Text.trim]

/-- There are no blanks at the ends of a text with nothing to trim. -/
theorem ends_of_trim (h : Text.trim s = s) : Text.trimStart s = s ∧ Text.trimEnd s = s := by
  have hstart : Text.trimStart s <:+ s := List.dropWhile_suffix _
  have hend : ∀ t, Text.trimEnd t <+: t := fun t =>
    List.reverse_suffix.1 (by simpa [Text.trimEnd] using List.dropWhile_suffix Text.isBlank)
  have hlength := (hend (Text.trimStart s)).length_le
  rw [← Text.trim, h] at hlength
  have hsame := hstart.eq_of_length_le hlength
  refine ⟨hsame, ?_⟩
  rwa [Text.trim, hsame] at h

theorem skipSpace_of_trim (h : Text.trim s = s) : skipSpace s = s := by
  cases s with
  | nil => rfl
  | cons c s =>
      refine List.dropWhile_cons_of_neg fun hspace => ?_
      have hstart := (ends_of_trim h).1
      rw [Text.trimStart_cons (isBlank_of_isSpace hspace)] at hstart
      have hlength := (List.dropWhile_suffix (l := s) Text.isBlank).length_le
      rw [← Text.trimStart, hstart, List.length_cons] at hlength
      omega

/-- A text with nothing to trim does not end in white space. -/
theorem eq_nil_of_skipSpace (h : Text.trim (s ++ t) = s ++ t) (ht : skipSpace t = []) :
    t = [] := by
  have hblank : ∀ c ∈ t.reverse, Text.isBlank c = true := fun c hc =>
    isBlank_of_isSpace (List.dropWhile_eq_nil_iff.1 ht c (List.mem_reverse.1 hc))
  have hend := (ends_of_trim h).2
  rw [Text.trimEnd, List.reverse_append, List.dropWhile_append_of_pos hblank] at hend
  have hlength := (List.dropWhile_suffix (l := s.reverse) Text.isBlank).length_le
  have hsame := congrArg List.length hend
  simp only [List.length_reverse, List.length_append] at hlength hsame
  exact List.eq_nil_of_length_eq_zero (by omega)

/-! ### Texts that stand for themselves -/

/-- A text in which there is nothing to guess. -/
structure IsLiteral (s : List Char) : Prop where
  /-- no blank at either end -/
  trimmed : Text.trim s = s
  /-- no bracket and no comma -/
  unbroken : ∀ c ∈ s, isSeparator c = false
  /-- no quote in front -/
  unquoted : s.head? ≠ some '"' ∧ s.head? ≠ some '\''
  /-- no truth value -/
  untrue : s ≠ "true".toList ∧ s ≠ "false".toList
  /-- no number -/
  wordy : plain s = .text s

/-- A plain text that is no number is the text. -/
theorem eq_of_plain (h : plain s = .text t) : s = t := by
  unfold plain at h
  repeat' split at h
  · cases h
  · cases h
  · cases h
  · exact Scalar.text.inj h

/-- A text that a value with the same text can be read from has nothing to guess in it. -/
theorem isLiteral_of_value? {depth : Nat} (h : value? depth s = some (.ofText s, [])) :
    IsLiteral s := by
  cases depth with
  | zero => cases h
  | succ depth =>
      have hshorter : (skipSpace s).length ≤ s.length :=
        (List.dropWhile_suffix isSpace).length_le
      rw [value?] at h
      -- truth values, tables and lists are no texts
      split at h
      · cases h
      · cases h
      · obtain ⟨r, -, hr⟩ := Option.map_eq_some_iff.1 h
        cases (Prod.mk.inj hr).1
      · obtain ⟨r, -, hr⟩ := Option.map_eq_some_iff.1 h
        cases (Prod.mk.inj hr).1
      · -- a text between quotes is too short to be the text with the quotes
        rename_i body hopen
        obtain ⟨⟨t, rest⟩, hquoted, hr⟩ := Option.map_eq_some_iff.1 h
        have hlength := length_lt_of_quoted? hquoted
        obtain rfl : t = s := by simpa [Doc.ofText] using (Prod.mk.inj hr).1
        rw [hopen, List.length_cons] at hshorter
        simp at hlength
        omega
      · rename_i body hopen
        split at h
        · obtain rfl : [_] = s := by simpa [Doc.ofText] using (Prod.mk.inj (Option.some.inj h)).1
          rw [hopen] at hshorter
          simp at hshorter
        · cases h
      · -- what is left is taken for a number, or else for itself without the blanks around it
        rename_i htrue hfalse htable hlist hquoted hchar
        obtain ⟨hplain, hrest⟩ := Prod.mk.inj (Option.some.inj h)
        have hinside : ∀ c ∈ skipSpace s, isSeparator c = false := by
          simpa using List.dropWhile_eq_nil_iff.1 hrest
        rw [List.takeWhile_eq_self_iff.2 (by simpa using hinside), trim_skipSpace] at hplain
        have hwordy : plain (Text.trim s) = .text s := Doc.scalar.inj hplain
        have htrimmed := eq_of_plain hwordy
        rw [htrimmed] at hwordy
        rw [skipSpace_of_trim htrimmed] at htrue hfalse hquoted hchar hinside
        refine ⟨htrimmed, hinside, ⟨?_, ?_⟩, ⟨htrue [], hfalse []⟩, hwordy⟩
        · intro hhead
          obtain ⟨t, ht⟩ := List.head?_eq_some_iff.1 hhead
          exact hquoted t ht
        · intro hhead
          obtain ⟨t, ht⟩ := List.head?_eq_some_iff.1 hhead
          exact hchar t ht

/-- A text with nothing to guess in it stands for itself. -/
theorem IsLiteral.value_eq (h : IsLiteral s) : value s = .ofText s := by
  have hbroken {c : Char} {t : List Char} (hs : s = c :: t) : isSeparator c = false :=
    h.unbroken c (by simp [hs])
  -- a truth value with more after it is no value
  have hmore {word t : List Char} {d : Doc} (hs : s = word ++ t) (hword : s ≠ word)
      (hvalue : value? (s.length + 1) s = some (d, skipSpace t)) : value s = .ofText s := by
    refine value_of_error ?_
    have hleft : skipSpace t ≠ [] := by
      intro hnone
      have := eq_nil_of_skipSpace (hs ▸ h.trimmed) hnone
      rw [this, List.append_nil] at hs
      exact hword hs
    rw [whole?, hvalue]
    simp [hleft]
  have hspace := skipSpace_of_trim h.trimmed
  have hvalue := value?.eq_2 s s.length
  rw [hspace] at hvalue
  split at hvalue
  · exact hmore rfl h.untrue.1 hvalue
  · exact hmore rfl h.untrue.2 hvalue
  · cases hbroken rfl
  · cases hbroken rfl
  · exact absurd rfl h.unquoted.1
  · exact absurd rfl h.unquoted.2
  · rw [spanWhile, List.takeWhile_eq_self_iff.2 (by simpa using h.unbroken),
      List.dropWhile_eq_nil_iff.2 (by simpa using h.unbroken)] at hvalue
    simp only [h.trimmed, h.wordy] at hvalue
    rw [value, whole?, hvalue]
    rfl

/-- **The texts that stand for themselves**. -/
theorem value_eq_ofText_self_iff (s : List Char) :
    value s = .ofText s ↔ whole? s = none ∨ IsLiteral s := by
  constructor
  · intro h
    cases hwhole : whole? s with
    | none => exact .inl rfl
    | some d =>
        obtain rfl : d = .ofText s := by simpa [value, hwhole] using h
        obtain ⟨⟨v, rest⟩, hvalue, hrest⟩ := Option.bind_eq_some_iff.1 hwhole
        obtain ⟨hempty, rfl⟩ : rest = [] ∧ v = .ofText s := by simpa using hrest
        exact .inr (isLiteral_of_value? (hempty ▸ hvalue))
  · rintro (hnone | hliteral)
    · exact value_of_error hnone
    · exact hliteral.value_eq

end Environment

end OrderedDispatch.Config
