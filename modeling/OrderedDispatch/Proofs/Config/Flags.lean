/-
**Flags mean the same on every path.**

A word for a flag, in any case and with any white space around it, comes to the settings in two
ways.  In a file it is a text.  As a variable it is guessed at first, by rules of its own that know
fewer blanks and fewer words: `true` is taken for a truth value, ` 1` for a number, and `true` with
a no-break space after it for a text that keeps the space.  Each of these is converted in its own
way, and all of them come to the same flag.

Main definitions:

* `Config.Knob.flag?`, `Config.flagWith` — the settings that are flags, and what they are;
* `Config.Tree.Passes` — a tree says nothing about some keys, and hides nothing either;
* `Config.PutInFile` — a text for a setting is put into a file of settings.

Main results:

* `Flag.isAlphanumeric_of_parse` — a word for a flag has nothing but letters and digits;
* `Config.Environment.value_of_parse` — what the word is taken for as a variable;
* `Config.flag?_value` — whatever it is taken for, it is converted to the flag;
* `Config.Tree.Differs.under` — a value stays in place below layers that say nothing about it;
* `Config.load_flag` — **a flag means the same in a variable and in a file**.
-/

import OrderedDispatch.Proofs.Config.Override

set_option relaxedAutoImplicit false
set_option autoImplicit false

namespace OrderedDispatch

/-! ### White space -/

namespace Text

variable {c : Char} {s t : List Char}

/-- An ASCII letter or digit. -/
def isAlphanumeric (c : Char) : Bool := isLetter c || isDigit c

theorem isBlank_of_isAlphanumeric (h : isAlphanumeric c = true) : isBlank c = false := by
  have hletter (a : Char) : a ≤ c ↔ a.toNat ≤ c.toNat := UInt32.le_iff_toNat_le
  have hletter' (a : Char) : c ≤ a ↔ c.toNat ≤ a.toNat := UInt32.le_iff_toNat_le
  simp only [isAlphanumeric, isLetter, isDigit, hletter, hletter', Bool.or_eq_true,
    Bool.and_eq_true, decide_eq_true_eq] at h
  simp [isBlank]
  simp at h
  omega

theorem forall_not_isBlank (h : s.all isAlphanumeric = true) : ∀ c ∈ s, isBlank c = false :=
  fun c hc => isBlank_of_isAlphanumeric (List.all_eq_true.1 h c hc)

/-- A character is alphanumeric if it is in lower case. -/
theorem isAlphanumeric_of_toLower (h : isAlphanumeric c.toLower = true) :
    isAlphanumeric c = true := by
  by_cases hcapital : 'A'.val ≤ c.val ∧ c.val ≤ 'Z'.val
  · have hletter : isLetter c = true := by
      simp only [isLetter, Bool.or_eq_true, Bool.and_eq_true, decide_eq_true_eq]
      exact .inr hcapital
    rw [isAlphanumeric, hletter, Bool.true_or]
  · have hsame : c.toLower = c := dif_neg hcapital
    rwa [hsame] at h

/-- A character is trimmed off only if it is blank. -/
theorem mem_trim_or_isBlank (h : c ∈ s) : c ∈ trim s ∨ isBlank c = true := by
  have hdrop {l : List Char} (hc : c ∈ l) : c ∈ l.dropWhile isBlank ∨ isBlank c = true := by
    rw [← List.takeWhile_append_dropWhile (p := isBlank) (l := l), List.mem_append] at hc
    exact hc.symm.imp_right fun htake => by simpa using List.mem_takeWhile_imp htake
  rcases hdrop h with hstart | hblank
  · rcases hdrop (List.mem_reverse.2 hstart) with hend | hblank
    · exact .inl (List.mem_reverse.2 hend)
    · exact .inr hblank
  · exact .inr hblank

/-- White space after a text with nothing to trim is trimmed off. -/
theorem trim_append_of_isBlank (hs : ∀ e ∈ s, isBlank e = false)
    (ht : ∀ e ∈ t, isBlank e = true) : trim (s ++ t) = s := by
  cases s with
  | nil => simp [trim, trimStart, trimEnd, List.dropWhile_eq_nil_iff.2 ht]
  | cons d s =>
      have hself := trim_eq_self hs
      have hd : isBlank d = false := hs d List.mem_cons_self
      rw [trim, trimStart_eq_self hd] at hself
      rw [trim, List.cons_append, trimStart_eq_self hd, trimEnd, ← List.cons_append,
        List.reverse_append, List.dropWhile_append_of_pos (by simpa using ht)]
      exact hself

end Text

/-! ### Words for flags -/

namespace Flag

variable {s : List Char} {b : Bool}

/-- The words for a flag. -/
def words (b : Bool) : List String := if b then trueWords else falseWords

theorem exists_word (h : parse s = some b) :
    ∃ w ∈ words b, (Text.trim s).map Char.toLower = w.toList := by
  obtain ⟨w, hw, hsame⟩ := List.any_eq_true.1 (parse_eq_some_iff.1 h)
  exact ⟨w, hw, of_decide_eq_true hsame⟩

/-- A word for a flag has nothing but letters and digits. -/
theorem isAlphanumeric_of_parse (h : parse s = some b) :
    ∀ c ∈ Text.trim s, Text.isAlphanumeric c = true := by
  obtain ⟨w, hw, hsame⟩ := exists_word h
  have hwords : ∀ b, ((words b).all fun w => w.toList.all Text.isAlphanumeric) = true := by decide
  intro c hc
  have hletters := List.all_eq_true.1 (List.all_eq_true.1 (hwords b) w hw)
  exact Text.isAlphanumeric_of_toLower (hletters _ (hsame ▸ List.mem_map_of_mem hc))

/-- What is read of a flag is trimmed. -/
theorem parse_trim (h : parse s = some b) : parse (Text.trim s) = some b := by
  have hvisible : ∀ c ∈ Text.trim s, Text.isBlank c = false := fun c hc =>
    Text.isBlank_of_isAlphanumeric (isAlphanumeric_of_parse h c hc)
  rw [parse_eq_some_iff, Text.trim_eq_self hvisible]
  exact parse_eq_some_iff.1 h

end Flag

namespace Config

/-! ### The value of a variable -/

namespace Environment

variable {s t : List Char} {b : Bool} {n : Nat}

theorem isDigit_of_natOfDigits? (h : Text.natOfDigits? 10 s = some n) :
    ∀ c ∈ s, Text.isDigit c = true := by
  have honto : ∀ acc, Text.digitsOnto? 10 acc s = some n → ∀ c ∈ s, Text.isDigit c = true := by
    clear h
    induction s with
    | nil => exact fun _ _ => nofun
    | cons d s ih =>
        intro acc hread
        obtain ⟨x, hx, hmore⟩ := Option.bind_eq_some_iff.1 hread
        refine List.forall_mem_cons.2 ⟨?_, ih _ hmore⟩
        by_contra hdigit
        simp only [Text.digitValue?, if_neg hdigit] at hx
        split_ifs at hx <;> omega
  rw [Text.natOfDigits?] at h
  split_ifs at h
  exact honto 0 h

theorem toLower_of_isDigit {c : Char} (h : Text.isDigit c = true) : c.toLower = c := by
  refine dif_neg fun hcapital => ?_
  have hdigit : c ≤ '9' := by
    simp only [Text.isDigit, Bool.and_eq_true, decide_eq_true_eq] at h
    exact h.2
  exact absurd (UInt32.le_trans hcapital.1 hdigit) (by decide)

/-- A word for a flag that looks like a number is one or zero. -/
theorem plain_of_parse (h : Flag.parse s = some b) :
    plain (Text.trim s) = .int false b.toNat ∨ plain (Text.trim s) = .text (Text.trim s) := by
  have hword := Flag.isAlphanumeric_of_parse h
  have hnone {d : Char} (hd : Text.isAlphanumeric d = false) : d ∉ Text.trim s := fun hmem => by
    rw [hword d hmem] at hd
    cases hd
  have hpoint : (Text.trim s).contains '.' = false := by
    simpa using hnone (d := '.') (by decide)
  have hnat : Text.readNat? (Text.trim s) = Text.natOfDigits? 10 (Text.trim s) := by
    unfold Text.readNat?
    split
    · rename_i hplus
      exact absurd (hplus ▸ List.mem_cons_self) (hnone (d := '+') (by decide))
    · rfl
  have hint : Text.readInt? (Text.trim s)
      = (Text.natOfDigits? 10 (Text.trim s)).map fun n => (n : Int) := by
    unfold Text.readInt?
    split
    · rename_i hminus
      exact absurd (hminus ▸ List.mem_cons_self) (hnone (d := '-') (by decide))
    · rename_i hplus
      exact absurd (hplus ▸ List.mem_cons_self) (hnone (d := '+') (by decide))
    · rfl
  rw [plain, hpoint, Text.readWord?, Text.readSignedWord?, hnat, hint]
  cases hdigits : Text.natOfDigits? 10 (Text.trim s) with
  | none => exact .inr rfl
  | some n =>
      -- digits have no case, so that the text is one of the words itself
      obtain ⟨w, hw, hsame⟩ := Flag.exists_word h
      have hlower : (Text.trim s).map Char.toLower = Text.trim s :=
        (List.map_congr_left fun c hc => toLower_of_isDigit
          (isDigit_of_natOfDigits? hdigits c hc)).trans (List.map_id _)
      rw [← hlower, hsame] at hdigits
      have hwords : ∀ b, ∀ w ∈ Flag.words b,
          (Text.natOfDigits? 10 w.toList).all (fun n => n = b.toNat) = true := by decide
      have hn : n = b.toNat := by simpa [hdigits] using hwords b w hw
      refine .inl ?_
      rw [hn]
      cases b <;> rfl

/-- In a word for a flag, what is no letter and no digit is white space. -/
theorem isAlphanumeric_or_isBlank_of_parse (h : Flag.parse s = some b) :
    ∀ c ∈ skipSpace s, Text.isAlphanumeric c = true ∨ Text.isBlank c = true := by
  intro c hc
  refine (Text.mem_trim_or_isBlank hc).imp_left fun hmem => ?_
  rw [trim_skipSpace s] at hmem
  exact Flag.isAlphanumeric_of_parse h c hmem

/-- A word for a flag begins with no mark. -/
theorem skipSpace_ne_cons_of_parse (h : Flag.parse s = some b) {d : Char}
    (hd : Text.isAlphanumeric d = false ∧ Text.isBlank d = false) (t : List Char) :
    skipSpace s ≠ d :: t := by
  intro hs
  rcases isAlphanumeric_or_isBlank_of_parse h d (hs ▸ List.mem_cons_self) with hletter | hblank
  · rw [hd.1] at hletter
    cases hletter
  · rw [hd.2] at hblank
    cases hblank

/-- Nothing in a word for a flag ends a plain value. -/
theorem not_isSeparator_of_parse (h : Flag.parse s = some b) :
    ∀ c ∈ skipSpace s, isSeparator c = false := by
  intro c hc
  refine Bool.eq_false_iff.2 fun hseparator => ?_
  simp only [isSeparator, Bool.or_eq_true, decide_eq_true_eq] at hseparator
  obtain (((rfl | rfl) | rfl) | rfl) | rfl := hseparator <;>
    exact (isAlphanumeric_or_isBlank_of_parse h _ hc).elim (by decide) (by decide)

/-- A word for a flag that begins with the name of a truth value is taken for it if only white space
follows, and for a text if something else does. -/
theorem value_of_truth (h : Flag.parse s = some b) {w t : List Char} {x : Bool}
    (hs : skipSpace s = w ++ t) (hw : w.all Text.isAlphanumeric = true)
    (hparse : Flag.parse w = some x)
    (hvalue : value? (s.length + 1) s = some (.scalar (.bool x), skipSpace t)) :
    value s = .scalar (.bool b) ∨ value s = .ofText s := by
  by_cases hrest : skipSpace t = []
  · refine .inl ?_
    have hblank : ∀ c ∈ t, Text.isBlank c = true := fun c hc =>
      isBlank_of_isSpace (List.dropWhile_eq_nil_iff.1 hrest c hc)
    have hsame : Text.trim s = w := by
      rw [← trim_skipSpace s, hs, Text.trim_append_of_isBlank (Text.forall_not_isBlank hw) hblank]
    have hb := Flag.parse_trim h
    rw [hsame, hparse] at hb
    rw [value, whole?, hvalue, hrest, Option.some.inj hb]
    rfl
  · refine .inr (value_of_error ?_)
    rw [whole?, hvalue]
    simp [hrest]

/-- A word for a flag is taken for a truth value, for one or zero, or for a text that is a word for
the same flag. -/
theorem value_of_parse (h : Flag.parse s = some b) : value s = .scalar (.bool b)
    ∨ value s = .scalar (.int false b.toNat)
    ∨ ∃ t, value s = .ofText t ∧ Flag.parse t = some b := by
  have hlifted (hvalue : value s = .scalar (.bool b) ∨ value s = .ofText s) :
      value s = .scalar (.bool b) ∨ value s = .scalar (.int false b.toNat)
        ∨ ∃ t, value s = .ofText t ∧ Flag.parse t = some b :=
    hvalue.imp_right fun htext => .inr ⟨s, htext, h⟩
  -- the cases are those of the guess by the front of the text; four of them are marks
  have hvalue := value?.eq_2 s s.length
  split at hvalue
  · rename_i t hs
    exact hlifted (value_of_truth (w := "true".toList) h hs rfl rfl hvalue)
  · rename_i t hs
    exact hlifted (value_of_truth (w := "false".toList) h hs rfl rfl hvalue)
  · rename_i hs
    exact absurd hs (skipSpace_ne_cons_of_parse h (by decide) _)
  · rename_i hs
    exact absurd hs (skipSpace_ne_cons_of_parse h (by decide) _)
  · rename_i hs
    exact absurd hs (skipSpace_ne_cons_of_parse h (by decide) _)
  · rename_i hs
    exact absurd hs (skipSpace_ne_cons_of_parse h (by decide) _)
  · have hinside := not_isSeparator_of_parse h
    rw [spanWhile, List.takeWhile_eq_self_iff.2 (by simpa using hinside),
      List.dropWhile_eq_nil_iff.2 (by simpa using hinside)] at hvalue
    simp only [trim_skipSpace s] at hvalue
    have hplain : value s = .scalar (plain (Text.trim s)) := by
      rw [value, whole?, hvalue]
      rfl
    rw [hplain]
    rcases plain_of_parse h with hnumber | htext
    · exact .inr (.inl (by rw [hnumber]))
    · exact .inr (.inr ⟨_, by rw [htext]; rfl, Flag.parse_trim h⟩)

end Environment

/-! ### Conversion -/

variable {v : List Char} {b : Bool} {c : Config} {k : Knob}

theorem flag?_ofText (h : Flag.parse v = some b) (o : Origin) :
    flag? (.ofDoc o (.ofText v)) = .ok b := by
  simp [flag?, Tree.ofDoc, Doc.ofText, Found.ofTree, flagOf, h]

/-- Whatever a word for a flag is taken for, it is converted to the flag. -/
theorem flag?_value (h : Flag.parse v = some b) (o : Origin) :
    flag? (.ofDoc o (Environment.value v)) = .ok b := by
  rcases Environment.value_of_parse h with hbool | hint | ⟨t, htext, ht⟩
  · rw [hbool]
    rfl
  · rw [hint]
    cases b <;> rfl
  · rw [htext, flag?_ofText ht]

/-- The settings that are flags. -/
def Knob.flag? : Knob → Config → Option Bool
  | trace, c => some c.session.trace
  | verbose, c => some c.session.verbose
  | _, _ => none

theorem Knob.flag?_of_converts (hk : k = .trace ∨ k = .verbose) {t : Tree}
    (ht : Config.flag? t = .ok b) (h : k.Converts t c) : k.flag? c = some b := by
  obtain rfl | rfl := hk
  · exact congrArg some (Except.ok.inj (h.symm.trans ht))
  · exact congrArg some (Except.ok.inj (h.symm.trans ht))

theorem Knob.accepts_of_flag? (hk : k = .trace ∨ k = .verbose) {t : Tree}
    (ht : Config.flag? t = .ok b) : k.accepts t = true := by
  have hflag : t.isFlag = true := by
    rw [← isOk_flag?, ht]
    rfl
  obtain rfl | rfl := hk
  · exact hflag
  · exact hflag

/-! ### Below other layers -/

namespace Tree

variable {t t' w : Tree} {q : List Key}

/-- A tree says nothing about what some keys lead to, and has only tables on the way. -/
def Passes (q : List Key) (t : Tree) : Prop := isOpenAt q t = true ∧ find? q t = none

/-- A tree has a plain value where some keys lead to, and is like another one apart from it. -/
structure Differs (q : List Key) (w t t' : Tree) : Prop where
  alike : ∀ p, Apart p q → find? p t' = find? p t
  isOpen : isOpenAt q t' = true
  found : find? q t' = some w

theorem isOpenAt_of_find? (h : find? q t = some w) : isOpenAt q t = true := by
  induction q generalizing t with
  | nil => rfl
  | cons k q ih =>
      cases t with
      | table o es =>
          obtain ⟨u, hu, hfind⟩ := Option.bind_eq_some_iff.1 h
          rw [isOpenAt, hu, Option.all_some]
          exact ih hfind
      | list o items => cases h
      | leaf o x => cases h

/-- A plain value that is placed in a layer makes the same difference over lower layers. -/
theorem Placed.differs (h : Placed q w t t') (hw : w.isTable = false) (low : Tree) :
    Differs q w (merge low t) (merge low t') := by
  obtain ⟨halike, -⟩ := h.over_low low
  have hfound : find? q (merge low t') = some w := find?_merge_of_high hw h.found
  exact ⟨halike, isOpenAt_of_find? hfound, hfound⟩

/-- The difference stays below layers that pass. -/
theorem Differs.under (h : Differs q w t t') {us : List Tree} (hus : ∀ u ∈ us, Passes q u) :
    Differs q w (us.foldl merge t) (us.foldl merge t') := by
  induction us generalizing t t' with
  | nil => exact h
  | cons u us ih =>
      obtain ⟨⟨hopen, hnone⟩, hus⟩ := List.forall_mem_cons.1 hus
      refine ih ⟨fun p hp => ?_, isOpenAt_merge h.isOpen hopen, ?_⟩ hus
      · exact @find?_overlay_congr (some t) (some t') (some u) (some u) q hopen hopen h.alike
          (fun _ _ => rfl) p hp
      · rw [find?_merge h.isOpen hopen, hnone, Option.elim_none, h.found]

end Tree

/-- Variables of other settings pass. -/
theorem passes_layOver {q : List Key} {vars : List Environment.Variable}
    (hvars : ∀ u ∈ vars, ∀ p ∈ Environment.path? u.name, Apart q p) {t : Tree} (ht : t.Passes q) :
    (Environment.layOver t vars).Passes q := by
  induction vars generalizing t with
  | nil => exact ht
  | cons u vars ih =>
      obtain ⟨hu, hvars⟩ := List.forall_mem_cons.1 hvars
      rw [Environment.layOver_cons]
      refine ih hvars ?_
      cases hpath : Environment.path? u.name with
      | none => exact ht
      | some p =>
          have hapart : Apart q p := hu p hpath
          refine ⟨Tree.isOpenAt_merge ht.1 (Tree.isOpenAt_nest_of_apart hapart), ?_⟩
          rw [Option.elim_some, Tree.find?_merge_nest hapart, ht.2]

/-! ### Loading -/

section Load

variable {s : Surroundings} {custom : Option (List Char)} {files' : FileTree}

/-- A text for a setting is put into a file of settings.  The file was there before and is like it
was apart from the text; all other files are as they were.  Neither a file above it nor a variable
says anything about the setting. -/
structure PutInFile (k : Knob) (v : List Char) (s : Surroundings) (files' : FileTree)
    (custom : Option (List Char)) (f : Location × Notation) : Prop where
  /-- a file that is asked for is still there -/
  asked : ∀ path ∈ custom, files'.isFile s.here (.ofText path) = true
  /-- the file is one of those that are looked at -/
  place : ∃ lower higher, settingsFiles s custom = lower ++ f :: higher
    ∧ (∀ g ∈ lower ++ higher, files'.search? s.here g.1 = s.files.search? s.here g.1)
    ∧ ∀ g ∈ higher, ∀ h ∈ s.files.search? s.here g.1, ∀ t ∈ (layerOf g.2 h).content,
      t.Passes k.path
  /-- the file holds the text now, whatever else it holds -/
  content : ∃ name before after d d', s.files.search? s.here f.1 = some ⟨name, before⟩
    ∧ files'.search? s.here f.1 = some ⟨name, after⟩
    ∧ parseBytes? f.2 before = some d ∧ parseBytes? f.2 after = some d'
    ∧ ∀ o, Tree.Placed k.path (.ofDoc o (.ofText v)) (.ofDoc o d) (.ofDoc o d')
  /-- no variable speaks of the setting -/
  silent : ∀ u ∈ s.environment, ∀ p ∈ Environment.path? u.name, Apart k.path p

/-- One layer holds the text now, and the layers above it pass. -/
theorem PutInFile.exists_layer {f : Location × Notation} (h : PutInFile k v s files' custom f) :
    ∃ low o d d' high, precedence s custom = low ++ Layer.ofDoc o d :: high
      ∧ precedence { s with files := files' } custom = low ++ Layer.ofDoc o d' :: high
      ∧ Tree.Placed k.path (.ofDoc o (.ofText v)) (.ofDoc o d) (.ofDoc o d')
      ∧ ∀ u ∈ high.filterMap Layer.content, u.Passes k.path := by
  obtain ⟨lower, higher, hfiles, hothers, hpass⟩ := h.place
  obtain ⟨name, before, after, d, d', hbefore, hafter, hd, hd', hplaced⟩ := h.content
  have hfiles' : settingsFiles { s with files := files' } custom = lower ++ f :: higher := by
    rw [← hfiles]
    cases custom <;> rfl
  have hsame {fs : List (Location × Notation)} (hfs : ∀ g ∈ fs, g ∈ lower ++ higher) :
      fs.filterMap (fun g => (files'.search? s.here g.1).map (layerOf g.2))
        = fs.filterMap fun g => (s.files.search? s.here g.1).map (layerOf g.2) :=
    List.filterMap_congr fun g hg => by rw [hothers g (hfs g hg)]
  have hlayer : layerOf f.2 ⟨name, before⟩ = .ofDoc (.file name f.2) d := by
    rw [layerOf, hd]
    rfl
  have hlayer' : layerOf f.2 ⟨name, after⟩ = .ofDoc (.file name f.2) d' := by
    rw [layerOf, hd']
    rfl
  refine ⟨Layer.ofDoc .builtIn (toDoc {}) :: lower.filterMap fun g =>
      (s.files.search? s.here g.1).map (layerOf g.2), .file name f.2, d, d',
    higher.filterMap (fun g => (s.files.search? s.here g.1).map (layerOf g.2))
      ++ [environmentLayer s.environment], ?_, ?_, hplaced _, ?_⟩
  · rw [precedence, hfiles, List.filterMap_append, List.filterMap_cons, hbefore, Option.map_some,
      hlayer]
    simp
  · rw [precedence, hfiles', List.filterMap_append, List.filterMap_cons, hafter, Option.map_some,
      hlayer', hsame fun g hg => List.mem_append_left _ hg,
      hsame fun g hg => List.mem_append_right _ hg]
    simp
  · intro u hu
    rw [List.filterMap_append, List.mem_append, List.mem_filterMap] at hu
    rcases hu with ⟨l, hl, hcontent⟩ | henvironment
    · obtain ⟨g, hg, hfound⟩ := List.mem_filterMap.1 hl
      obtain ⟨hit, hhit, rfl⟩ := Option.map_eq_some_iff.1 hfound
      exact hpass g hg hit hhit u hcontent
    · obtain rfl := List.mem_singleton.1 henvironment
      have hempty : (Tree.table .environment []).Passes k.path := ⟨rfl, rfl⟩
      exact passes_layOver h.silent hempty

/-- Where settings come out, no file is unreadable. -/
theorem unreadable_of_load (h : load s custom = .ok c) : unreadable (precedence s custom) = [] := by
  by_contra hbroken
  rw [load_of_unreadable (isFile_of_load h) hbroken] at h
  cases h

/-- Where settings could be loaded before a text was put into a file, they still can if the text
fits, and then the setting is converted from it. -/
theorem PutInFile.exists_load {f : Location × Notation} (h : PutInFile k v s files' custom f)
    (hload : load s custom = .ok c) (hfits : ∀ o, k.accepts (.ofDoc o (.ofText v)) = true) :
    ∃ c' o, load { s with files := files' } custom = .ok c'
      ∧ k.Converts (.ofDoc o (.ofText v)) c' := by
  obtain ⟨low, o, d, d', high, hbefore, hafter, hplaced, hpass⟩ := h.exists_layer
  have hstacked (d : Doc) : stacked (low ++ Layer.ofDoc o d :: high)
      = (high.filterMap Layer.content).foldl Tree.merge (Tree.merge (stacked low) (.ofDoc o d)) := by
    rw [stacked, List.filterMap_append, List.foldl_append]
    rfl
  have hreadable (d : Doc) : unreadable (low ++ Layer.ofDoc o d :: high)
      = unreadable (low ++ high) := by
    rw [unreadable, unreadable, List.filter_append, List.filter_append]
    rfl
  have hdiffers : Tree.Differs k.path (.ofDoc o (.ofText v)) (stacked (precedence s custom))
      (stacked (precedence { s with files := files' } custom)) := by
    rw [hbefore, hafter, hstacked, hstacked]
    exact (hplaced.differs rfl _).under hpass
  have hsound : unreadable (precedence { s with files := files' } custom) = [] := by
    rw [hafter, hreadable, ← hreadable d, ← hbefore, unreadable_of_load hload]
  have hok := isOk_load (s := { s with files := files' }) h.asked hsound
  rw [Knob.isOk_extract_of_apart (extract_of_load hload) hdiffers.alike hdiffers.found, hfits] at hok
  cases hresult : load { s with files := files' } custom with
  | error e => simp [hresult, Except.toBool] at hok
  | ok c' =>
      exact ⟨c', o, rfl, Knob.converts_of_extract (extract_of_load hresult) hdiffers.found⟩

/-- The flag that the settings have, if there are settings at all. -/
def flagWith (s : Surroundings) (custom : Option (List Char)) (k : Knob) : Option Bool :=
  (load s custom).toOption.bind k.flag?

/-- **A flag means the same in a variable and in a file.**  Where settings can be loaded at all, they
can be loaded with a word for a flag in one more variable, or put as a text into one of the files, in
any notation, and the setting is this flag then.  For a variable no other one may speak of the same
setting, and for a file nothing above it. -/
theorem load_flag (hk : k = .trace ∨ k = .verbose) (hv : Flag.parse v = some b)
    (hload : load s custom = .ok c) :
    (∀ name before after, name.map Char.toLower = k.variableName → s.environment = before ++ after →
        (∀ u ∈ s.environment, ∀ p ∈ Environment.path? u.name, Apart k.path p) →
        flagWith { s with environment := before ++ ⟨name, v⟩ :: after } custom k = some b)
      ∧ ∀ files' f, PutInFile k v s files' custom f →
        flagWith { s with files := files' } custom k = some b := by
  constructor
  · intro name before after hname henvironment hothers
    have hpath : Environment.path? (Environment.Variable.mk name v).name = some k.path :=
      k.path?_variableName hname
    have hload' : load { s with environment := before ++ after } custom = .ok c := by
      rw [← henvironment, ← hload]
    obtain ⟨hfits, hconverts⟩ := load_one_more hpath (henvironment ▸ hothers) hload'
    rw [Knob.accepts_of_flag? hk (flag?_value hv _)] at hfits
    obtain ⟨c', hc'⟩ := Option.isSome_iff_exists.1 hfits
    rw [flagWith, hc', Option.bind_some]
    exact Knob.flag?_of_converts hk (flag?_value hv _) (hconverts c' hc')
  · intro files' f hput
    obtain ⟨c', o, hc', hconverts⟩ := hput.exists_load hload fun o =>
      Knob.accepts_of_flag? hk (flag?_ofText hv o)
    rw [flagWith, hc']
    exact Knob.flag?_of_converts hk (flag?_ofText hv o) hconverts

end Load

/-- A working directory with one file. -/
def oneFile (name text : String) : FileTree where
  files := [(["w".toList, name.toList], Text.encode text.toList)]

/-- A text that is put into the only file, which is the one that was asked for. -/
theorem putInFile_oneFile {name before after : String} {d d' : Doc}
    (hasked : (oneFile name after).isFile ["w".toList] (.ofText name.toList) = true)
    (hbefore : (oneFile name before).search? ["w".toList] (.ofText name.toList)
      = some ⟨name, Text.encode before.toList⟩)
    (hafter : (oneFile name after).search? ["w".toList] (.ofText name.toList)
      = some ⟨name, Text.encode after.toList⟩)
    (hd : parseBytes? (notationOf (lastName name.toList)) (Text.encode before.toList) = some d)
    (hd' : parseBytes? (notationOf (lastName name.toList)) (Text.encode after.toList) = some d')
    (hput : ∀ o, Tree.Placed k.path (.ofDoc o (.ofText v)) (.ofDoc o d) (.ofDoc o d')) :
    PutInFile k v { files := oneFile name before, here := ["w".toList] } (oneFile name after)
      (some name.toList) (.ofText name.toList, notationOf (lastName name.toList)) where
  asked := by
    rintro path ⟨⟩
    exact hasked
  place := ⟨[], [], rfl, nofun, nofun⟩
  content := ⟨name, _, _, d, d', hbefore, hafter, hd, hd', hput⟩
  silent := nofun

/-- A variable with a number behind a no-break space, which only one of the trimmings knows, and files
of two notations that a word with white space around it is put into. -/
theorem load_flag_sample :
    let here (files : FileTree) : Surroundings := { files := files, here := ["w".toList] }
    flagWith { layeredSample with environment := layeredSample.environment
        ++ [⟨"ORDERLY_SESSION__VERBOSE".toList, "\u00a01 ".toList⟩] } none .verbose = some true
      ∧ flagWith (here (oneFile "c.toml" "[session]\ntrace = \" yEs\u2003\"\n"))
        (some "c.toml".toList) .trace = some true
      ∧ flagWith (here (oneFile "c.json"
          "\x7b\"session\": \x7b\"trace\": \" yEs\u2003\"\x7d\x7d"))
        (some "c.json".toList) .trace = some true := by
  intro here
  have hput (o : Origin) : Tree.Placed Knob.trace.path (.ofDoc o (.ofText " yEs\u2003".toList))
      (.ofDoc o (.table [("session".toList, .table [])])) (.ofDoc o (.table [("session".toList,
        .table [("trace".toList, .ofText " yEs\u2003".toList)])])) := by
    obtain ⟨old, hold⟩ := @Tree.exists_placed (.ofDoc o (.table [("session".toList, .table [])]))
      Knob.trace.path rfl o (.ofText " yEs\u2003".toList)
    cases old with
    | none => exact hold
    | some t => exact hold
  refine ⟨?_, ?_, ?_⟩
  · have hload : load layeredSample none = .ok layeredSettings := by decide +kernel
    exact (load_flag (.inr rfl) (by decide) hload).1 "ORDERLY_SESSION__VERBOSE".toList
      layeredSample.environment [] (by decide +kernel) (List.append_nil _).symm (by decide +kernel)
  · have hload : load (here (oneFile "c.toml" "[session]\n")) (some "c.toml".toList) = .ok {} := by
      decide +kernel
    refine (load_flag (.inl rfl) (by decide) hload).2 _ _ (putInFile_oneFile ?_ ?_ ?_ ?_ ?_ hput)
    · decide +kernel
    · decide +kernel
    · decide +kernel
    · decide +kernel
    · decide +kernel
  · have hload : load (here (oneFile "c.json" "\x7b\"session\": \x7b\x7d\x7d"))
        (some "c.json".toList) = .ok {} := by decide +kernel
    refine (load_flag (.inl rfl) (by decide) hload).2 _ _ (putInFile_oneFile ?_ ?_ ?_ ?_ ?_ hput)
    · decide +kernel
    · decide +kernel
    · decide +kernel
    · decide +kernel
    · decide +kernel

end Config

end OrderedDispatch
