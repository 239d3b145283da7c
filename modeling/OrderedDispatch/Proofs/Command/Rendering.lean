/-
**What rendering a template comes to.**

The gaps of a template are filled in two passes.  The first writes the number of the item, the
second the quoted item, and it goes over a text that the first has already rewritten.  Whether the
item has to be appended is decided on the template as it was.

For an item gap that shares no character with a digit or with the gap for the number, the two passes
are one: no gap is torn apart, none comes into being, and what has been filled in is not looked at
again.  The usual spelling of the item gap shares both braces with the gap for the number and still
is such a gap.  Other gaps may overlap the gap for the number; then the first pass can take the item
gap away, the second finds nothing, and the item is neither filled in nor appended.

Main definitions:

* `Command.scan` — one pass over a command line that fills both kinds of gap;
* `Command.Tame` — an item gap that both passes agree on;
* `Command.Apart` — an item gap that cannot overlap the gap for the number.

Main results:

* `Command.filled_eq_scan` — **the two passes are one**;
* `Command.render_eq_scan` — what the command line of an item is;
* `Command.item_kept_iff_apart` — **for which gaps the item is never dropped**;
* `Command.item_dropped` — a template that drops its item.
-/

import Mathlib.Data.List.Nodup
import OrderedDispatch.Command.Template
import OrderedDispatch.Proofs.Text.Replace

set_option relaxedAutoImplicit false
set_option autoImplicit false

namespace OrderedDispatch.Command

/-! ### One pass -/

/-- One pass over a command line from left to right: a gap for the number is filled with the digits,
a gap for the item with the quoted item, and any other character is copied.  What has been filled in
is not looked at again. -/
def scan (itemGap quoted digits : List Char) : List Char → List Char
  | [] => []
  | c :: s =>
      if indexGap <+: c :: s then
        digits ++ scan itemGap quoted digits (s.drop (indexGap.length - 1))
      else if itemGap <+: c :: s then
        quoted ++ scan itemGap quoted digits (s.drop (itemGap.length - 1))
      else c :: scan itemGap quoted digits s
  termination_by s => s.length
  decreasing_by all_goals simp only [List.length_drop, List.length_cons]; omega

/-- A text that starts with a gap is the gap and the rest. -/
theorem eq_append_drop {p s : List Char} {c : Char} (hp : p ≠ []) (h : p <+: c :: s) :
    c :: s = p ++ s.drop (p.length - 1) := by
  obtain ⟨rest, hrest⟩ := h
  cases p with
  | nil => exact absurd rfl hp
  | cons d p =>
      obtain ⟨rfl, rfl⟩ := List.cons.inj hrest
      simp

/-! ### Numbers -/

theorem isDigit_of_mem_decimal {n : Nat} {c : Char} (h : c ∈ Template.decimal n) :
    c.isDigit = true :=
  Nat.isDigit_of_mem_toDigits (by decide) (by decide) h

theorem decimal_ne_nil (n : Nat) : Template.decimal n ≠ [] := Nat.toDigits_ne_nil

/-- A numeral has no character of a text without digits. -/
theorem notMem_decimal {text : List Char} (h : text.all (!·.isDigit) = true) {c : Char}
    (hc : c ∈ text) (n : Nat) : c ∉ Template.decimal n := by
  intro hmem
  have hnot := List.all_eq_true.1 h c hc
  rw [isDigit_of_mem_decimal hmem] at hnot
  cases hnot

/-! ### Gaps that both passes agree on -/

/-- The item gap is the usual one, or it shares no character with digits or with the gap for the
number. -/
def Tame (itemGap : List Char) : Prop :=
  itemGap = ['\x7b', '\x7d']
    ∨ itemGap ≠ [] ∧ ∀ c ∈ itemGap, c.isDigit = false ∧ c ∉ indexGap

namespace Tame

variable {itemGap : List Char}

theorem ne_nil (h : Tame itemGap) : itemGap ≠ [] := by
  rcases h with rfl | ⟨hne, -⟩
  · decide
  · exact hne

theorem noDigits (h : Tame itemGap) : itemGap.all (!·.isDigit) = true := by
  rcases h with rfl | ⟨-, hchars⟩
  · decide
  · refine List.all_eq_true.2 fun c hc => ?_
    rw [(hchars c hc).1]
    rfl

/-- No gap for the number begins in an item gap. -/
theorem clear (h : Tame itemGap) : Text.Clear indexGap itemGap := by
  rcases h with rfl | ⟨-, hchars⟩
  · decide
  · exact Text.clear_of_notMem fun hmem => (hchars _ hmem).2 (by decide)

/-- No item gap begins in a number. -/
theorem clear_decimal (h : Tame itemGap) (n : Nat) :
    Text.Clear itemGap (Template.decimal n) := by
  cases itemGap with
  | nil => exact absurd rfl h.ne_nil
  | cons c gap =>
      exact Text.clear_of_notMem (notMem_decimal h.noDigits (List.mem_cons_self ..) n)

/-- Filling in numbers brings no item gap into being. -/
theorem prefix_of_prefix_numbered (h : Tame itemGap) {n : Nat} {s : List Char}
    (hs : itemGap <+: Text.replaceAll indexGap (Template.decimal n) s) : itemGap <+: s := by
  cases hdigits : Template.decimal n with
  | nil => exact absurd hdigits (decimal_ne_nil n)
  | cons d ds =>
      have hd : d ∈ Template.decimal n := hdigits ▸ List.mem_cons_self ..
      rw [hdigits] at hs
      refine Text.prefix_of_prefix_replaceAll (by decide) (fun hmem => ?_) hs
      exact notMem_decimal h.noDigits hmem n hd

end Tame

/-- **The two passes are one.** -/
theorem filled_eq_scan {itemGap : List Char} (h : Tame itemGap) (quoted : List Char) (n : Nat)
    (s : List Char) :
    Text.replaceAll itemGap quoted (Text.replaceAll indexGap (Template.decimal n) s)
      = scan itemGap quoted (Template.decimal n) s := by
  have hindex : indexGap ≠ [] := by decide
  fun_induction scan itemGap quoted (Template.decimal n) s with
  | case1 => rw [Text.replaceAll_nil, Text.replaceAll_nil]
  | case2 c s hnumber ih =>
      -- a number goes in, and the second pass goes past it
      rw [eq_append_drop hindex hnumber, Text.replaceAll_append hindex,
        Text.replaceAll_append_of_clear (h.clear_decimal n), ih]
  | case3 c s hnumber hitem ih =>
      -- the first pass goes past the gap, the second fills it
      rw [eq_append_drop h.ne_nil hitem, Text.replaceAll_append_of_clear h.clear,
        Text.replaceAll_append h.ne_nil, ih]
  | case4 c s hnumber hitem ih =>
      have hnot : ¬ itemGap <+: c :: Text.replaceAll indexGap (Template.decimal n) s := by
        intro hstart
        rw [← Text.replaceAll_cons hnumber] at hstart
        exact hitem (h.prefix_of_prefix_numbered hstart)
      rw [Text.replaceAll_cons hnumber, Text.replaceAll_cons hnot, ih]

/-! ### The command line of an item -/

/-- **Rendering fills all gaps at once.**  If the item gap is the usual one, or shares no character
with digits or with the gap for the number, then the command line of an item is what one pass over
the words of the template makes of it, whatever the item contains; the item follows, as a further
word, if and only if the template has no gap of either kind. -/
theorem render_eq_scan {words : List (List Char)} (shell : String) {itemGap : List Char}
    (hwords : words ≠ []) (hgap : Tame itemGap) :
    ∃ t, Template.make words shell itemGap = .ok t ∧ ∀ item index,
      t.render item index
        = scan itemGap (shellQuote item) (Template.decimal index) (Template.joinWords words)
          ++ if itemGap <:+: Template.joinWords words ∨ indexGap <:+: Template.joinWords words
            then [] else ' ' :: shellQuote item := by
  refine ⟨_, Template.make_ok_iff.2 ⟨hwords, hgap.ne_nil, rfl⟩, fun item index => ?_⟩
  simp only [Template.render, Template.filled, Template.hasItemGap, Template.hasIndexGap,
    Bool.or_eq_true, Text.occurs_iff, filled_eq_scan hgap]
  split
  · exact (List.append_nil _).symm
  · rfl

/-- The usual gaps are filled whatever the item contains. -/
theorem render_eq_scan_sample : ∃ t, Template.make ["echo".toList, "\x7b#\x7d:\x7b\x7d".toList]
      "sh" "\x7b\x7d".toList = .ok t
    ∧ t.render "a \x7b#\x7d".toList 4 = "echo 4:'a \x7b#\x7d'".toList := by
  have hwords : ["echo".toList, "\x7b#\x7d:\x7b\x7d".toList] ≠ [] := List.cons_ne_nil _ _
  obtain ⟨t, ht, hrender⟩ := render_eq_scan "sh" hwords (Or.inl rfl)
  refine ⟨t, ht, (hrender _ _).trans ?_⟩
  rw [if_pos (Or.inl ⟨"echo \x7b#\x7d:".toList, [], by decide⟩)]
  cbv

/-! ### Items that are dropped -/

/-- The item gap cannot overlap the gap for the number: neither begins in the other, whatever comes
after it. -/
def Apart (itemGap : List Char) : Prop :=
  Text.Clear indexGap itemGap ∧ Text.Clear itemGap indexGap

instance (itemGap : List Char) : Decidable (Apart itemGap) :=
  inferInstanceAs (Decidable (Text.Clear indexGap itemGap ∧ Text.Clear itemGap indexGap))

/-- The template with the numbers filled in, over which the second pass goes. -/
def Template.numbered (t : Template) (index : Nat) : List Char :=
  Text.replaceAll indexGap (decimal index) t.text

/-- The second pass fills in the item wherever the first has left its gap. -/
theorem item_kept_of_numbered {t : Template} (hgap : t.itemGap ≠ []) {index : Nat}
    (h : t.itemGap <:+: t.numbered index) (item : List Char) :
    shellQuote item <:+: t.render item index := by
  have hfilled : shellQuote item <:+: t.filled item index := Text.infix_replaceAll hgap h _
  rw [Template.render]
  split
  · exact hfilled
  · exact hfilled.trans (List.prefix_append _ _).isInfix

/-- A template without any gap gets the item as a further word. -/
theorem item_kept_of_no_gap {t : Template} (hitem : ¬ t.itemGap <:+: t.text)
    (hindex : ¬ indexGap <:+: t.text) (item : List Char) (index : Nat) :
    shellQuote item <:+: t.render item index := by
  have hnone : (t.hasItemGap || t.hasIndexGap) = false := by
    rw [Template.hasItemGap, Template.hasIndexGap, Bool.or_eq_false_iff, ← Bool.not_eq_true,
      ← Bool.not_eq_true, Text.occurs_iff, Text.occurs_iff]
    exact ⟨hitem, hindex⟩
  rw [Template.render, hnone, if_neg Bool.false_ne_true, List.append_cons]
  exact (List.suffix_append _ _).isInfix

/-- If the first pass has taken all item gaps away, the item is dropped: the command line does not
depend on it. -/
theorem render_of_not_numbered {t : Template} {index : Nat} (hgap : t.itemGap <:+: t.text)
    (h : ¬ t.itemGap <:+: t.numbered index) (item : List Char) :
    t.render item index = t.numbered index := by
  have hsome : t.hasItemGap = true := Text.occurs_iff.2 hgap
  rw [Template.render, hsome, Bool.true_or, if_pos rfl]
  exact Text.replaceAll_of_not_found h _

/-- A gap that can overlap the gap for the number does so in some text, and then one of the
characters that the two have in common stands nowhere else. -/
theorem exists_overlap {itemGap : List Char} (hgap : itemGap ≠ []) (h : ¬ Apart itemGap) :
    ∃ before after, indexGap <:+: before ++ itemGap ++ after
      ∧ ∃ c ∈ indexGap, c ∉ before ∧ c ∉ after := by
  have hnodup : indexGap.Nodup := by decide
  rw [Apart, Text.Clear, Text.Clear] at h
  simp only [not_and_or, not_forall, not_not, exists_prop, List.mem_tails] at h
  rcases h with ⟨u, ⟨w, hw⟩, hne, ⟨v, hv⟩ | ⟨v, hv⟩⟩ | ⟨u, ⟨w, hw⟩, hne, ⟨v, hv⟩ | ⟨v, hv⟩⟩
  · -- the item gap contains the other
    exact ⟨[], [], ⟨w, v, by simp [← hw, ← hv]⟩, '#', by decide, by simp, by simp⟩
  · -- the item gap ends where the other begins
    obtain ⟨c, hc⟩ := List.exists_mem_of_ne_nil u hne
    rw [← hv] at hnodup ⊢
    refine ⟨[], v, ⟨w, [], by simp [← hw]⟩, c, List.mem_append_left _ hc, by simp, ?_⟩
    exact List.disjoint_of_nodup_append hnodup hc
  · -- the item gap is part of the other
    obtain ⟨c, hc⟩ := List.exists_mem_of_ne_nil itemGap hgap
    rw [← hw, ← hv] at hnodup ⊢
    refine ⟨w, v, ⟨[], [], by simp⟩, c, by simp [hc], fun hmem => ?_, ?_⟩
    · exact List.disjoint_of_nodup_append hnodup hmem (List.mem_append_left _ hc)
    · exact List.disjoint_of_nodup_append (List.nodup_append.1 hnodup).2.1 hc
  · -- the item gap begins where the other ends
    obtain ⟨c, hc⟩ := List.exists_mem_of_ne_nil u hne
    rw [← hw] at hnodup ⊢
    refine ⟨w, [], ⟨[], v, by simp [← hv]⟩, c, List.mem_append_right _ hc, fun hmem => ?_, by simp⟩
    exact List.disjoint_of_nodup_append hnodup hmem hc

/-- The number of the first item takes away the item gap of some template. -/
theorem exists_lost {itemGap : List Char} (hgap : itemGap ≠ []) (h : ¬ Apart itemGap) :
    ∃ text, itemGap <:+: text
      ∧ ¬ itemGap <:+: Text.replaceAll indexGap (Template.decimal 0) text := by
  obtain ⟨before, after, hindex, c, hc, hbefore, hafter⟩ := exists_overlap hgap h
  refine ⟨before ++ itemGap ++ after, ⟨before, after, rfl⟩, fun hkept => ?_⟩
  -- the common character is counted: the gap needs as many as are there, and one has gone
  have hlost := Text.count_replaceAll_lt hc (notMem_decimal (by decide) hc 0) hindex
  have hneeded := hkept.sublist.count_le c
  rw [List.count_append, List.count_append, List.count_eq_zero_of_not_mem hbefore,
    List.count_eq_zero_of_not_mem hafter] at hlost
  omega

/-- A text that is longer than another, and plain, is not to be found in it. -/
theorem exists_shellQuote_not_within (text : List Char) : ∃ item, ¬ shellQuote item <:+: text := by
  have hplain : shellQuote (List.replicate (text.length + 1) 'a')
      = List.replicate (text.length + 1) 'a' := by
    refine shellQuote_of_plain (by simp) fun c hc => ?_
    rw [List.eq_of_mem_replicate hc]
    decide
  refine ⟨List.replicate (text.length + 1) 'a', fun h => ?_⟩
  have hlength := h.length_le
  rw [hplain, List.length_replicate] at hlength
  omega

/-- **For which gaps the item is never dropped.**  A template without any gap always gets its item.
A template with an item gap gets it, whatever the template and the number, if and only if the item
gap cannot overlap the gap for the number. -/
theorem item_kept_iff_apart (shell : String) {itemGap : List Char} (hgap : itemGap ≠ []) :
    (∀ words t, Template.make words shell itemGap = .ok t →
        ¬ itemGap <:+: t.text → ¬ indexGap <:+: t.text →
          ∀ item index, shellQuote item <:+: t.render item index)
      ∧ ((∀ words t, Template.make words shell itemGap = .ok t → itemGap <:+: t.text →
          ∀ item index, shellQuote item <:+: t.render item index) ↔ Apart itemGap) := by
  refine ⟨fun words t ht hitem hindex item index => ?_, fun hkept => ?_, fun hapart => ?_⟩
  · obtain ⟨-, -, rfl⟩ := Template.make_ok_iff.1 ht
    exact item_kept_of_no_gap hitem hindex item index
  · by_contra hoverlap
    obtain ⟨text, hin, hlost⟩ := exists_lost hgap hoverlap
    obtain ⟨item, hitem⟩ :=
      exists_shellQuote_not_within (Text.replaceAll indexGap (Template.decimal 0) text)
    -- the text is the only word of a template
    have ht : Template.make [text] shell itemGap = .ok { shell, itemGap, text } :=
      Template.make_ok_iff.2 ⟨by simp, hgap, by simp⟩
    have hrender := hkept _ _ ht hin item 0
    rw [render_of_not_numbered hin hlost] at hrender
    exact hitem hrender
  · intro words t ht hin item index
    obtain ⟨-, -, rfl⟩ := Template.make_ok_iff.1 ht
    refine item_kept_of_numbered hgap ?_ item
    exact Text.infix_replaceAll_of_clear (by decide) hapart.1 hapart.2 hin _

/-- With the usual spelling the item is never dropped, whatever the template; with another it is
dropped by some. -/
theorem item_kept_iff_apart_sample :
    (∀ words t, Template.make words "sh" "\x7b\x7d".toList = .ok t → "\x7b\x7d".toList <:+: t.text →
      ∀ item index, shellQuote item <:+: t.render item index)
    ∧ ¬ ∀ words t, Template.make words "sh" "@\x7b".toList = .ok t → "@\x7b".toList <:+: t.text →
      ∀ item index, shellQuote item <:+: t.render item index :=
  ⟨(item_kept_iff_apart "sh" (by decide)).2.2 (by decide), fun h =>
    absurd ((item_kept_iff_apart "sh" (by decide)).2.1 h) (by decide)⟩

/-- A template that drops its item: the second pass looks for a gap of which the first has taken
away a half. -/
theorem item_dropped : ∃ t, Template.make ["echo".toList, "@\x7b#\x7d".toList] "sh" "@\x7b".toList
      = .ok t ∧ "@\x7b".toList <:+: t.text ∧ t.render "x".toList 0 = "echo @0".toList
      ∧ ¬ shellQuote "x".toList <:+: t.render "x".toList 0 := by
  have hrender : Template.render ⟨"sh", "@\x7b".toList, "echo @\x7b#\x7d".toList⟩ "x".toList 0
      = "echo @0".toList := by
    cbv
  refine ⟨⟨"sh", "@\x7b".toList, "echo @\x7b#\x7d".toList⟩, rfl,
    ⟨"echo ".toList, "#\x7d".toList, rfl⟩, hrender, ?_⟩
  rw [hrender]
  decide

end OrderedDispatch.Command
