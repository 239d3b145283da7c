/-
**Replacing a pattern.**

A text is rewritten at the occurrences of a pattern, from left to right.  Between one occurrence and
the next every character is passed on, so that there is one induction over texts for each pattern:
over the occurrences and the characters passed on.

What is passed on may meet what is put in.  A text is clear of a pattern if no occurrence of the
pattern begins in it, whatever comes after it; such a text is passed on as a whole.

Main definitions:

* `Text.Clear` — no occurrence of a pattern begins in a text, whatever comes after it.

Main results:

* `Text.occurs_iff`, `Text.stripStart?_isSome_iff` — the searches in terms of infixes and prefixes;
* `Text.replaceAll_append`, `Text.replaceAll_cons` — what replacing does at an occurrence, and where
  there is none;
* `Text.occurrences_induction` — **the induction over the occurrences of a pattern**;
* `Text.replaceAll_append_of_clear` — what is clear of the pattern is passed on;
* `Text.prefix_of_prefix_replaceAll` — what a rewritten text starts with, the text starts with;
* `Text.infix_replaceAll` — the replacement is to be found wherever the pattern was;
* `Text.infix_replaceAll_of_clear` — **what cannot overlap the pattern survives**;
* `Text.count_replaceAll_lt` — a character of the pattern that is not replaced gets rarer.
-/

import Mathlib.Data.List.Infix
import OrderedDispatch.Text.Pattern

set_option relaxedAutoImplicit false
set_option autoImplicit false

namespace OrderedDispatch.Text

variable {p r s : List Char}

/-! ### Searching -/

theorem stripStart?_isSome_iff : (stripStart? p s).isSome = true ↔ p <+: s := by
  rw [Option.isSome_iff_exists]
  constructor
  · rintro ⟨rest, h⟩
    exact ⟨rest, (eq_append_of_stripStart? h).symm⟩
  · rintro ⟨rest, rfl⟩
    exact ⟨rest, stripStart?_append p rest⟩

/-- A pattern occurs in a text if it is an infix. -/
theorem occurs_iff : occurs p s = true ↔ p <:+: s := by
  induction s with
  | nil => simp [occurs]
  | cons c s ih => rw [occurs, Bool.or_eq_true, stripStart?_isSome_iff, ih, List.infix_cons_iff]

/-! ### Replacing -/

@[simp] theorem replaceAll_nil (p r : List Char) : replaceAll p r [] = [] := by
  rw [replaceAll]
  cases p <;> rfl

/-- An occurrence at the start is replaced. -/
theorem replaceAll_append (hp : p ≠ []) (r s : List Char) :
    replaceAll p r (p ++ s) = r ++ replaceAll p r s := by
  rw [replaceAll, dif_neg hp]
  split
  · rename_i rest hrest
    obtain rfl := Option.some.inj ((stripStart?_append p s).symm.trans hrest)
    rfl
  · rename_i hnone
    rw [stripStart?_append] at hnone
    cases hnone

/-- Where there is no occurrence, a character is passed on. -/
theorem replaceAll_cons {c : Char} (h : ¬ p <+: c :: s) (r : List Char) :
    replaceAll p r (c :: s) = c :: replaceAll p r s := by
  have hp : p ≠ [] := by
    rintro rfl
    exact h List.nil_prefix
  rw [replaceAll, dif_neg hp]
  split
  · rename_i rest hrest
    exact absurd ⟨rest, (eq_append_of_stripStart? hrest).symm⟩ h
  · rfl

/-- **The induction over the occurrences of a pattern**, and the characters passed on between
them. -/
@[elab_as_elim]
theorem occurrences_induction {motive : List Char → Prop} (hp : p ≠ []) (nil : motive [])
    (found : ∀ s, motive s → motive (p ++ s))
    (passed : ∀ c s, ¬ p <+: c :: s → motive s → motive (c :: s)) (s : List Char) : motive s := by
  induction hn : s.length using Nat.strong_induction_on generalizing s with
  | _ n ih =>
      by_cases hs : p <+: s
      · obtain ⟨rest, rfl⟩ := hs
        have := List.length_pos_iff.2 hp
        refine found rest (ih rest.length ?_ rest rfl)
        rw [← hn, List.length_append]
        omega
      · cases s with
        | nil => exact nil
        | cons c s =>
            refine passed c s hs (ih s.length ?_ s rfl)
            rw [← hn]
            exact Nat.lt_succ_self _

/-- The replacement is to be found wherever the pattern was. -/
theorem infix_replaceAll (hp : p ≠ []) (h : p <:+: s) (r : List Char) :
    r <:+: replaceAll p r s := by
  induction s using occurrences_induction hp with
  | nil => exact absurd (List.infix_nil.1 h) hp
  | found s ih =>
      rw [replaceAll_append hp]
      exact (List.prefix_append r _).isInfix
  | passed c s hs ih =>
      rw [replaceAll_cons hs]
      exact (ih ((List.infix_cons_iff.1 h).resolve_left hs)).trans (List.suffix_cons c _).isInfix

/-- Where there is nothing to be replaced, nothing happens. -/
theorem replaceAll_of_not_found (h : ¬ p <:+: s) (r : List Char) : replaceAll p r s = s := by
  induction s with
  | nil => exact replaceAll_nil p r
  | cons c s ih =>
      rw [List.infix_cons_iff, not_or] at h
      rw [replaceAll_cons h.1, ih h.2]

/-- What a rewritten text starts with, the text starts with, unless it has the first character of a
replacement. -/
theorem prefix_of_prefix_replaceAll {g : List Char} {d : Char} (hp : p ≠ []) (hd : d ∉ g)
    (h : g <+: replaceAll p (d :: r) s) : g <+: s := by
  induction s using occurrences_induction hp generalizing g with
  | nil => rwa [replaceAll_nil] at h
  | found s ih =>
      rw [replaceAll_append hp] at h
      cases g with
      | nil => exact List.nil_prefix
      | cons e g =>
          -- the replacement would have to start like the text searched for
          obtain ⟨rfl, -⟩ := List.cons_prefix_cons.1 h
          exact absurd (List.mem_cons_self ..) hd
  | passed c s hs ih =>
      rw [replaceAll_cons hs] at h
      cases g with
      | nil => exact List.nil_prefix
      | cons e g =>
          obtain ⟨rfl, hg⟩ := List.cons_prefix_cons.1 h
          exact List.cons_prefix_cons.2 ⟨rfl, ih (fun hmem => hd (List.mem_cons_of_mem _ hmem)) hg⟩

/-! ### What a pattern cannot overlap -/

/-- No occurrence of the pattern begins in the text, whatever comes after the text. -/
def Clear (pattern text : List Char) : Prop :=
  ∀ u ∈ text.tails, u ≠ [] → ¬ pattern <+: u ∧ ¬ u <+: pattern

instance (pattern text : List Char) : Decidable (Clear pattern text) :=
  inferInstanceAs (Decidable (∀ u ∈ text.tails, u ≠ [] → ¬ pattern <+: u ∧ ¬ u <+: pattern))

theorem clear_nil (p : List Char) : Clear p [] := by
  intro u hu hne
  exact absurd (List.mem_singleton.1 hu) hne

theorem clear_cons {c : Char} {u : List Char} :
    Clear p (c :: u) ↔ (¬ p <+: c :: u ∧ ¬ c :: u <+: p) ∧ Clear p u := by
  simp [Clear]

/-- A text that lacks the first character of a pattern is clear of it. -/
theorem clear_of_notMem {c : Char} {u : List Char} (h : c ∉ u) : Clear (c :: p) u := by
  induction u with
  | nil => exact clear_nil _
  | cons d u ih =>
      rw [List.mem_cons, not_or] at h
      refine clear_cons.2 ⟨⟨fun hp => ?_, fun hp => ?_⟩, ih h.2⟩
      · exact h.1 (List.cons_prefix_cons.1 hp).1
      · exact h.1 (List.cons_prefix_cons.1 hp).1.symm

/-- In a text that is clear of a pattern no occurrence begins. -/
theorem Clear.not_prefix {c : Char} {u : List Char} (h : Clear p (c :: u)) (s : List Char) :
    ¬ p <+: c :: (u ++ s) := by
  intro hp
  obtain ⟨hnot, hnot'⟩ := (clear_cons.1 h).1
  rcases List.prefix_or_prefix_of_prefix hp (List.prefix_append (c :: u) s) with hle | hle
  · exact hnot hle
  · exact hnot' hle

/-- What is clear of the pattern is passed on. -/
theorem replaceAll_append_of_clear {u : List Char} (h : Clear p u) (r s : List Char) :
    replaceAll p r (u ++ s) = u ++ replaceAll p r s := by
  induction u with
  | nil => rfl
  | cons c u ih =>
      rw [List.cons_append, replaceAll_cons (h.not_prefix s), ih (clear_cons.1 h).2,
        List.cons_append]

/-- A pattern that occurs from within a text that is clear of it occurs after that text. -/
theorem Clear.occurs_later {u : List Char} (h : Clear p u) (hp : p <:+: u ++ s) : p <:+: s := by
  induction u with
  | nil => exact hp
  | cons c u ih =>
      rw [List.cons_append, List.infix_cons_iff] at hp
      exact ih (clear_cons.1 h).2 (hp.resolve_left (h.not_prefix s))

/-- **What cannot overlap the pattern survives**: a text keeps what it contains if that is clear of
the pattern and the pattern of it. -/
theorem infix_replaceAll_of_clear {g : List Char} (hp : p ≠ []) (hgap : Clear p g)
    (hpattern : Clear g p) (h : g <:+: s) (r : List Char) : g <:+: replaceAll p r s := by
  induction s using occurrences_induction hp with
  | nil => rwa [replaceAll_nil]
  | found s ih =>
      rw [replaceAll_append hp]
      exact (ih (hpattern.occurs_later h)).trans (List.suffix_append r _).isInfix
  | passed c s hs ih =>
      rcases List.infix_cons_iff.1 h with hstart | hlater
      · obtain ⟨rest, hrest⟩ := hstart
        rw [← hrest, replaceAll_append_of_clear hgap]
        exact (List.prefix_append g _).isInfix
      · rw [replaceAll_cons hs]
        exact (ih hlater).trans (List.suffix_cons c _).isInfix

/-! ### What gets lost -/

/-- A character that no replacement has does not get more frequent. -/
theorem count_replaceAll_le {c : Char} (hp : p ≠ []) (hr : c ∉ r) (s : List Char) :
    (replaceAll p r s).count c ≤ s.count c := by
  induction s using occurrences_induction hp with
  | nil => simp
  | found s ih =>
      rw [replaceAll_append hp, List.count_append, List.count_append,
        List.count_eq_zero_of_not_mem hr]
      omega
  | passed d s hs ih =>
      rw [replaceAll_cons hs, List.count_cons, List.count_cons]
      omega

/-- A character of the pattern that no replacement has gets rarer if the pattern occurs. -/
theorem count_replaceAll_lt {c : Char} (hc : c ∈ p) (hr : c ∉ r) (h : p <:+: s) :
    (replaceAll p r s).count c < s.count c := by
  have hp : p ≠ [] := List.ne_nil_of_mem hc
  induction s using occurrences_induction hp with
  | nil => exact absurd (List.infix_nil.1 h) hp
  | found s ih =>
      have hle := count_replaceAll_le hp hr s
      have hpos := List.count_pos_iff.2 hc
      rw [replaceAll_append hp, List.count_append, List.count_append,
        List.count_eq_zero_of_not_mem hr]
      omega
  | passed d s hs ih =>
      have hlt := ih ((List.infix_cons_iff.1 h).resolve_left hs)
      rw [replaceAll_cons hs, List.count_cons, List.count_cons]
      omega

end OrderedDispatch.Text
