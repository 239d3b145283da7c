/-
**Which items an input holds.**

An input is cut at its newline bytes, and every line is read as UTF-8 by itself.  A newline is spelt
by a byte that no other character has among its bytes, so that cutting bytes and cutting the text
that they spell come to the same, and the input is unreadable exactly if it spells no text as a
whole.

The items are then those of the text: the longest pieces without a newline, each without the
carriage returns at its end, as far as anything visible is left.

Main definitions:

* `Command.Cut` — a text in pieces, cut at its newlines;
* `Command.Sheds` — a piece without the carriage returns at its end;
* `Command.Holds` — the items that a text holds.

Main results:

* `Command.cut_iff`, `Command.sheds_iff` — there is one way to cut a text, and one way to strip a
  piece;
* `Command.lines_encode` — **cutting bytes is cutting the text**;
* `Command.readItems_exact` — which inputs are unreadable, which items the others hold, and that
  inputs with a newline between them are read one by one.
-/

import Mathlib.Data.List.Forall2
import Mathlib.Data.List.Induction
import OrderedDispatch.Command.Items
import OrderedDispatch.Proofs.Text.Utf8

set_option relaxedAutoImplicit false
set_option autoImplicit false

namespace OrderedDispatch.Command

/-! ### Cutting -/

section Cutting

variable {α : Type} [BEq α] [LawfulBEq α] {a : α} {u s : List α}

/-- No piece has the element that a list is cut at. -/
theorem notMem_of_mem_splitOn {piece : List α} (h : piece ∈ s.splitOn a) : a ∉ piece := by
  induction s generalizing piece with
  | nil =>
      rw [List.splitOn_nil, List.mem_singleton] at h
      simp [h]
  | cons x s ih =>
      rw [List.splitOn_cons_eq_if_modifyHead] at h
      split at h
      · rcases List.mem_cons.1 h with rfl | h
        · exact List.not_mem_nil
        · exact ih h
      · rename_i hx
        obtain ⟨first, more, hpieces⟩ := List.exists_cons_of_ne_nil (List.splitOn_ne_nil a s)
        rw [hpieces, List.modifyHead_cons] at h
        rcases List.mem_cons.1 h with rfl | h
        · have hne : a ≠ x := fun heq => hx (beq_iff_eq.2 heq.symm)
          rw [List.mem_cons, not_or]
          exact ⟨hne, ih (hpieces ▸ List.mem_cons_self)⟩
        · exact ih (hpieces ▸ List.mem_cons_of_mem _ h)

/-- What comes before the first cut belongs to the first piece. -/
theorem splitOn_append_of_notMem (h : a ∉ u) (s : List α) :
    (u ++ s).splitOn a = (s.splitOn a).modifyHead (u ++ ·) := by
  induction u with
  | nil =>
      obtain ⟨first, more, hpieces⟩ := List.exists_cons_of_ne_nil (List.splitOn_ne_nil a s)
      simp [hpieces]
  | cons x u ih =>
      rw [List.mem_cons, not_or] at h
      have hx : (x == a) = false := beq_false_of_ne (Ne.symm h.1)
      rw [List.cons_append, List.splitOn_cons_eq_if_modifyHead, hx, ih h.2]
      simp [List.modifyHead_modifyHead, Function.comp_def]

end Cutting

/-- A text in pieces, cut at its newlines. -/
def Cut (text : List Char) (pieces : List (List Char)) : Prop :=
  ['\n'].intercalate pieces = text ∧ pieces ≠ [] ∧ ∀ p ∈ pieces, '\n' ∉ p

/-- There is one way to cut a text. -/
theorem cut_iff {text : List Char} {pieces : List (List Char)} :
    Cut text pieces ↔ pieces = text.splitOn '\n' := by
  constructor
  · rintro ⟨rfl, hne, hpieces⟩
    exact (List.splitOn_intercalate '\n' hpieces hne).symm
  · rintro rfl
    exact ⟨List.intercalate_splitOn '\n', List.splitOn_ne_nil _ _,
      fun p hp => notMem_of_mem_splitOn hp⟩

theorem lines_eq_splitOn (bytes : List UInt8) : lines bytes = bytes.splitOn newline := by
  induction bytes with
  | nil => rfl
  | cons b bytes ih =>
      rw [List.splitOn_cons_eq_if_modifyHead, lines, ih]
      by_cases hb : b = newline
      · simp [hb]
      · obtain ⟨first, more, hpieces⟩ :=
          List.exists_cons_of_ne_nil (List.splitOn_ne_nil newline bytes)
        simp [hb, hpieces]

/-! ### Bytes and texts -/

theorem encode_newline : String.utf8EncodeChar '\n' = [newline] := rfl

/-- No other character has the byte of a newline among its bytes. -/
theorem newline_notMem {c : Char} (h : c ≠ '\n') : newline ∉ String.utf8EncodeChar c := by
  rw [Text.mem_utf8EncodeChar_iff (by decide)]
  intro heq
  exact h (Char.toNat_inj.1 heq)

/-- **Cutting bytes is cutting the text** that they spell. -/
theorem lines_encode (text : List Char) :
    lines (Text.encode text) = (text.splitOn '\n').map Text.encode := by
  rw [lines_eq_splitOn]
  induction text with
  | nil => rfl
  | cons c text ih =>
      rw [Text.encode_cons, List.splitOn_cons_eq_if_modifyHead]
      by_cases hc : c = '\n'
      · subst hc
        rw [encode_newline, List.singleton_append, List.splitOn_cons_eq_if_modifyHead, ih]
        simp
      · obtain ⟨first, more, hpieces⟩ := List.exists_cons_of_ne_nil (List.splitOn_ne_nil '\n' text)
        rw [splitOn_append_of_notMem (newline_notMem hc), ih, hpieces]
        simp [hc, Text.encode_cons]

theorem encode_intercalate (texts : List (List Char)) :
    Text.encode (['\n'].intercalate texts) = [newline].intercalate (texts.map Text.encode) := by
  induction texts with
  | nil => rfl
  | cons t texts ih =>
      cases texts with
      | nil => simp
      | cons t' texts =>
          rw [List.intercalate_cons_cons, List.map_cons, List.map_cons,
            List.intercalate_cons_cons, Text.encode_append, Text.encode_append, ih]
          rfl

theorem mapM_decode_eq_some_iff {pieces : List (List UInt8)} {texts : List (List Char)} :
    pieces.mapM Text.decode = some texts ↔ texts.map Text.encode = pieces := by
  induction pieces generalizing texts with
  | nil => cases texts <;> simp
  | cons p pieces ih =>
      rw [List.mapM_cons]
      cases texts with
      | nil => simp [Option.bind_eq_some_iff]
      | cons t texts => simp [Option.bind_eq_some_iff, Text.decode_eq_some_iff, ih]

/-- All lines can be read exactly if the whole can be read, and then they are its pieces. -/
theorem mapM_decode_lines {bytes : List UInt8} {texts : List (List Char)} :
    (lines bytes).mapM Text.decode = some texts ↔
      ∃ text, Text.encode text = bytes ∧ texts = text.splitOn '\n' := by
  rw [mapM_decode_eq_some_iff]
  constructor
  · intro h
    have hbytes : Text.encode (['\n'].intercalate texts) = bytes := by
      rw [encode_intercalate, h, lines_eq_splitOn, List.intercalate_splitOn]
    refine ⟨_, hbytes, ?_⟩
    rw [← hbytes, lines_encode] at h
    exact List.map_injective_iff.2 (fun _ _ => Text.encode_injective) h
  · rintro ⟨text, rfl, rfl⟩
    exact (lines_encode text).symm

/-! ### Items -/

/-- The item is the piece without the carriage returns at its end. -/
def Sheds (piece item : List Char) : Prop :=
  (∃ k, piece = item ++ List.replicate k '\r') ∧ ¬ ['\r'] <:+ item

theorem itemOfLine_concat (piece : List Char) (c : Char) :
    itemOfLine (piece ++ [c]) = if c = '\r' then itemOfLine piece else piece ++ [c] := by
  rw [itemOfLine, List.reverse_concat, List.dropWhile_cons]
  by_cases hc : c = '\r' <;> simp [hc, itemOfLine]

/-- There is one way to strip a piece. -/
theorem sheds_iff {piece item : List Char} : Sheds piece item ↔ item = itemOfLine piece := by
  induction piece using List.reverseRecOn with
  | nil =>
      constructor
      · rintro ⟨⟨k, hk⟩, -⟩
        exact (List.append_eq_nil_iff.1 hk.symm).1
      · rintro rfl
        exact ⟨⟨0, rfl⟩, by simp [itemOfLine]⟩
  | append_singleton piece c ih =>
      rw [itemOfLine_concat]
      split
      · rename_i hc
        subst hc
        rw [← ih]
        refine and_congr_left fun hend => ?_
        constructor
        · rintro ⟨k, hk⟩
          cases k with
          | zero =>
              rw [List.replicate_zero, List.append_nil] at hk
              exact absurd ⟨piece, hk⟩ hend
          | succ k =>
              rw [List.replicate_succ', ← List.append_assoc] at hk
              exact ⟨k, (List.append_inj' hk rfl).1⟩
        · rintro ⟨k, rfl⟩
          exact ⟨k + 1, by rw [List.replicate_succ', List.append_assoc]⟩
      · rename_i hc
        constructor
        · rintro ⟨⟨k, hk⟩, -⟩
          cases k with
          | zero => simpa using hk.symm
          | succ k =>
              rw [List.replicate_succ', ← List.append_assoc] at hk
              exact absurd (List.singleton_inj.1 (List.append_inj' hk rfl).2) hc
        · rintro rfl
          refine ⟨⟨0, by simp⟩, fun hend => hc ?_⟩
          obtain ⟨before, hbefore⟩ := hend
          exact (List.singleton_inj.1 (List.append_inj' hbefore rfl).2).symm

/-- The items that a text holds, in order: its pieces without the carriage returns at their ends, as
far as there is anything but white space in them. -/
def Holds (text : List Char) (items : List (List Char)) : Prop :=
  ∃ pieces stripped, Cut text pieces ∧ List.Forall₂ Sheds pieces stripped ∧
    items = stripped.filter fun item => item.any fun c => !Text.isBlank c

theorem forall₂_sheds_iff {pieces stripped : List (List Char)} :
    List.Forall₂ Sheds pieces stripped ↔ stripped = pieces.map itemOfLine := by
  induction pieces generalizing stripped with
  | nil => simp
  | cons p pieces ih => cases stripped <;> simp [sheds_iff, ih]

theorem holds_iff {text : List Char} {items : List (List Char)} :
    Holds text items ↔ items = ((text.splitOn '\n').map itemOfLine).filter isItem := by
  simp only [Holds, cut_iff, forall₂_sheds_iff]
  constructor
  · rintro ⟨_, _, rfl, rfl, rfl⟩
    rfl
  · rintro rfl
    exact ⟨_, _, rfl, rfl, rfl⟩

/-- **Reading items is exact.**  An input is unreadable exactly if it is not the UTF-8 of any text;
otherwise its items are those that the text holds.  Two inputs with a newline between them are read
one by one, and are unreadable exactly if one of them is. -/
theorem readItems_exact :
    (∀ bytes, readItems bytes = none ↔ ¬ ∃ text, Text.encode text = bytes)
      ∧ (∀ bytes items, readItems bytes = some items ↔
          ∃ text, Text.encode text = bytes ∧ Holds text items)
      ∧ ∀ before after, readItems (before ++ newline :: after)
          = (readItems before).bind fun items => (readItems after).map (items ++ ·) := by
  have hsome : ∀ bytes items, readItems bytes = some items ↔
      ∃ text, Text.encode text = bytes ∧ Holds text items := by
    intro bytes items
    rw [readItems, Option.map_eq_some_iff]
    simp only [mapM_decode_lines, holds_iff]
    constructor
    · rintro ⟨_, ⟨text, hbytes, rfl⟩, rfl⟩
      exact ⟨text, hbytes, rfl⟩
    · rintro ⟨text, hbytes, rfl⟩
      exact ⟨_, ⟨text, hbytes, rfl⟩, rfl⟩
  refine ⟨fun bytes => ?_, hsome, fun before after => ?_⟩
  · rw [Option.eq_none_iff_forall_ne_some]
    constructor
    · rintro hnone ⟨text, hbytes⟩
      exact hnone _ ((hsome bytes _).2 ⟨text, hbytes, holds_iff.2 rfl⟩)
    · rintro hnot items hitems
      obtain ⟨text, hbytes, -⟩ := (hsome bytes items).1 hitems
      exact hnot ⟨text, hbytes⟩
  · rw [readItems, readItems, readItems, lines_append, List.mapM_append]
    cases (lines before).mapM Text.decode with
    | none => rfl
    | some texts =>
        cases (lines after).mapM Text.decode with
        | none => rfl
        | some texts' => simp

example : readItems (Text.encode "alpha\n\n  \nbeta\r\r\n c\r \rd".toList)
    = some ["alpha".toList, "beta".toList, " c\r \rd".toList] := by
  decide +kernel

end OrderedDispatch.Command
