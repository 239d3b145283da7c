/-
**Settings as they are shown.**

Both formats show the settings as sections of keys with values, and differ in how they write a text.
This module says which document the shown settings are, and how the escapes by hexadecimal digits
are read that both formats use for control characters.

Main definitions:

* `Config.Render.Shown.toDoc`, `Config.Render.Shown.Fits` — a shown value as a document, and whether
  its number is small enough;
* `Config.shownDoc` — the shown settings as a document.

Main results:

* `Config.shownDoc_eq` — the document, entry by entry;
* `Config.read_flatMap` — an escaped text is read if each escape is read in one step;
* `Config.hexNumber?_hexTail`, `Config.hexCode?_hexTail_upper` — the escape of a control character is
  read as that character.
-/

import OrderedDispatch.Config.Load
import OrderedDispatch.Config.Render
import OrderedDispatch.Proofs.Text.Numeral

set_option relaxedAutoImplicit false
set_option autoImplicit false

namespace OrderedDispatch.Config

open Render

/-! ### Documents of settings -/

/-- A shown value as a document; formats differ in whether whole numbers count as signed. -/
def Render.Shown.toDoc (signed : Bool) : Shown → Doc
  | .number n => .scalar (.int signed n)
  | .flag b => .scalar (.bool b)
  | .text s => .ofText s

/-- The numbers among shown values are below a limit. -/
def Render.Shown.Fits (limit : Nat) : Shown → Prop
  | .number n => n < limit
  | _ => True

instance (limit : Nat) : (e : Shown) → Decidable (e.Fits limit)
  | .number n => inferInstanceAs (Decidable (n < limit))
  | .flag _ => inferInstanceAs (Decidable True)
  | .text _ => inferInstanceAs (Decidable True)

/-- Entries put into a table one after the other. -/
def tableOf {α : Type} (f : α → Doc) (entries : List (String × α)) : List (Key × Doc) :=
  entries.foldl (fun es e => Entries.put e.1.toList (f e.2) es) []

/-- The shown settings as a document. -/
def shownDoc (signed : Bool) (c : Config) : Doc :=
  .table (tableOf (fun es => .table (tableOf (Shown.toDoc signed) es)) (shown c))

/-- The entries of the document are in the order of their keys. -/
theorem shownDoc_eq (signed : Bool) (c : Config) : shownDoc signed c = .table [
    ("parallel".toList, .table [
      ("max_threads".toList, .scalar (.int signed c.parallel.maxThreads)),
      ("memory_per_thread_mb".toList, .scalar (.int signed c.parallel.memoryPerThread)),
      ("threads".toList, .scalar (.int signed c.parallel.requested))]),
    ("run".toList, .table [
      ("placeholder".toList, .ofText c.placeholder.toList),
      ("shell".toList, .ofText c.shell.toList)]),
    ("session".toList, .table [
      ("trace".toList, .scalar (.bool c.session.trace)),
      ("verbose".toList, .scalar (.bool c.session.verbose))])] := by
  simp [shownDoc, tableOf, shown, Shown.toDoc, Entries.put, Entries.before]

/-- A name without quotes. -/
def isName (s : String) : Bool := !s.toList.isEmpty && s.toList.all Toml.isBare

theorem not_lt_of_isBare {c : Char} (h : Toml.isBare c = true) : ¬ c.toNat < 0x20 := by
  intro hlow
  have hall : ∀ n < 0x20, Toml.isBare (Char.ofNat n) = false := by decide
  have hc := hall _ hlow
  rw [Char.ofNat_toNat, h] at hc
  cases hc

theorem ne_of_isBare {c d : Char} (hc : Toml.isBare c = true) (hd : Toml.isBare d = false) :
    c ≠ d := by
  rintro rfl
  rw [hc] at hd
  cases hd

/-- Sections are shown under names, and none of them is empty. -/
theorem isName_of_mem_shown {c : Config} {es : String × List (String × Shown)} (h : es ∈ shown c) :
    isName es.1 = true ∧ es.2 ≠ [] ∧ ∀ e ∈ es.2, isName e.1 = true := by
  have hall : (shown c).all (fun es => isName es.1 && !es.2.isEmpty && es.2.all fun e => isName e.1)
      = true := by
    simp only [shown, List.all_cons, List.all_nil, List.isEmpty_cons]
    decide
  simpa [and_assoc] using List.all_eq_true.1 hall es h

/-! ### Spans -/

/-- A span ends where the condition fails. -/
theorem spanWhile_cons_of_not {p : Char → Bool} {s : List Char} (hs : ∀ c ∈ s, p c = true) {d : Char}
    (hd : p d = false) (rest : List Char) : spanWhile p (s ++ d :: rest) = (s, d :: rest) := by
  rw [spanWhile, List.takeWhile_append_of_pos hs, List.dropWhile_append_of_pos hs,
    List.takeWhile_cons_of_neg (by simp [hd]), List.dropWhile_cons_of_neg (by simp [hd]),
    List.append_nil]

/-! ### Escaped texts -/

/-- A reader that takes one step for every character, escaped or not, reads an escaped text up to
the quote after it. -/
theorem read_flatMap {read : Nat → List Char → Reader (List Char)} {escape : Char → List Char}
    (hclose : ∀ steps acc rest, read (steps + 1) acc ('"' :: rest) = some (acc.reverse, rest))
    (hchar : ∀ c steps acc rest,
      read (steps + 1) acc (escape c ++ rest) = read steps (c :: acc) rest)
    (s : List Char) (steps : Nat) (hsteps : s.length < steps) (acc rest : List Char) :
    read steps acc (s.flatMap escape ++ '"' :: rest) = some (acc.reverse ++ s, rest) := by
  induction s generalizing steps acc with
  | nil =>
      obtain ⟨steps, rfl⟩ := Nat.exists_eq_add_one_of_ne_zero (Nat.ne_zero_of_lt hsteps)
      rw [List.flatMap_nil, List.nil_append, hclose, List.append_nil]
  | cons c s ih =>
      obtain ⟨steps, rfl⟩ := Nat.exists_eq_add_one_of_ne_zero (Nat.ne_zero_of_lt hsteps)
      rw [List.flatMap_cons, List.append_assoc, hchar, ih steps (Nat.lt_of_succ_lt_succ hsteps),
        List.reverse_cons, List.append_assoc, List.singleton_append]

/-- Escaping makes no text shorter. -/
theorem length_le_flatMap_escape {escape : Char → List Char} (h : ∀ c, escape c ≠ [])
    (s : List Char) : s.length ≤ (s.flatMap escape).length := by
  induction s with
  | nil => exact Nat.le_refl 0
  | cons c s ih =>
      have hpos := List.length_pos_iff.2 (h c)
      rw [List.flatMap_cons, List.length_append, List.length_cons]
      omega

/-! ### Control characters -/

theorem hexNumber?_hexTail {n : Nat} (h : n < 0x20 ∨ n = 0x7F) (rest : List Char) :
    hexNumber? 4 (hexTail 4 n ++ rest) = some (n, rest) := by
  have hall : ∀ n < 0x80, (hexTail 4 n).length = 4 ∧ Text.natOfDigits? 16 (hexTail 4 n) = some n := by
    decide +kernel
  obtain ⟨hlength, hvalue⟩ := hall n (by omega)
  rw [hexNumber?, List.take_left' hlength, List.drop_left' hlength, if_pos hlength, hvalue]
  rfl

theorem hexCode?_hexTail_upper {n : Nat} (h : n < 0x20 ∨ n = 0x7F) (rest : List Char) :
    hexCode? 4 ((hexTail 4 n).map Char.toUpper ++ rest) = some (Char.ofNat n, rest) := by
  have hall : ∀ n < 0x80, ((hexTail 4 n).map Char.toUpper).length = 4
      ∧ Text.natOfDigits? 16 ((hexTail 4 n).map Char.toUpper) = some n ∧ isScalarCode n = true := by
    decide +kernel
  obtain ⟨hlength, hvalue, hscalar⟩ := hall n (by omega)
  simp [hexCode?, hexNumber?, List.take_left' hlength, List.drop_left' hlength, hlength, hvalue,
    hscalar]

end OrderedDispatch.Config
