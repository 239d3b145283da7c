/-
**Decimal numerals.**

The digits of a number are ASCII digits, there is at least one, the first is no zero unless the
number is, and read as a numeral they are the number again.

Main results:

* `Text.isDigit_of_mem_toDigits`, `Text.toDigits_cases` — what a numeral is made of;
* `Text.digitsOnto?_eq` — digits are read as Horner's rule has it;
* `Text.natOfDigits?_toDigits` — **a numeral is read as the number that it was written for**;
* `Text.le_ofDigitChars` — more digits make no smaller number.
-/

import OrderedDispatch.Text.Numeral

set_option relaxedAutoImplicit false
set_option autoImplicit false

namespace OrderedDispatch.Text

variable {c : Char} {s : List Char} {n : Nat}

theorem isDigit_eq (c : Char) : isDigit c = c.isDigit := by
  simp only [isDigit, Char.isDigit, Char.le_def, ge_iff_le]

/-- A numeral has nothing but digits. -/
theorem isDigit_of_mem_toDigits (h : c ∈ Nat.toDigits 10 n) : isDigit c = true := by
  rw [isDigit_eq]
  exact Nat.isDigit_of_mem_toDigits (by decide) (by decide) h

theorem exists_toDigits (n : Nat) : ∃ c s, Nat.toDigits 10 n = c :: s ∧ isDigit c = true := by
  obtain ⟨c, s, hs⟩ := List.exists_cons_of_ne_nil (Nat.toDigits_ne_nil (n := n) (b := 10))
  exact ⟨c, s, hs, isDigit_of_mem_toDigits (n := n) (hs ▸ List.mem_cons_self)⟩

/-- The first digit of a numeral is no zero, unless the number is. -/
theorem toDigits_cases (n : Nat) :
    n = 0 ∧ Nat.toDigits 10 n = ['0'] ∨ ∃ c s, Nat.toDigits 10 n = c :: s ∧ c ≠ '0' := by
  induction n using Nat.strongRecOn with
  | ind n ih =>
      by_cases hsmall : n < 10
      · rw [Nat.toDigits_of_lt_base hsmall]
        have hdigit : ∀ m < 10, m = 0 ∧ [m.digitChar] = ['0'] ∨ m.digitChar ≠ '0' := by decide
        exact (hdigit n hsmall).imp_right fun h => ⟨_, _, rfl, h⟩
      · have hbase : 10 ≤ n := Nat.le_of_not_lt hsmall
        have hpos : n / 10 ≠ 0 := by omega
        obtain ⟨hzero, -⟩ | ⟨c, s, hs, hc⟩ := ih (n / 10) (by omega)
        · exact absurd hzero hpos
        · rw [Nat.toDigits_of_base_le (by decide) hbase, hs]
          exact Or.inr ⟨c, _, rfl, hc⟩

/-- A digit is none of the characters that are no digits. -/
theorem ne_of_isDigit {d : Char} (hc : isDigit c = true) (hd : isDigit d = false) : c ≠ d := by
  rintro rfl
  rw [hc] at hd
  cases hd

theorem digitValue?_of_isDigit (h : isDigit c = true) :
    digitValue? 10 c = some (c.toNat - '0'.toNat) := by
  have hlow : c.toNat ≤ '9'.toNat := by
    simp only [isDigit, Bool.and_eq_true, decide_eq_true_eq] at h
    exact h.2
  simp only [digitValue?, h, if_true]
  rw [if_pos]
  have : '0'.toNat = 48 := rfl
  have : '9'.toNat = 57 := rfl
  omega

/-- Digits are read as Horner's rule has it. -/
theorem digitsOnto?_eq (h : ∀ c ∈ s, isDigit c = true) (acc : Nat) :
    digitsOnto? 10 acc s = some (Nat.ofDigitChars 10 s acc) := by
  induction s generalizing acc with
  | nil => rfl
  | cons c s ih =>
      rw [List.forall_mem_cons] at h
      rw [digitsOnto?, digitValue?_of_isDigit h.1, Option.bind_some, ih h.2,
        Nat.ofDigitChars_cons, Nat.mul_comm]

/-- More digits make no smaller number. -/
theorem le_ofDigitChars (s : List Char) (acc : Nat) : acc ≤ Nat.ofDigitChars 10 s acc := by
  induction s generalizing acc with
  | nil => exact Nat.le_refl acc
  | cons c s ih =>
      rw [Nat.ofDigitChars_cons]
      exact Nat.le_trans (by omega) (ih _)

/-- **A numeral is read as the number that it was written for.** -/
theorem natOfDigits?_toDigits (n : Nat) : natOfDigits? 10 (Nat.toDigits 10 n) = some n := by
  have hne : (Nat.toDigits 10 n).isEmpty = false := by
    simp
  rw [natOfDigits?, hne, if_neg Bool.false_ne_true,
    digitsOnto?_eq (fun c hc => isDigit_of_mem_toDigits hc),
    Nat.ofDigitChars_toDigits (by decide) (by decide)]

/-- So is one that fits a word, where one is read. -/
theorem readWord?_toDigits (h : n < wordSize) : readWord? (Nat.toDigits 10 n) = some n := by
  have hread : readNat? (Nat.toDigits 10 n) = natOfDigits? 10 (Nat.toDigits 10 n) := by
    obtain ⟨c, s, hs, hc⟩ := exists_toDigits n
    have hsign : c ≠ '+' := ne_of_isDigit hc (by decide)
    rw [hs, readNat?]
    rintro s' hplus
    exact hsign (List.cons.inj hplus).1
  rw [readWord?, hread, natOfDigits?_toDigits]
  simpa using h

end OrderedDispatch.Text
