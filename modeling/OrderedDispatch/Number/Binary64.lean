/-
**Floating-point numbers of 64 bits.**

A setting may be given as a fraction, although no setting is one; it is then shown in an error
message or handed out again, so it has to be read and written exactly.  A finite number is a
significand below `2 ^ 53` times a power of two.  A decimal numeral is read as the nearest of those,
a tie going to the even significand, by exact arithmetic on natural numbers.

Main definitions:

* `Binary64` — a floating-point number;
* `Number.roundDiv` — a quotient rounded to the nearest integer;
* `Binary64.ofRatio`, `Binary64.ofDecimal` — the number nearest to a quotient and to a decimal
  numeral;
* `Binary64.timesPowerOfTen`, `Binary64.overPowerOfTen` — scaling by a rounded power of ten.

Main results:

* `Number.roundDiv_mul_le`, `Number.le_roundDiv_mul` — a rounded quotient is off by at most a half.
-/

set_option relaxedAutoImplicit false
set_option autoImplicit false

namespace OrderedDispatch

namespace Number

/-- The quotient rounded to the nearest integer, a tie to the even one. -/
def roundDiv (num den : Nat) : Nat :=
  let q := num / den
  let r := num % den
  if 2 * r < den then q
  else if den < 2 * r then q + 1
  else q + q % 2

/-- A rounded quotient is at most a half too great. -/
theorem roundDiv_mul_le (num den : Nat) : 2 * (roundDiv num den * den) ≤ 2 * num + den := by
  have h := Nat.div_add_mod num den
  rw [Nat.mul_comm] at h
  simp only [roundDiv]
  split
  · omega
  · split
    · rw [Nat.add_mul, Nat.one_mul]
      omega
    · rcases Nat.mod_two_eq_zero_or_one (num / den) with h2 | h2 <;> rw [h2, Nat.add_mul] <;> omega

/-- A rounded quotient is at most a half too small. -/
theorem le_roundDiv_mul (num : Nat) {den : Nat} (hden : 0 < den) :
    2 * num ≤ 2 * (roundDiv num den * den) + den := by
  have h := Nat.div_add_mod num den
  rw [Nat.mul_comm] at h
  simp only [roundDiv]
  split
  · omega
  · split
    · have := Nat.mod_lt num hden
      rw [Nat.add_mul, Nat.one_mul]
      omega
    · rcases Nat.mod_two_eq_zero_or_one (num / den) with h2 | h2 <;> rw [h2, Nat.add_mul] <;> omega

/-- A numerator and a denominator whose quotient is `num / den` divided by a power of two. -/
def scaleDown (num den : Nat) (exponent : Int) : Nat × Nat :=
  if 0 ≤ exponent then (num, den * Nat.pow 2 exponent.toNat)
  else (num * Nat.pow 2 (-exponent).toNat, den)

end Number

/-- A floating-point number.  A finite one is its significand times a power of two. -/
inductive Binary64 where
  | finite (negative : Bool) (significand : Nat) (exponent : Int)
  | infinite (negative : Bool)
  | nan
  deriving DecidableEq, Inhabited

namespace Binary64

/-- The least exponent of a finite number. -/
def minExponent : Int := -1074

/-- The greatest exponent of a finite number. -/
def maxExponent : Int := 971

/-- One more than the greatest significand. -/
def significandBound : Nat := 9007199254740992

/-- Zero. -/
def zero (negative : Bool) : Binary64 := .finite negative 0 minExponent

/-- A number that is not negative. -/
def isNonNegative : Binary64 → Bool
  | finite negative _ _ => !negative
  | infinite negative => !negative
  | nan => true

/-- A significand just rounded, which may have reached its bound, times a power of two. -/
def normalize (negative : Bool) (significand : Nat) (exponent : Int) : Binary64 :=
  let (s, e) := if significandBound ≤ significand then (significand / 2, exponent + 1)
    else (significand, exponent)
  if maxExponent < e then .infinite negative else .finite negative s e

/-- The exponent with which a positive quotient has a significand of 53 bits, or the least one. -/
def exponentFor (num den : Nat) : Int :=
  let guess := max ((num.log2 : Int) - den.log2 - 53) minExponent
  let (n, d) := Number.scaleDown num den guess
  if significandBound ≤ n / d then guess + 1 else guess

/-- The number nearest to a quotient, a tie going to the even significand. -/
def ofRatio (negative : Bool) (num den : Nat) : Binary64 :=
  if num = 0 then zero negative
  else
    let e := exponentFor num den
    let (n, d) := Number.scaleDown num den e
    normalize negative (Number.roundDiv n d) e

/-- The number nearest to `digits` times a power of ten.  Beyond these exponents every numeral is
infinite or zero, and the power is not worked out. -/
def ofDecimal (negative : Bool) (digits : Nat) (exponent : Int) : Binary64 :=
  if digits = 0 then zero negative
  else if 400 < exponent then .infinite negative
  else if exponent + (Nat.toDigits 10 digits).length < -400 then zero negative
  else if 0 ≤ exponent then ofRatio negative (digits * Nat.pow 10 exponent.toNat) 1
  else ofRatio negative digits (Nat.pow 10 (-exponent).toNat)

/-- The magnitude of a finite number as a quotient. -/
def ratio (significand : Nat) (exponent : Int) : Nat × Nat :=
  if 0 ≤ exponent then (significand * Nat.pow 2 exponent.toNat, 1)
  else (significand, Nat.pow 2 (-exponent).toNat)

/-- Whether the number is a zero. -/
def isZero : Binary64 → Bool
  | finite _ significand _ => significand = 0
  | _ => false

/-- A finite number times a power of ten, where the power is rounded first and the product after
it; numbers that are not finite stay as they are. -/
def timesPowerOfTen (x : Binary64) (power : Nat) : Binary64 :=
  match x, ofDecimal false 1 power with
  | finite negative s e, finite _ t f =>
      let (n, d) := ratio s e
      let (m, c) := ratio t f
      ofRatio negative (n * m) (d * c)
  | x, _ => x

/-- A finite number divided by a power of ten, where the power is rounded first and the quotient
after it; numbers that are not finite stay as they are. -/
def overPowerOfTen (x : Binary64) (power : Nat) : Binary64 :=
  match x, ofDecimal false 1 power with
  | finite negative s e, finite _ t f =>
      let (n, d) := ratio s e
      let (m, c) := ratio t f
      ofRatio negative (n * c) (d * m)
  | x, _ => x

end Binary64

end OrderedDispatch
