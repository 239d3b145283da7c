/-
**The shortest decimal of a floating-point number.**

A finite number is written with the fewest digits that read back as the same number and, among
those, as near to it as possible.  The numerals that read back are those of an interval around the
number, whose ends belong to it when the significand is even.  For one digit, two digits and so on
the two numerals next to the number are tried; the first count with a hit wins.

Main definitions:

* `Shortest.Interval` — the numerals that read back, as multiples of a small unit;
* `Shortest.digits` — the shortest digits, with the power of ten that they are multiplied by;
* `Binary64.text` — the number in positional notation;
* `Binary64.textWithPoint` — the same with a decimal point in any case.
-/

import OrderedDispatch.Number.Binary64

set_option relaxedAutoImplicit false
set_option autoImplicit false

namespace OrderedDispatch

namespace Shortest

/-- The numerals that read back as a number, in multiples of one over `den`. -/
structure Interval where
  /-- the lower end -/
  low : Nat
  /-- the number itself -/
  value : Nat
  /-- the upper end -/
  high : Nat
  /-- the unit's reciprocal -/
  den : Nat
  /-- whether the ends belong to the interval -/
  closed : Bool
  deriving DecidableEq, Inhabited

/-- The interval of a positive number: it reaches half way to each neighbour, and the lower
neighbour of a power of two is only half as far away. -/
def Interval.of (significand : Nat) (exponent : Int) : Interval :=
  let below := if significand = 4503599627370496 ∧ Binary64.minExponent < exponent then 1 else 2
  let scale := if 0 ≤ exponent then Nat.pow 2 exponent.toNat else 1
  { low := (4 * significand - below) * scale
    value := 4 * significand * scale
    high := (4 * significand + 2) * scale
    den := if 0 ≤ exponent then 4 else 4 * Nat.pow 2 (-exponent).toNat
    closed := significand % 2 = 0 }

/-- Whether `digits` times `num / den` lies in the interval. -/
def Interval.holds (i : Interval) (digits num den : Nat) : Bool :=
  let x := digits * num * i.den
  if i.closed then i.low * den ≤ x && x ≤ i.high * den
  else i.low * den < x && x < i.high * den

/-- A power of ten as a quotient. -/
def powerOfTen (exponent : Int) : Nat × Nat :=
  if 0 ≤ exponent then (Nat.pow 10 exponent.toNat, 1) else (1, Nat.pow 10 (-exponent).toNat)

/-- The numeral in multiples of a power of ten that lies in the interval, the nearer one if both
neighbours of the number do, and the greater one if they are equally near. -/
def candidate? (i : Interval) (exponent : Int) : Option Nat :=
  let (num, den) := powerOfTen exponent
  let below := i.value * den / (i.den * num)
  let lowFits := i.holds below num den
  let highFits := i.holds (below + 1) num den
  if lowFits && highFits then
    let rest := i.value * den % (i.den * num)
    some (if 2 * rest < i.den * num then below else below + 1)
  else if lowFits then some below
  else if highFits then some (below + 1)
  else none

/-- The first power of ten, from a given one downwards, some multiple of which lies in the interval,
with that multiple. -/
def search (i : Interval) (exponent : Int) : Nat → Nat × Int
  | 0 => (0, exponent)
  | left + 1 =>
      match candidate? i exponent with
      | some digits => (digits, exponent)
      | none => search i (exponent - 1) left

/-- A bound from above on the power of ten just below the number. -/
def magnitude (i : Interval) : Int :=
  ((Nat.toDigits 10 i.value).length : Int) - (Nat.toDigits 10 i.den).length + 1

/-- A numeral without trailing zeros. -/
def trimZeros : Nat → Nat × Int → Nat × Int
  | 0, d => d
  | left + 1, (digits, exponent) =>
      if digits ≠ 0 ∧ digits % 10 = 0 then trimZeros left (digits / 10, exponent + 1)
      else (digits, exponent)

/-- The shortest digits of a positive number, with their power of ten. -/
def digits (significand : Nat) (exponent : Int) : Nat × Int :=
  let i := Interval.of significand exponent
  trimZeros 20 (search i (magnitude i) 20)

/-- Digits times a power of ten in positional notation. -/
def positional (digits : Nat) (exponent : Int) : String :=
  let text := Nat.toDigits 10 digits
  if 0 ≤ exponent then String.ofList (text ++ List.replicate exponent.toNat '0')
  else
    let places := (-exponent).toNat
    let padded := List.replicate (places + 1 - text.length) '0' ++ text
    String.ofList (padded.take (padded.length - places) ++ '.' ::
      padded.drop (padded.length - places))

end Shortest

namespace Binary64

/-- The minus sign of a negative number. -/
def sign (negative : Bool) : String := if negative then "-" else ""

/-- The number in positional notation, with a decimal point only where it has decimal places. -/
def text : Binary64 → String
  | finite negative significand exponent =>
      sign negative ++
        if significand = 0 then "0"
        else
          let (d, e) := Shortest.digits significand exponent
          Shortest.positional d e
  | infinite negative => sign negative ++ "inf"
  | nan => "NaN"

/-- The number in positional notation with a decimal point. -/
def textWithPoint (x : Binary64) : String :=
  if x.text.toList.contains '.' then x.text
  else
    match x with
    | finite _ _ _ => x.text ++ ".0"
    | _ => x.text

end Binary64

end OrderedDispatch
