/-
**Pieces shared by all readers.**

The notations that settings are written in differ in nearly everything, but all of them take
characters off the front of a text.  A reader answers with what it found and with the rest of the
text, or refuses.

Main definitions:

* `Config.Reader` — takes something off the front of a text;
* `Config.spanWhile` — the longest start of a text whose characters satisfy a condition;
* `Config.hexCode?` — the character named by a fixed number of hexadecimal digits.

Main results:

* `Config.spanWhile_append` — nothing of the text is lost.
-/

import OrderedDispatch.Number.Binary64
import OrderedDispatch.Text.Numeral

set_option relaxedAutoImplicit false
set_option autoImplicit false

namespace OrderedDispatch.Config

/-- Takes something off the front of a text, or refuses. -/
abbrev Reader (α : Type) := List Char → Option (α × List Char)

/-- The longest start of a text whose characters satisfy a condition, and the rest. -/
def spanWhile (p : Char → Bool) (s : List Char) : List Char × List Char :=
  (s.takeWhile p, s.dropWhile p)

theorem spanWhile_append (p : Char → Bool) (s : List Char) :
    (spanWhile p s).1 ++ (spanWhile p s).2 = s := List.takeWhile_append_dropWhile

/-- Whether a number names a character: it is in range and no half of a surrogate pair. -/
def isScalarCode (n : Nat) : Bool := n < 0xD800 || (0xE000 ≤ n && n < 0x110000)

/-- The number spelt by so many hexadecimal digits at the front of a text. -/
def hexNumber? (count : Nat) (s : List Char) : Option (Nat × List Char) :=
  if (s.take count).length = count then
    (Text.natOfDigits? 16 (s.take count)).map fun n => (n, s.drop count)
  else none

/-- The character named by so many hexadecimal digits at the front of a text. -/
def hexCode? (count : Nat) (s : List Char) : Option (Char × List Char) := do
  let (n, rest) ← hexNumber? count s
  if isScalarCode n then some (Char.ofNat n, rest) else none

/-- A decimal numeral with places and an exponent, as a sign, the digits without the point, and the
power of ten that they are multiplied by. -/
structure Decimal where
  negative : Bool
  digits : Nat
  exponent : Int
  deriving DecidableEq, Inhabited

/-- The decimal numeral that a whole text spells: digits with at most one point among them, at
least one digit, and perhaps an exponent. -/
def decimalOf? (s : List Char) : Option Decimal := do
  let (negative, body) := match s with
    | '-' :: r => (true, r)
    | '+' :: r => (false, r)
    | r => (false, r)
  let (whole, afterWhole) := spanWhile Text.isDigit body
  let (places, afterPlaces) := match afterWhole with
    | '.' :: r => spanWhile Text.isDigit r
    | r => ([], r)
  let digits ← Text.natOfDigits? 10 (whole ++ places)
  let exponent ← match afterPlaces with
    | [] => some 0
    | 'e' :: r => Text.readInt? r
    | 'E' :: r => Text.readInt? r
    | _ => none
  some { negative, digits, exponent := exponent - places.length }

/-- The floating-point number nearest to a decimal numeral. -/
def Decimal.toBinary (d : Decimal) : Binary64 := Binary64.ofDecimal d.negative d.digits d.exponent

end OrderedDispatch.Config
