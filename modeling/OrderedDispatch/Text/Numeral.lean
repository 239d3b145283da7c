/-
**Reading numbers from text.**

Thread counts, exit codes and settings are written in decimal, some of them in another base or
with separators between the digits.  A numeral is read as a whole: a text that is not one numeral
from its first character to its last has no value.

Main definitions:

* `Text.digitValue?` — the value of a digit in a base up to sixteen;
* `Text.natOfDigits?` — the value of a text of digits;
* `Text.readNat?`, `Text.readInt?` — decimal numerals with an optional sign.
-/

set_option relaxedAutoImplicit false
set_option autoImplicit false

namespace OrderedDispatch.Text

/-- An ASCII digit. -/
def isDigit (c : Char) : Bool := '0' ≤ c && c ≤ '9'

/-- An ASCII letter. -/
def isLetter (c : Char) : Bool := ('a' ≤ c && c ≤ 'z') || ('A' ≤ c && c ≤ 'Z')

/-- The value of a digit below the given base, letters standing for ten and more. -/
def digitValue? (base : Nat) (c : Char) : Option Nat :=
  let v :=
    if isDigit c then c.toNat - '0'.toNat
    else if 'a' ≤ c && c ≤ 'f' then c.toNat - 'a'.toNat + 10
    else if 'A' ≤ c && c ≤ 'F' then c.toNat - 'A'.toNat + 10
    else base
  if v < base then some v else none

/-- The value of the digits read onto the value of those before them. -/
def digitsOnto? (base : Nat) (acc : Nat) : List Char → Option Nat
  | [] => some acc
  | c :: s => (digitValue? base c).bind fun v => digitsOnto? base (acc * base + v) s

/-- The value of a text of one or more digits. -/
def natOfDigits? (base : Nat) (s : List Char) : Option Nat :=
  if s.isEmpty then none else digitsOnto? base 0 s

/-- A decimal numeral without a minus sign; a plus sign may precede the digits. -/
def readNat? : List Char → Option Nat
  | '+' :: s => natOfDigits? 10 s
  | s => natOfDigits? 10 s

/-- A decimal numeral with an optional sign. -/
def readInt? : List Char → Option Int
  | '-' :: s => (natOfDigits? 10 s).map fun n => -(n : Int)
  | '+' :: s => (natOfDigits? 10 s).map fun n => (n : Int)
  | s => (natOfDigits? 10 s).map fun n => (n : Int)

/-- One more than the greatest 64-bit word, two to the power of 64. -/
def wordSize : Nat := 18446744073709551616

/-- One more than the greatest signed 64-bit word, two to the power of 63. -/
def signedLimit : Nat := 9223372036854775808

/-- Whether an integer fits a signed 64-bit word. -/
def fitsSigned (n : Int) : Bool := -(signedLimit : Int) ≤ n && n < (signedLimit : Int)

/-- A numeral whose value fits a 64-bit word. -/
def readWord? (s : List Char) : Option Nat :=
  (readNat? s).filter (· < wordSize)

/-- A numeral whose value fits a signed 64-bit word. -/
def readSignedWord? (s : List Char) : Option Int :=
  (readInt? s).filter fitsSigned

end OrderedDispatch.Text
