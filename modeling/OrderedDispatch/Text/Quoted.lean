/-
**Texts quoted in messages.**

A message that names an item or the value of a setting puts it between double quotes and escapes
what could be misread: the quote and the backslash, the usual control characters by their letters,
and everything else that is not printable by its code point.

Main definitions:

* `Text.lowerHex` — the hexadecimal digits of a number;
* `Text.escapeChar`, `Text.quoted` — a character and a text as a message shows them.
-/

import OrderedDispatch.Text.Printable

set_option relaxedAutoImplicit false
set_option autoImplicit false

namespace OrderedDispatch.Text

/-- The hexadecimal digits of a number, in lower case and without leading zeros. -/
def lowerHex (n : Nat) : String := String.ofList (Nat.toDigits 16 n)

/-- A character inside a quoted text. -/
def escapeChar (c : Char) : String :=
  if c = '\t' then "\\t"
  else if c = '\r' then "\\r"
  else if c = '\n' then "\\n"
  else if c.toNat = 0 then "\\0"
  else if c = '"' then "\\\""
  else if c = '\\' then "\\\\"
  else if isPrintable c then c.toString
  else "\\u\x7b" ++ lowerHex c.toNat ++ "\x7d"

/-- A text between double quotes, with its unusual characters escaped. -/
def quoted (s : String) : String :=
  "\"" ++ String.join (s.toList.map escapeChar) ++ "\""

end OrderedDispatch.Text
