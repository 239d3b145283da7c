/-
**Text as bytes.**

The shell works on bytes.  It holds each of them as the character of the same number, so that a text
of the shell is a list of characters below 256, whatever the bytes spell.

Main definitions:

* `Octets.ofBytes`, `Octets.toBytes` — between bytes and texts of the shell;
* `Octets.ofText`, `Octets.toText` — between ordinary texts and texts of the shell.

Main results:

* `Octets.toBytes_ofBytes` — no byte is lost.
-/

import OrderedDispatch.Text.Utf8

set_option relaxedAutoImplicit false
set_option autoImplicit false

namespace OrderedDispatch.Shell.Octets

/-- The characters that stand for some bytes. -/
def ofBytes (bytes : List UInt8) : List Char := bytes.map fun b => Char.ofNat b.toNat

/-- The bytes that some characters stand for. -/
def toBytes (s : List Char) : List UInt8 := s.map fun c => UInt8.ofNat c.toNat

/-- The characters that stand for the bytes of a text. -/
def ofText (s : List Char) : List Char := ofBytes (Text.encode s)

/-- The text that the bytes behind some characters spell, or else the characters themselves. -/
def toText (s : List Char) : List Char := (Text.decode (toBytes s)).getD s

/-- The number of the character that stands for a byte. -/
theorem toNat_ofNat (b : UInt8) : (Char.ofNat b.toNat).toNat = b.toNat := by
  have h : b.toNat.isValidChar := Or.inl (by have := b.toNat_lt; omega)
  rw [Char.ofNat, dif_pos h]
  rfl

/-- No byte is lost. -/
theorem toBytes_ofBytes (bytes : List UInt8) : toBytes (ofBytes bytes) = bytes := by
  induction bytes with
  | nil => rfl
  | cons b bytes ih =>
      rw [ofBytes, toBytes] at ih
      simp [ofBytes, toBytes, toNat_ofNat, ih]

end OrderedDispatch.Shell.Octets
