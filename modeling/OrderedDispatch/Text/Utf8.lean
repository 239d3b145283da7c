/-
**Reading bytes as UTF-8.**

What a child process prints, what standard input holds and what a file contains are bytes.  A text
is read from them by the table of well-formed byte sequences: no overlong form, no surrogate and
nothing above U+10FFFF.

Main definitions:

* `Text.encode` — the bytes of a text;
* `Text.decodeHead` — the first character of a byte sequence and the bytes after it;
* `Text.decode` — the text that the bytes spell, if they spell one.
-/

set_option relaxedAutoImplicit false
set_option autoImplicit false

namespace OrderedDispatch.Text

/-- The UTF-8 bytes of a text. -/
def encode (s : List Char) : List UInt8 := s.flatMap String.utf8EncodeChar

@[simp] theorem encode_nil : encode [] = [] := rfl

@[simp] theorem encode_append (s t : List Char) : encode (s ++ t) = encode s ++ encode t := by
  simp [encode]

/-- The bytes of a string, as a list. -/
def bytesOf (s : String) : List UInt8 := s.toUTF8.toList

/-- A continuation byte carries six bits below the mark `10`. -/
def isContinuation (b : UInt8) : Bool := 0x80 ≤ b.toNat && b.toNat < 0xC0

/-- The six bits of a continuation byte. -/
def payload (b : UInt8) : Nat := b.toNat % 0x40

/-- The character that a lead byte begins, with the bytes after it.  The ranges for the second byte
exclude overlong forms, surrogates and code points above U+10FFFF. -/
def decodeHead (b : UInt8) (r : List UInt8) : Option (Char × List UInt8) :=
  let n := b.toNat
  if n < 0x80 then some (Char.ofNat n, r)
  else if n < 0xC2 then none
  else if n < 0xE0 then
    match r with
    | b1 :: r1 =>
        if isContinuation b1 then some (Char.ofNat (n % 0x20 * 0x40 + payload b1), r1) else none
    | _ => none
  else if n < 0xF0 then
    match r with
    | b1 :: b2 :: r2 =>
        let code := (n % 0x10 * 0x40 + payload b1) * 0x40 + payload b2
        if isContinuation b1 && isContinuation b2 && 0x800 ≤ code
            && !(0xD800 ≤ code && code < 0xE000) then
          some (Char.ofNat code, r2)
        else none
    | _ => none
  else if n < 0xF5 then
    match r with
    | b1 :: b2 :: b3 :: r3 =>
        let code := ((n % 0x08 * 0x40 + payload b1) * 0x40 + payload b2) * 0x40 + payload b3
        if isContinuation b1 && isContinuation b2 && isContinuation b3 && 0x10000 ≤ code
            && code < 0x110000 then
          some (Char.ofNat code, r3)
        else none
    | _ => none
  else none

/-- A character takes at least its lead byte. -/
theorem length_le_of_decodeHead {b : UInt8} {r rest : List UInt8} {c : Char}
    (h : decodeHead b r = some (c, rest)) : rest.length ≤ r.length := by
  unfold decodeHead at h
  grind

/-- Reads characters onto an accumulator that holds the text so far, last character first. -/
def decodeOnto (acc : List Char) : List UInt8 → Option (List Char)
  | [] => some acc.reverse
  | b :: r =>
      match _ : decodeHead b r with
      | none => none
      | some (c, rest) => decodeOnto (c :: acc) rest
  termination_by bytes => bytes.length
  decreasing_by
    have := length_le_of_decodeHead ‹_›
    simp only [List.length_cons]
    omega

/-- The text that the bytes spell; `none` unless the whole sequence is well-formed UTF-8. -/
def decode (bytes : List UInt8) : Option (List Char) := decodeOnto [] bytes

end OrderedDispatch.Text
