/-
**Reading JSON.**

A text is one JSON value with white space around it.  Of two entries with the same key the later
one counts.  Containers nest at most 127 deep.  A whole number that fits a word is kept exactly; any
other number is a floating-point number, whose digits are rounded to one before it is scaled by a
power of ten, and which must be finite.  The whole number zero has no sign, so `-0` is a
floating-point number too.

Main definitions:

* `Config.Json.number?`, `Config.Json.string?`, `Config.Json.value?` — readers for the parts;
* `Config.Json.read?` — the value that a whole text spells.
-/

import OrderedDispatch.Config.Doc
import OrderedDispatch.Config.Reader

set_option relaxedAutoImplicit false
set_option autoImplicit false

namespace OrderedDispatch.Config.Json

/-- White space between the parts of a value. -/
def isSpace (c : Char) : Bool := c = ' ' || c = '\n' || c = '\t' || c = '\r'

/-- A text without the white space at its front. -/
def skipSpace (s : List Char) : List Char := s.dropWhile isSpace

/-! ### Numbers -/

/-- Digits read so far: their value as long as it fits a word, and the power of ten that stands for
digits left out or for places. -/
structure Digits where
  value : Nat
  exponent : Int
  /-- whether a digit did not fit any more -/
  full : Bool
  deriving DecidableEq, Inhabited

/-- One more digit before the point: the first that does not fit, and all after it, only count. -/
def Digits.pushWhole (d : Digits) (c : Char) : Digits :=
  let v := d.value * 10 + (c.toNat - '0'.toNat)
  if d.full || Text.wordSize ≤ v then { d with exponent := d.exponent + 1, full := true }
  else { d with value := v }

/-- One more digit after the point: the first that does not fit, and all after it, are dropped. -/
def Digits.pushPlace (d : Digits) (c : Char) : Digits :=
  let v := d.value * 10 + (c.toNat - '0'.toNat)
  if d.full || Text.wordSize ≤ v then { d with full := true }
  else { d with value := v, exponent := d.exponent - 1 }

/-- A finite number times a power of ten, in steps of at most 308; `none` if it is too great. -/
def scale? : Nat → Binary64 → Int → Option Binary64
  | 0, x, _ => some x
  | steps + 1, x, exponent =>
      if 0 ≤ exponent ∧ exponent ≤ 308 then
        match x.timesPowerOfTen exponent.toNat with
        | .infinite _ => none
        | y => some y
      else if -308 ≤ exponent ∧ exponent < 0 then some (x.overPowerOfTen (-exponent).toNat)
      else if x.isZero then some x
      else if 0 ≤ exponent then none
      else scale? steps (x.overPowerOfTen 308) (exponent + 308)

/-- The floating-point number of some digits. -/
def Digits.toBinary? (negative : Bool) (d : Digits) : Option Binary64 :=
  scale? 8 (Binary64.ofDecimal negative d.value 0) d.exponent

/-- The digits before the point: one zero, or digits of which the first is not a zero. -/
def whole? (s : List Char) : Option (List Char × List Char) :=
  match s with
  | '0' :: rest =>
      match rest with
      | c :: _ => if Text.isDigit c then none else some (['0'], rest)
      | [] => some (['0'], rest)
  | _ =>
      let (digits, rest) := spanWhile Text.isDigit s
      if digits.isEmpty then none else some (digits, rest)

/-- The exponent after its letter. -/
def exponent? (s : List Char) : Option (Int × List Char) :=
  let (negative, body) := match s with
    | '-' :: r => (true, r)
    | '+' :: r => (false, r)
    | r => (false, r)
  let (digits, rest) := spanWhile Text.isDigit body
  (Text.natOfDigits? 10 digits).map fun n => (if negative then -(n : Int) else n, rest)

/-- What is read after the digits before the point: places, an exponent, both or neither; and
whether there was any of it. -/
def fraction? (d : Digits) (s : List Char) : Option ((Digits × Bool) × List Char) := do
  let (d, some', s) ← match s with
    | '.' :: r =>
        let (places, rest) := spanWhile Text.isDigit r
        if places.isEmpty then none
        else some (places.foldl Digits.pushPlace { d with full := false }, true, rest)
    | r => some (d, false, r)
  let isExponent (c : Char) : Bool := c = 'e' || c = 'E'
  match s with
  | c :: r =>
      if isExponent c then
        let (e, rest) ← exponent? r
        some (({ d with exponent := d.exponent + e }, true), rest)
      else some ((d, some'), s)
  | [] => some ((d, some'), s)

/-- The value of a number without places and exponent. -/
def wholeNumber? (negative : Bool) (d : Digits) : Option Scalar :=
  if d.full then (d.toBinary? negative).map .float
  else if !negative then some (.int false d.value)
  else if 0 < d.value ∧ d.value ≤ Text.signedLimit then some (.int true (-(d.value : Int)))
  else some (.float (Binary64.ofDecimal true d.value 0))

/-- A number. -/
def number? (s : List Char) : Option (Scalar × List Char) := do
  let (negative, body) := match s with
    | '-' :: r => (true, r)
    | r => (false, r)
  let (digits, rest) ← whole? body
  let whole := digits.foldl Digits.pushWhole ⟨0, 0, false⟩
  let ((d, isFraction), rest) ← fraction? whole rest
  let value ← if isFraction then (d.toBinary? negative).map .float
    else wholeNumber? negative d
  some (value, rest)

/-! ### Strings -/

/-- The character of a letter after a backslash. -/
def escape? : Char → Option Char
  | '"' => some '"'
  | '\\' => some '\\'
  | '/' => some '/'
  | 'b' => some '\x08'
  | 'f' => some '\x0c'
  | 'n' => some '\n'
  | 'r' => some '\r'
  | 't' => some '\t'
  | _ => none

/-- The character named after a backslash and a `u`: four hexadecimal digits, or twice four for the
two halves of a surrogate pair. -/
def unicode? (s : List Char) : Option (Char × List Char) := do
  let (high, rest) ← hexNumber? 4 s
  if high < 0xD800 || 0xE000 ≤ high then some (Char.ofNat high, rest)
  else if 0xDC00 ≤ high then none
  else
    match rest with
    | '\\' :: 'u' :: rest => do
        let (low, rest) ← hexNumber? 4 rest
        if 0xDC00 ≤ low && low < 0xE000 then
          some (Char.ofNat (0x10000 + (high - 0xD800) * 0x400 + (low - 0xDC00)), rest)
        else none
    | _ => none

/-- The rest of a string after its opening quote; the characters so far come last first. -/
def string? : Nat → List Char → List Char → Option (List Char × List Char)
  | 0, _, _ => none
  | steps + 1, acc, s =>
      match s with
      | '"' :: rest => some (acc.reverse, rest)
      | '\\' :: 'u' :: rest => do
          let (c, rest) ← unicode? rest
          string? steps (c :: acc) rest
      | '\\' :: c :: rest => do
          let c ← escape? c
          string? steps (c :: acc) rest
      | c :: rest => if c.toNat < 0x20 then none else string? steps (c :: acc) rest
      | [] => none

/-! ### Containers -/

/-- The rest of a list after its opening bracket. -/
def items? (value? : Reader Doc) : Nat → List Doc → List Char → Option (List Doc × List Char)
  | 0, _, _ => none
  | steps + 1, acc, s => do
      let (v, rest) ← value? (skipSpace s)
      match skipSpace rest with
      | ',' :: rest => items? value? steps (v :: acc) rest
      | ']' :: rest => some ((v :: acc).reverse, rest)
      | _ => none

/-- The rest of a table after its opening brace. -/
def entries? (value? : Reader Doc) :
    Nat → List (Key × Doc) → List Char → Option (List (Key × Doc) × List Char)
  | 0, _, _ => none
  | steps + 1, acc, s =>
      match skipSpace s with
      | '"' :: rest => do
          let (key, rest) ← string? (rest.length + 1) [] rest
          match skipSpace rest with
          | ':' :: rest => do
              let (v, rest) ← value? (skipSpace rest)
              match skipSpace rest with
              | ',' :: rest => entries? value? steps (Entries.put key v acc) rest
              | '\x7d' :: rest => some (Entries.put key v acc, rest)
              | _ => none
          | _ => none
      | _ => none

/-- A value whose containers nest at most so deep. -/
def value? : Nat → Reader Doc
  | depth, s =>
      match s with
      | 'n' :: 'u' :: 'l' :: 'l' :: rest => some (.scalar .null, rest)
      | 't' :: 'r' :: 'u' :: 'e' :: rest => some (.scalar (.bool true), rest)
      | 'f' :: 'a' :: 'l' :: 's' :: 'e' :: rest => some (.scalar (.bool false), rest)
      | '"' :: rest =>
          (string? (rest.length + 1) [] rest).map fun r => (.ofText r.1, r.2)
      | '[' :: rest =>
          match depth with
          | 0 => none
          | depth + 1 =>
              match skipSpace rest with
              | ']' :: rest => some (.list [], rest)
              | rest => (items? (value? depth) (rest.length + 1) [] rest).map fun r =>
                  (.list r.1, r.2)
      | '\x7b' :: rest =>
          match depth with
          | 0 => none
          | depth + 1 =>
              match skipSpace rest with
              | '\x7d' :: rest => some (.table [], rest)
              | rest => (entries? (value? depth) (rest.length + 1) [] rest).map fun r =>
                  (.table r.1, r.2)
      | s => (number? s).map fun r => (.scalar r.1, r.2)

/-- How deep containers may nest. -/
def maxDepth : Nat := 127

/-- The value that a whole text spells. -/
def read? (s : List Char) : Option Doc := do
  let (v, rest) ← value? maxDepth (skipSpace s)
  if (skipSpace rest).isEmpty then some v else none

end OrderedDispatch.Config.Json
