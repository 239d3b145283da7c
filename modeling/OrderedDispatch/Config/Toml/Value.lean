/-
**Values of TOML.**

Whole numbers fit a signed word and may be written in four bases; digits may be grouped by single
underscores.  Floating-point numbers have places or an exponent or are named.  Lists may spread over
lines and hold comments; inline tables stay on their line, and their keys obey the rules for tables.

Main definitions:

* `Config.Toml.number?` — whole and floating-point numbers;
* `Config.Toml.value?` — a value of any kind.
-/

import OrderedDispatch.Config.Toml.Moment
import OrderedDispatch.Config.Toml.Table
import OrderedDispatch.Config.Toml.Text

set_option relaxedAutoImplicit false
set_option autoImplicit false

namespace OrderedDispatch.Config.Toml

/-! ### Numbers -/

/-- Digits that follow a digit, in groups with single underscores between them. -/
def moreDigits (isDigit : Char → Bool) : List Char → Option (List Char × List Char)
  | '_' :: c :: rest =>
      if isDigit c then (moreDigits isDigit rest).map fun r => (c :: r.1, r.2) else none
  | '_' :: [] => none
  | c :: rest =>
      if isDigit c then (moreDigits isDigit rest).map fun r => (c :: r.1, r.2)
      else some ([], c :: rest)
  | [] => some ([], [])

/-- One digit or more, in groups with single underscores between them. -/
def digits? (isDigit : Char → Bool) : Reader (List Char)
  | c :: rest =>
      if isDigit c then (moreDigits isDigit rest).map fun r => (c :: r.1, r.2) else none
  | [] => none

/-- The digits of a decimal number: a zero stands alone. -/
def decimalDigits? : Reader (List Char)
  | '0' :: rest => some (['0'], rest)
  | s => digits? Text.isDigit s

/-- The sign of a number and what follows it. -/
def sign (s : List Char) : Bool × List Char :=
  match s with
  | '-' :: rest => (true, rest)
  | '+' :: rest => (false, rest)
  | rest => (false, rest)

/-- A whole number in a base other than ten, after its mark. -/
def basedInteger? (base : Nat) (s : List Char) : Option (Scalar × List Char) := do
  let (digits, rest) ← digits? (fun c => (Text.digitValue? base c).isSome) s
  let n ← Text.natOfDigits? base digits
  if n < Text.signedLimit then some (.int true n, rest) else none

/-- The places of a number, if its digits are followed by a point. -/
def places? : Reader (List Char)
  | '.' :: rest => digits? Text.isDigit rest
  | s => some ([], s)

/-- The exponent of a number, if its digits are followed by the letter for one. -/
def exponent? : Reader (Option Int)
  | c :: rest =>
      if c = 'e' || c = 'E' then do
        let (negative, body) := sign rest
        let (digits, rest) ← digits? Text.isDigit body
        let n ← Text.natOfDigits? 10 digits
        some (some (if negative then -(n : Int) else n), rest)
      else some (none, c :: rest)
  | [] => some (none, [])

/-- A decimal number: floating-point if it has places or an exponent.  A number too great for a
floating-point number is refused, unless it is negative. -/
def decimal? (s : List Char) : Option (Scalar × List Char) := do
  let (negative, body) := sign s
  let (whole, rest) ← decimalDigits? body
  let (places, afterPlaces) ← places? rest
  let (exponent, rest) ← exponent? afterPlaces
  let digits ← Text.natOfDigits? 10 (whole ++ places)
  if places.isEmpty && exponent.isNone then
    let n : Int := if negative then -(digits : Int) else digits
    if Text.fitsSigned n then some (.int true n, rest) else none
  else
    let x := Binary64.ofDecimal negative digits (exponent.getD 0 - places.length)
    if x = .infinite false then none else some (.float x, rest)

/-- A floating-point number that has a name. -/
def named? (s : List Char) : Option (Scalar × List Char) :=
  let (negative, body) := sign s
  match body with
  | 'i' :: 'n' :: 'f' :: rest => some (.float (.infinite negative), rest)
  | 'n' :: 'a' :: 'n' :: rest => some (.float .nan, rest)
  | _ => none

/-- A number of any kind. -/
def number? (s : List Char) : Option (Scalar × List Char) :=
  match s with
  | '0' :: 'x' :: rest => basedInteger? 16 rest
  | '0' :: 'o' :: rest => basedInteger? 8 rest
  | '0' :: 'b' :: rest => basedInteger? 2 rest
  | s =>
      match named? s with
      | some r => some r
      | none => decimal? s

/-! ### Containers -/

/-- A text without the comment at its front; `none` if the comment holds a control character. -/
def skipComment? : List Char → Option (List Char)
  | '#' :: rest =>
      let rest := rest.dropWhile isVisible
      if rest.isEmpty || (newline? rest).isSome then some rest else none
  | s => some s

/-- A text without the white space, line breaks and comments at its front. -/
def skipBlank? : Nat → List Char → Option (List Char)
  | 0, _ => none
  | steps + 1, s => do
      let s ← skipComment? (skipSpace s)
      match newline? s with
      | some rest => skipBlank? steps rest
      | none => some s

/-- The rest of a list after its opening bracket or after one of its commas. -/
def items? (value? : Reader Doc) : Nat → List Doc → Reader (List Doc)
  | 0, _, _ => none
  | steps + 1, acc, s => do
      let s ← skipBlank? (s.length + 1) s
      match s with
      | ']' :: rest => some (acc.reverse, rest)
      | s =>
          let (v, rest) ← value? s
          let rest ← skipBlank? (rest.length + 1) rest
          match rest with
          | ',' :: rest => items? value? steps (v :: acc) rest
          | ']' :: rest => some ((v :: acc).reverse, rest)
          | _ => none

/-- A key, the sign of equality, and a value. -/
def pair? (value? : Reader Doc) : Reader Pair := fun s => do
  let (path, rest) ← key? s
  match rest with
  | '=' :: rest =>
      let (v, rest) ← value? (skipSpace rest)
      some (⟨path.dropLast, path.getLastD [], v⟩, rest)
  | _ => none

/-- The pairs of an inline table after its opening brace or after one of its commas. -/
def pairs? (value? : Reader Doc) : Nat → List Pair → Reader (List Pair)
  | 0, _, _ => none
  | steps + 1, acc, s => do
      let (p, rest) ← pair? value? s
      match skipSpace rest with
      | ',' :: rest => pairs? value? steps (p :: acc) rest
      | '\x7d' :: rest => some ((p :: acc).reverse, rest)
      | _ => none

/-- The key under which a moment stands in a table of its own. -/
def momentKey : Key := "$__toml_private_datetime".toList

/-- A moment or a number. -/
def plain? (s : List Char) : Option (Doc × List Char) :=
  match moment? s with
  | some (m, rest) => some (.table [(momentKey, .ofText m)], rest)
  | none => (number? s).map fun r => (.scalar r.1, r.2)

/-- A value whose containers nest at most so deep. -/
def value? : Nat → Reader Doc
  | depth, s =>
      match s with
      | 't' :: 'r' :: 'u' :: 'e' :: rest => some (.scalar (.bool true), rest)
      | 'f' :: 'a' :: 'l' :: 's' :: 'e' :: rest => some (.scalar (.bool false), rest)
      | '[' :: rest =>
          match depth with
          | 0 => none
          | depth + 1 => (items? (value? depth) (rest.length + 1) [] rest).map fun r =>
              (.list r.1, r.2)
      | '\x7b' :: rest =>
          match depth with
          | 0 => none
          | depth + 1 =>
              match skipSpace rest with
              | '\x7d' :: rest => some (.table [], rest)
              | _ => do
                  let (pairs, rest) ← pairs? (value? depth) (rest.length + 1) [] rest
                  let entries ← ofPairs? pairs
                  some (entries, rest)
      | c :: rest =>
          if c = '"' || c = '\'' then (string? (c :: rest)).map fun r => (.ofText r.1, r.2)
          else plain? (c :: rest)
      | [] => none

/-- How deep lists and inline tables may nest. -/
def maxDepth : Nat := 79

end OrderedDispatch.Config.Toml
