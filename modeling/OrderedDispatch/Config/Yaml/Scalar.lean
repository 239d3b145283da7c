/-
**Plain scalars of YAML.**

A scalar that is neither quoted nor tagged is taken for what it looks like: nothing, a truth value,
a whole number in one of four bases, a floating-point number, and otherwise a text.  A decimal
number with a superfluous leading zero is a text, and so is a floating-point number that is too
great.

Main definitions:

* `Config.Yaml.resolve` — the value of a plain scalar;
* `Config.Yaml.resolveTagged?` — the value of a scalar with one of the standard tags.
-/

import OrderedDispatch.Config.Doc
import OrderedDispatch.Config.Reader
import OrderedDispatch.Text.Pattern

set_option relaxedAutoImplicit false
set_option autoImplicit false

namespace OrderedDispatch.Config.Yaml

/-- The spellings of no value. -/
def nullWords : List String := ["null", "Null", "NULL", "~"]

/-- Whether a text is one of some words. -/
def isWord (words : List String) (s : List Char) : Bool := words.any fun w => w.toList = s

/-- The truth value that a text spells. -/
def bool? (s : List Char) : Option Bool :=
  if isWord ["true", "True", "TRUE"] s then some true
  else if isWord ["false", "False", "FALSE"] s then some false
  else none

/-- A text without one sign at its front. -/
def unsigned : List Char → List Char
  | '-' :: rest => rest
  | '+' :: rest => rest
  | rest => rest

/-- Whether a text would be a decimal number but for a superfluous leading zero. -/
def hasLeadingZero (s : List Char) : Bool :=
  match unsigned s with
  | '0' :: rest => !rest.isEmpty && rest.all Text.isDigit
  | _ => false

/-- The number after the mark of a base, if the text starts with such a mark; the inner `none` is a
mark that no number follows. -/
def based? (s : List Char) : Option (Option Nat) :=
  match s with
  | '0' :: 'x' :: rest => some (Text.natOfDigits? 16 rest)
  | '0' :: 'o' :: rest => some (Text.natOfDigits? 8 rest)
  | '0' :: 'b' :: rest => some (Text.natOfDigits? 2 rest)
  | _ => none

/-- The whole number without minus sign that a text spells. -/
def natural? (s : List Char) : Option Nat :=
  let body := match s with
    | '+' :: rest => rest
    | rest => rest
  match based? body with
  | some n => n
  | none => if hasLeadingZero s then none else Text.natOfDigits? 10 body

/-- The size of the whole number with minus sign that a text spells. -/
def negative? (s : List Char) : Option Nat :=
  match s with
  | '-' :: body =>
      match based? body with
      | some n => n
      | none => if hasLeadingZero s then none else Text.natOfDigits? 10 body
  | _ => none

/-- The whole number that a text spells, if it has at most 128 bits. -/
def integer? (s : List Char) : Option Scalar :=
  match natural? s with
  | some n => if n < Text.wordSize * Text.wordSize then some (.int false n) else none
  | none =>
      match negative? s with
      | some n =>
          if n ≤ Text.signedLimit * Text.wordSize then some (.int true (-(n : Int))) else none
      | none => none

/-- The floating-point number that a text spells. -/
def float? (s : List Char) : Option Binary64 :=
  if isWord [".inf", ".Inf", ".INF", "+.inf", "+.Inf", "+.INF"] s then some (.infinite false)
  else if isWord ["-.inf", "-.Inf", "-.INF"] s then some (.infinite true)
  else if isWord [".nan", ".NaN", ".NAN"] s then some .nan
  else
    match decimalOf? s with
    | none => none
    | some d =>
        match d.toBinary with
        | .infinite _ => none
        | x => some x

/-- The value of a plain scalar. -/
def resolve (s : List Char) : Scalar :=
  if s.isEmpty || isWord nullWords s then .null
  else
    match bool? s with
    | some b => .bool b
    | none =>
        match integer? s with
        | some n => n
        | none =>
            match (if hasLeadingZero s then none else float? s) with
            | some x => .float x
            | none => .text s

/-- The value of a scalar with a standard tag; `none` if the scalar is not of that kind. -/
def resolveTagged? (tag : List Char) (s : List Char) : Option Scalar :=
  if tag = "bool".toList then (bool? s).map .bool
  else if tag = "int".toList then integer? s
  else if tag = "float".toList then (float? s).map .float
  else if tag = "null".toList then (if isWord nullWords s then some .null else none)
  else some (.text s)

end OrderedDispatch.Config.Yaml
