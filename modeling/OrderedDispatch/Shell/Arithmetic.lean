/-
**Arithmetic expressions.**

The shell computes with signed words of 64 bits.  An expression is read into a tree, with the
precedences of its operators, and then evaluated: a variable that is unset or empty counts as zero,
the second operand of `&&`, `||` and `?:` is evaluated only if it matters, and assignments take
effect from left to right.

Main definitions:

* `Arithmetic.Expr`, `Arithmetic.read?` — an expression and its reading;
* `Arithmetic.wrap` — an integer as a signed word;
* `Arithmetic.eval?` — the value of an expression, with the variables that it leaves.

Main results:

* `Arithmetic.wrap_of_fits` — what fits a word is left alone.
-/

import OrderedDispatch.Text.Numeral

set_option relaxedAutoImplicit false
set_option autoImplicit false

namespace OrderedDispatch.Shell.Arithmetic

/-- The operators that take two values. -/
inductive Binary where
  | or | and | bitOr | bitXor | bitAnd
  | eq | ne | lt | le | gt | ge
  | shiftLeft | shiftRight
  | add | sub | mul | div | mod
  deriving DecidableEq, Inhabited

/-- The operators that take one value. -/
inductive Unary where
  | plus | minus | not | complement
  deriving DecidableEq, Inhabited

/-- An expression.  An assignment may have an operator, which is applied to the variable first. -/
inductive Expr where
  | number (n : Int)
  | variable (name : List Char)
  | unary (op : Unary) (e : Expr)
  | binary (op : Binary) (left right : Expr)
  | choice (condition yes no : Expr)
  | assign (name : List Char) (op : Option Binary) (value : Expr)
  deriving Inhabited

/-! ### Signed words -/

/-- An integer as a signed word. -/
def wrap (n : Int) : Int := n.bmod Text.wordSize

/-- What fits a word is left alone. -/
theorem wrap_of_fits {n : Int} (h : Text.fitsSigned n = true) : wrap n = n := by
  rw [Text.fitsSigned, Bool.and_eq_true] at h
  have h₁ : -(9223372036854775808 : Int) ≤ n := of_decide_eq_true h.1
  have h₂ : n < (9223372036854775808 : Int) := of_decide_eq_true h.2
  have hw : ((Text.wordSize : Nat) : Int) = 18446744073709551616 := rfl
  rw [wrap, Int.bmod_def, hw]
  split <;> omega

/-- A signed word as an unsigned one. -/
def unsigned (n : Int) : Nat := (n % (Text.wordSize : Int)).toNat

/-- A truth value as a number. -/
def ofBool (b : Bool) : Int := if b then 1 else 0

/-- The value of an operator whose operands are both evaluated; none for a division by zero. -/
def Binary.result? (op : Binary) (a b : Int) : Option Int :=
  match op with
  | or => some (ofBool (a ≠ 0 || b ≠ 0))
  | and => some (ofBool (a ≠ 0 && b ≠ 0))
  | bitOr => some (wrap (unsigned a ||| unsigned b : Nat))
  | bitXor => some (wrap (unsigned a ^^^ unsigned b : Nat))
  | bitAnd => some (wrap (unsigned a &&& unsigned b : Nat))
  | eq => some (ofBool (a = b))
  | ne => some (ofBool (a ≠ b))
  | lt => some (ofBool (a < b))
  | le => some (ofBool (a ≤ b))
  | gt => some (ofBool (a > b))
  | ge => some (ofBool (a ≥ b))
  | shiftLeft => some (wrap (unsigned a * Nat.pow 2 (unsigned b % 64) : Nat))
  | shiftRight => some (a.fdiv (Nat.pow 2 (unsigned b % 64) : Nat))
  | add => some (wrap (a + b))
  | sub => some (wrap (a - b))
  | mul => some (wrap (a * b))
  | div => if b = 0 then none else some (wrap (a.tdiv b))
  | mod => if b = 0 then none else some (wrap (a.tmod b))

/-- The value of an operator on one value. -/
def Unary.apply (op : Unary) (a : Int) : Int :=
  match op with
  | plus => a
  | minus => wrap (-a)
  | not => ofBool (a = 0)
  | complement => -a - 1

/-! ### Reading -/

/-- A white space character of an expression. -/
def isSpace (c : Char) : Bool := c = ' ' || c = '\t' || c = '\n'

/-- What follows white space. -/
def skip (s : List Char) : List Char := s.dropWhile isSpace

/-- The operator that a text begins with, how tightly it binds, and what follows. -/
def binary? (s : List Char) : Option (Binary × Nat × List Char) :=
  match s with
  | '|' :: '|' :: r => some (.or, 1, r)
  | '&' :: '&' :: r => some (.and, 2, r)
  | '=' :: '=' :: r => some (.eq, 6, r)
  | '!' :: '=' :: r => some (.ne, 6, r)
  | '<' :: '<' :: r => some (.shiftLeft, 8, r)
  | '>' :: '>' :: r => some (.shiftRight, 8, r)
  | '<' :: '=' :: r => some (.le, 7, r)
  | '>' :: '=' :: r => some (.ge, 7, r)
  | '|' :: r => some (.bitOr, 3, r)
  | '^' :: r => some (.bitXor, 4, r)
  | '&' :: r => some (.bitAnd, 5, r)
  | '<' :: r => some (.lt, 7, r)
  | '>' :: r => some (.gt, 7, r)
  | '+' :: r => some (.add, 9, r)
  | '-' :: r => some (.sub, 9, r)
  | '*' :: r => some (.mul, 10, r)
  | '/' :: r => some (.div, 10, r)
  | '%' :: r => some (.mod, 10, r)
  | _ => none

/-- The operator of an assignment at the start of a text, and what follows. -/
def assignment? (s : List Char) : Option (Option Binary × List Char) :=
  match s with
  | '=' :: '=' :: _ => none
  | '=' :: r => some (none, r)
  | s =>
      match binary? s with
      | some (op, strength, '=' :: r) =>
          if strength ∈ [3, 4, 5, 8, 9, 10] then some (some op, r) else none
      | _ => none

/-- A numeral in base ten, eight or sixteen, and what follows. -/
def numeral? (s : List Char) : Option (Int × List Char) :=
  let inWord (c : Char) : Bool := Text.isLetter c || Text.isDigit c || c = '_'
  let digits := s.takeWhile inWord
  let value := match digits with
    | '0' :: 'x' :: ds => Text.natOfDigits? 16 ds
    | '0' :: 'X' :: ds => Text.natOfDigits? 16 ds
    | '0' :: [] => some 0
    | '0' :: ds => Text.natOfDigits? 8 ds
    | ds => Text.natOfDigits? 10 ds
  value.map fun n => ((min n (Text.signedLimit - 1) : Nat), s.dropWhile inWord)

mutual

/-- An expression with assignments and choices. -/
def expression? : Nat → List Char → Option (Expr × List Char)
  | 0, _ => none
  | fuel + 1, s =>
      match operators? fuel 1 s with
      | none => none
      | some (.variable name, rest) =>
          match assignment? (skip rest) with
          | some (op, rest) => (expression? fuel rest).map fun r => (.assign name op r.1, r.2)
          | none => choice? fuel (.variable name) rest
      | some (e, rest) => choice? fuel e rest

/-- The two sides of a choice, if one follows its condition. -/
def choice? : Nat → Expr → List Char → Option (Expr × List Char)
  | 0, _, _ => none
  | fuel + 1, condition, s =>
      match skip s with
      | '?' :: rest =>
          match expression? fuel rest with
          | none => none
          | some (yes, rest) =>
              match skip rest with
              | ':' :: rest =>
                  (expression? fuel rest).map fun r => (.choice condition yes r.1, r.2)
              | _ => none
      | rest => some (condition, rest)

/-- An expression of operators that bind at least so tightly. -/
def operators? : Nat → (least : Nat) → List Char → Option (Expr × List Char)
  | 0, _, _ => none
  | fuel + 1, least, s =>
      match operand? fuel s with
      | some (e, rest) => applied? fuel least e rest
      | none => none

/-- The operators and operands after a first operand. -/
def applied? : Nat → (least : Nat) → Expr → List Char → Option (Expr × List Char)
  | 0, _, _, _ => none
  | fuel + 1, least, left, s =>
      let s := skip s
      match binary? s with
      | none => some (left, s)
      | some (op, strength, rest) =>
          if strength < least || (assignment? s).isSome then some (left, s)
          else
            match operators? fuel (strength + 1) rest with
            | some (right, rest) => applied? fuel least (.binary op left right) rest
            | none => none

/-- A number, a variable, an expression in parentheses, or one of these after an operator. -/
def operand? : Nat → List Char → Option (Expr × List Char)
  | 0, _ => none
  | fuel + 1, s =>
      match skip s with
      | '(' :: rest =>
          match expression? fuel rest with
          | some (e, rest) =>
              match skip rest with
              | ')' :: rest => some (e, rest)
              | _ => none
          | none => none
      | '+' :: rest => (operand? fuel rest).map fun r => (.unary .plus r.1, r.2)
      | '-' :: rest => (operand? fuel rest).map fun r => (.unary .minus r.1, r.2)
      | '!' :: rest => (operand? fuel rest).map fun r => (.unary .not r.1, r.2)
      | '~' :: rest => (operand? fuel rest).map fun r => (.unary .complement r.1, r.2)
      | c :: rest =>
          if Text.isDigit c then (numeral? (c :: rest)).map fun r => (.number r.1, r.2)
          else if Text.isLetter c || c = '_' then
            let inName (c : Char) : Bool := Text.isLetter c || Text.isDigit c || c = '_'
            some (.variable ((c :: rest).takeWhile inName), (c :: rest).dropWhile inName)
          else none
      | [] => none

end

/-- The expression that a text spells; an empty text spells zero. -/
def read? (s : List Char) : Option Expr :=
  if (skip s).isEmpty then some (.number 0)
  else
    match expression? (8 * (s.length + 2)) s with
    | some (e, rest) => if (skip rest).isEmpty then some e else none
    | none => none

/-! ### Evaluation -/

/-- The variables that an expression can see, the latest assignment first. -/
abbrev Variables := List (List Char × List Char)

/-- The number that the value of a variable spells. -/
def numberOf? (value : List Char) : Option Int :=
  match skip value with
  | [] => some 0
  | '-' :: s => ((numeral? s).filter fun r => (skip r.2).isEmpty).map fun r => -r.1
  | '+' :: s => ((numeral? s).filter fun r => (skip r.2).isEmpty).map fun r => r.1
  | s => ((numeral? s).filter fun r => (skip r.2).isEmpty).map fun r => r.1

/-- The value of a variable, zero if it is unset. -/
def lookup? (vs : Variables) (name : List Char) : Option Int :=
  numberOf? (((vs.find? fun v => v.1 = name).map Prod.snd).getD [])

/-- An integer in decimal. -/
def decimal (n : Int) : List Char :=
  if n < 0 then '-' :: Nat.toDigits 10 n.natAbs else Nat.toDigits 10 n.natAbs

/-- The value of an expression and the variables after it; none if a variable holds no number or
something is divided by zero. -/
def eval? (vs : Variables) : Expr → Option (Int × Variables)
  | .number n => some (n, vs)
  | .variable name => (lookup? vs name).map fun n => (n, vs)
  | .unary op e => (eval? vs e).map fun r => (op.apply r.1, r.2)
  | .binary .and left right =>
      match eval? vs left with
      | none => none
      | some (a, vs) =>
          if a = 0 then some (0, vs) else (eval? vs right).map fun r => (ofBool (r.1 ≠ 0), r.2)
  | .binary .or left right =>
      match eval? vs left with
      | none => none
      | some (a, vs) =>
          if a ≠ 0 then some (1, vs) else (eval? vs right).map fun r => (ofBool (r.1 ≠ 0), r.2)
  | .binary op left right =>
      match eval? vs left with
      | none => none
      | some (a, vs) =>
          match eval? vs right with
          | none => none
          | some (b, vs) => (op.result? a b).map fun n => (n, vs)
  | .choice condition yes no =>
      match eval? vs condition with
      | none => none
      | some (a, vs) => if a ≠ 0 then eval? vs yes else eval? vs no
  | .assign name op value =>
      match eval? vs value with
      | none => none
      | some (b, vs) =>
          let result := match op with
            | none => some b
            | some op => (lookup? vs name).bind fun a => op.result? a b
          result.map fun n => (n, (name, decimal n) :: vs)

end OrderedDispatch.Shell.Arithmetic
