/-
**Conditions.**

A condition is a list of words: comparisons of texts and numbers, questions about files, and their
combinations.  A short list is read by the number of its words, so that words which look like
operators can be compared; a longer one by precedence, with `-o` below `-a` below `!`.

Main definitions:

* `Condition.FileKind` — what a condition can learn about a file;
* `Condition.holds?` — whether a condition holds, none if it is ill-formed.
-/

import OrderedDispatch.Shell.Arithmetic

set_option relaxedAutoImplicit false
set_option autoImplicit false

namespace OrderedDispatch.Shell.Condition

/-- What a condition can learn about a file. -/
inductive FileKind where
  | file (size : Nat)
  | directory
  | device
  deriving DecidableEq, Inhabited

/-- The integer that a word spells; white space may surround it. -/
def integer? (w : List Char) : Option Int :=
  let s := Arithmetic.skip w
  Text.readInt? (s.reverse.dropWhile Arithmetic.isSpace).reverse

/-- A comparison of two words, none if there is no such comparison or a word is no integer. -/
def compare? (a op b : List Char) : Option (Option Bool) :=
  let integers (test : Int → Int → Bool) : Option Bool :=
    match integer? a, integer? b with
    | some m, some n => some (test m n)
    | _, _ => none
  match String.ofList op with
  | "=" => some (some (a = b))
  | "==" => none
  | "!=" => some (some (a ≠ b))
  | "<" => some (some (a < b))
  | ">" => some (some (b < a))
  | "-eq" => some (integers fun m n => m = n)
  | "-ne" => some (integers fun m n => m ≠ n)
  | "-lt" => some (integers fun m n => m < n)
  | "-le" => some (integers fun m n => m ≤ n)
  | "-gt" => some (integers fun m n => m > n)
  | "-ge" => some (integers fun m n => m ≥ n)
  | _ => none

/-- A question about one word, none if there is no such question. -/
def ask? (kindOf : List Char → Option FileKind) (op a : List Char) : Option Bool :=
  match String.ofList op with
  | "-n" => some !a.isEmpty
  | "-z" => some a.isEmpty
  | "-e" => some (kindOf a).isSome
  | "-r" => some (kindOf a).isSome
  | "-w" => some (kindOf a).isSome
  | "-x" => some (kindOf a = some .directory)
  | "-d" => some (kindOf a = some .directory)
  | "-c" => some (kindOf a = some .device)
  | "-f" =>
      some (match kindOf a with
        | some (.file _) => true
        | _ => false)
  | "-s" =>
      some (match kindOf a with
        | some (.file size) => 0 < size
        | some .directory => true
        | _ => false)
  | "-t" => some false
  | "-h" => some false
  | "-L" => some false
  | "-p" => some false
  | "-b" => some false
  | "-S" => some false
  | "-g" => some false
  | "-u" => some false
  | "-k" => some false
  | _ => none

mutual

/-- A condition of alternatives, and the words after it. -/
def either? (kindOf : List Char → Option FileKind) :
    Nat → List (List Char) → Option (Bool × List (List Char))
  | 0, _ => none
  | fuel + 1, ws =>
      match both? kindOf fuel ws with
      | some (a, w :: rest) =>
          if w = "-o".toList then (either? kindOf fuel rest).map fun r => (a || r.1, r.2)
          else some (a, w :: rest)
      | found => found

/-- A condition of parts that must all hold, and the words after it. -/
def both? (kindOf : List Char → Option FileKind) :
    Nat → List (List Char) → Option (Bool × List (List Char))
  | 0, _ => none
  | fuel + 1, ws =>
      match single? kindOf fuel ws with
      | some (a, w :: rest) =>
          if w = "-a".toList then (both? kindOf fuel rest).map fun r => (a && r.1, r.2)
          else some (a, w :: rest)
      | found => found

/-- A condition of one part, and the words after it. -/
def single? (kindOf : List Char → Option FileKind) :
    Nat → List (List Char) → Option (Bool × List (List Char))
  | 0, _ => none
  | fuel + 1, ws =>
      match ws with
      | [] => none
      | ['!'] :: rest => (single? kindOf fuel rest).map fun r => (!r.1, r.2)
      | ['('] :: rest =>
          match either? kindOf fuel rest with
          | some (a, [')'] :: rest) => some (a, rest)
          | _ => none
      | a :: rest =>
          let compared := match rest with
            | op :: b :: more => (compare? a op b).map fun r => r.map fun holds => (holds, more)
            | _ => none
          match compared with
          | some found => found
          | none =>
              let asked := match rest with
                | b :: more => (ask? kindOf a b).map fun holds => (holds, more)
                | [] => none
              match asked with
              | some found => some found
              | none => some (!a.isEmpty, rest)

end

/-- A condition read by precedence. -/
def general? (kindOf : List Char → Option FileKind) (ws : List (List Char)) : Option Bool :=
  match either? kindOf (4 * ws.length + 4) ws with
  | some (holds, []) => some holds
  | _ => none

/-- A condition of two words. -/
def pair? (kindOf : List Char → Option FileKind) (a b : List Char) : Option Bool :=
  if a = ['!'] then some b.isEmpty else ask? kindOf a b

/-- A condition of three words. -/
def triple? (kindOf : List Char → Option FileKind) (a op b : List Char) : Option Bool :=
  match compare? a op b with
  | some found => found
  | none =>
      if op = "-a".toList then some (!a.isEmpty && !b.isEmpty)
      else if op = "-o".toList then some (!a.isEmpty || !b.isEmpty)
      else if a = ['!'] then (pair? kindOf op b).map not
      else if a = ['('] && b = [')'] then some !op.isEmpty
      else none

/-- Whether a condition holds, none if it is ill-formed. -/
def holds? (kindOf : List Char → Option FileKind) (ws : List (List Char)) : Option Bool :=
  match ws with
  | [] => some false
  | [a] => some !a.isEmpty
  | [a, b] => pair? kindOf a b
  | [a, op, b] => triple? kindOf a op b
  | [a, b, c, d] =>
      if a = ['!'] then (triple? kindOf b c d).map not else general? kindOf ws
  | ws => general? kindOf ws

end OrderedDispatch.Shell.Condition
