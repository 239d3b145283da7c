/-
**Settings from environment variables.**

A variable whose name begins with `ORDERLY_`, in any case, is a setting.  Two underscores in the
rest of the name separate the keys that lead to it.  The text of the variable is taken for what it
looks like: a truth value, a number, a list or a table in brackets, a quoted text, and otherwise a
text without the blanks around it.  A text that begins like one of the bracketed or quoted forms but
is none, or that goes on after a value, stands for itself.

Main definitions:

* `Config.Environment.path?` — the keys that a variable's name spells;
* `Config.Environment.value` — the value that its text stands for;
* `Config.Environment.settings` — the settings of all variables, later ones over earlier ones.

Main results:

* `Config.Environment.value_of_error` — a text that is no value stands for itself.
-/

import OrderedDispatch.Config.Doc
import OrderedDispatch.Config.Reader
import OrderedDispatch.Text.Blank
import OrderedDispatch.Text.Pattern

set_option relaxedAutoImplicit false
set_option autoImplicit false

namespace OrderedDispatch.Config.Environment

/-! ### Values -/

/-- White space around values. -/
def isSpace (c : Char) : Bool := c = ' ' || c = '\t' || c = '\n' || c = '\x0c' || c = '\r'

/-- A text without the white space at its front. -/
def skipSpace (s : List Char) : List Char := s.dropWhile isSpace

/-- A character that ends a plain value. -/
def isSeparator (c : Char) : Bool :=
  c = ',' || c = '\x7b' || c = '\x7d' || c = '[' || c = ']'

/-- A character of a key that is not quoted. -/
def isKeyChar (c : Char) : Bool := Text.isLetter c || Text.isDigit c || c = '_' || c = '-'

/-- The character of a letter after a backslash. -/
def escapeLetter? : Char → Option Char
  | '"' => some '"'
  | '\\' => some '\\'
  | 'b' => some '\x08'
  | 'f' => some '\x0c'
  | 'n' => some '\n'
  | 'r' => some '\r'
  | 't' => some '\t'
  | _ => none

/-- The character of an escape after its backslash. -/
def escape? : List Char → Option (Char × List Char)
  | 'u' :: rest => hexCode? 4 rest
  | 'U' :: rest => hexCode? 8 rest
  | c :: rest => (escapeLetter? c).map fun d => (d, rest)
  | [] => none

/-- A character that may stand in a quoted text as itself. -/
def isQuotable (c : Char) : Bool := c = '\t' || (0x20 ≤ c.toNat && c.toNat ≠ 0x7F)

/-- The rest of a quoted text after its opening quote. -/
def quoted? : Nat → List Char → List Char → Option (List Char × List Char)
  | 0, _, _ => none
  | steps + 1, acc, s =>
      match s with
      | '"' :: rest => some (acc.reverse, rest)
      | '\\' :: rest => do
          let (c, rest) ← escape? rest
          quoted? steps (c :: acc) rest
      | c :: rest => if isQuotable c then quoted? steps (c :: acc) rest else none
      | [] => none

/-- The value that a plain text stands for: a number if it is one, and otherwise the text. -/
def plain (text : List Char) : Scalar :=
  match (if text.contains '.' then decimalOf? text else none) with
  | some d => .float d.toBinary
  | none =>
      match Text.readWord? text with
      | some n => .int false n
      | none =>
          match Text.readSignedWord? text with
          | some n => .int true n
          | none => .text text

/-- A key with the white space around it. -/
def key? : Reader Key := fun s =>
  match skipSpace s with
  | '"' :: rest => (quoted? (rest.length + 1) [] rest).map fun r => (r.1, skipSpace r.2)
  | s =>
      let (body, rest) := spanWhile isKeyChar s
      if body.isEmpty then none else some (body, skipSpace rest)

/-- The rest of a list after its opening bracket or after one of its commas. -/
def items? (value? : Reader Doc) : Nat → List Doc → Reader (List Doc)
  | 0, _, _ => none
  | steps + 1, acc, s =>
      match s with
      | ']' :: rest => some (acc.reverse, rest)
      | s => do
          let (v, rest) ← value? s
          match rest with
          | ',' :: rest => items? value? steps (v :: acc) rest
          | ']' :: rest => some ((v :: acc).reverse, rest)
          | _ => none

/-- The rest of a table after its opening brace or after one of its commas. -/
def entries? (value? : Reader Doc) : Nat → List (Key × Doc) → Reader (List (Key × Doc))
  | 0, _, _ => none
  | steps + 1, acc, s =>
      match s with
      | '\x7d' :: rest => some (acc, rest)
      | s => do
          let (key, rest) ← key? s
          match rest with
          | '=' :: rest =>
              let (v, rest) ← value? (skipSpace rest)
              match skipSpace rest with
              | ',' :: rest => entries? value? steps (Entries.put key v acc) rest
              | '\x7d' :: rest => some (Entries.put key v acc, rest)
              | _ => none
          | _ => none

/-- A value at the front of a text, with the white space after it. -/
def value? : Nat → Reader Doc
  | 0, _ => none
  | depth + 1, s =>
      let done (r : Doc × List Char) : Doc × List Char := (r.1, skipSpace r.2)
      match skipSpace s with
      | 't' :: 'r' :: 'u' :: 'e' :: rest => some (done (.scalar (.bool true), rest))
      | 'f' :: 'a' :: 'l' :: 's' :: 'e' :: rest => some (done (.scalar (.bool false), rest))
      | '\x7b' :: rest =>
          (entries? (value? depth) (rest.length + 1) [] rest).map fun r => done (.table r.1, r.2)
      | '[' :: rest =>
          (items? (value? depth) (rest.length + 1) [] rest).map fun r => done (.list r.1, r.2)
      | '"' :: rest =>
          (quoted? (rest.length + 1) [] rest).map fun r => done (.ofText r.1, r.2)
      | '\'' :: rest =>
          match rest with
          | c :: '\'' :: rest => some (done (.ofText [c], rest))
          | _ => none
      | s =>
          let (body, rest) := spanWhile (fun c => !isSeparator c) s
          some (.scalar (plain (Text.trim body)), rest)

/-- The value that the whole text of a variable spells, if it spells one. -/
def whole? (s : List Char) : Option Doc := do
  let (v, rest) ← value? (s.length + 1) s
  if rest.isEmpty then some v else none

/-- The value that the text of a variable stands for. -/
def value (s : List Char) : Doc := (whole? s).getD (.ofText s)

/-- A text that is no value stands for itself. -/
theorem value_of_error {s : List Char} (h : whole? s = none) : value s = .ofText s := by
  simp [value, h]

/-! ### Names -/

/-- What begins the name of every setting. -/
def namePrefix : List Char := "orderly_".toList

/-- What separates the keys in a name. -/
def keySeparator : List Char := ['_', '_']

/-- The keys that a name spells, in lower case; `none` if the variable is no setting. -/
def path? (name : List Char) : Option (List Key) := do
  let rest ← Text.stripStart? namePrefix ((Text.trim name).map Char.toLower)
  let keys := Text.splitAt '.' (Text.trim (Text.replaceAll keySeparator ['.'] rest))
  if keys.any List.isEmpty then none else some keys

/-- A value inside nested tables. -/
def nest (value : Doc) : List Key → Doc
  | [] => value
  | key :: path => .table [(key, nest value path)]

/-- A variable of the environment. -/
structure Variable where
  name : List Char
  value : List Char
  deriving DecidableEq, Inhabited

/-- The setting that a variable makes, if it makes one. -/
def setting? (v : Variable) : Option Doc := (path? v.name).map (nest (value v.value))

end OrderedDispatch.Config.Environment
