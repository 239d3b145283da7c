/-
**Strings and keys of TOML.**

There are four kinds of strings: basic and literal ones, each on one line or between triple quotes
over several.  Only basic strings know escapes.  A line break inside a string is one newline,
however it is written, and one that directly follows an opening triple quote is not part of the
string.  Control characters other than the tab stand in no string as themselves.

Main definitions:

* `Config.Toml.string?` — a string of any kind;
* `Config.Toml.key?` — a key, which is one part or several with points between them.
-/

import OrderedDispatch.Config.Doc
import OrderedDispatch.Config.Reader

set_option relaxedAutoImplicit false
set_option autoImplicit false

namespace OrderedDispatch.Config.Toml

/-- White space within a line. -/
def isSpace (c : Char) : Bool := c = ' ' || c = '\t'

/-- A text without the white space at its front. -/
def skipSpace (s : List Char) : List Char := s.dropWhile isSpace

/-- What follows a line break at the front of a text. -/
def newline? : List Char → Option (List Char)
  | '\n' :: rest => some rest
  | '\r' :: '\n' :: rest => some rest
  | _ => none

/-- A character that may stand in a comment or a string as itself. -/
def isVisible (c : Char) : Bool := c = '\t' || (0x20 ≤ c.toNat && c.toNat ≠ 0x7F)

/-! ### Strings -/

/-- The character of a letter after a backslash. -/
def escapeLetter? : Char → Option Char
  | 'b' => some '\x08'
  | 't' => some '\t'
  | 'n' => some '\n'
  | 'f' => some '\x0c'
  | 'r' => some '\r'
  | '"' => some '"'
  | '\\' => some '\\'
  | _ => none

/-- The character of an escape after its backslash. -/
def escape? : List Char → Option (Char × List Char)
  | 'u' :: rest => hexCode? 4 rest
  | 'U' :: rest => hexCode? 8 rest
  | c :: rest => (escapeLetter? c).map fun d => (d, rest)
  | [] => none

/-- The rest of a basic string on one line after its opening quote. -/
def basic? : Nat → List Char → List Char → Option (List Char × List Char)
  | 0, _, _ => none
  | steps + 1, acc, s =>
      match s with
      | '"' :: rest => some (acc.reverse, rest)
      | '\\' :: rest => do
          let (c, rest) ← escape? rest
          basic? steps (c :: acc) rest
      | c :: rest => if isVisible c then basic? steps (c :: acc) rest else none
      | [] => none

/-- The rest of a literal string on one line after its opening quote. -/
def literal? (s : List Char) : Option (List Char × List Char) :=
  let (body, rest) := spanWhile (fun c => c ≠ '\'' && isVisible c) s
  match rest with
  | '\'' :: rest => some (body, rest)
  | _ => none

/-- What follows a line break that is escaped by a backslash: the text without the white space and
line breaks at its front. -/
def escapedBreak? (s : List Char) : Option (List Char) :=
  (newline? (skipSpace s)).map (·.dropWhile fun c => isSpace c || c = '\n' || c = '\r')

/-- Whether every carriage return among the white space at the front of a text belongs to a line
break. -/
def breaksAreWhole : List Char → Bool
  | '\r' :: '\n' :: rest => breaksAreWhole rest
  | '\r' :: _ => false
  | c :: rest => if isSpace c || c = '\n' then breaksAreWhole rest else true
  | [] => true

/-- The number of quotes of one kind at the front of a text. -/
def quoteRun (quote : Char) (s : List Char) : Nat := (s.takeWhile (· = quote)).length

/-- The rest of a string over several lines after its opening quotes.  A run of three quotes closes
it; up to two more before them belong to the string. -/
def multiline? (quote : Char) (escapes : Bool) :
    Nat → List Char → List Char → Option (List Char × List Char)
  | 0, _, _ => none
  | steps + 1, acc, s =>
      match s with
      | [] => none
      | c :: rest =>
          if c = quote then
            let run := quoteRun quote s
            if run < 3 then multiline? quote escapes steps (c :: acc) rest
            else if run ≤ 5 then
              some ((List.replicate (run - 3) quote ++ acc).reverse, s.drop run)
            else none
          else if escapes && c = '\\' then
            match escapedBreak? rest with
            | some after =>
                if breaksAreWhole (skipSpace rest) then multiline? quote escapes steps acc after
                else none
            | none => do
                let (d, rest) ← escape? rest
                multiline? quote escapes steps (d :: acc) rest
          else
            match newline? s with
            | some rest => multiline? quote escapes steps ('\n' :: acc) rest
            | none => if isVisible c then multiline? quote escapes steps (c :: acc) rest else none

/-- A text without the line break at its front, if there is one. -/
def skipBreak (s : List Char) : List Char := (newline? s).getD s

/-- A string of any kind. -/
def string? : Reader (List Char)
  | '"' :: '"' :: '"' :: rest => multiline? '"' true (rest.length + 1) [] (skipBreak rest)
  | '\'' :: '\'' :: '\'' :: rest => multiline? '\'' false (rest.length + 1) [] (skipBreak rest)
  | '"' :: rest => basic? (rest.length + 1) [] rest
  | '\'' :: rest => literal? rest
  | _ => none

/-! ### Keys -/

/-- A character of a key without quotes. -/
def isBare (c : Char) : Bool := Text.isLetter c || Text.isDigit c || c = '_' || c = '-'

/-- One part of a key. -/
def keyPart? : Reader Key
  | '"' :: rest => basic? (rest.length + 1) [] rest
  | '\'' :: rest => literal? rest
  | s =>
      let (body, rest) := spanWhile isBare s
      if body.isEmpty then none else some (body, rest)

/-- The parts of a key, with white space around the points between them. -/
def keyParts? : Nat → List Key → Reader (List Key)
  | 0, _, _ => none
  | steps + 1, acc, s => do
      let (part, rest) ← keyPart? (skipSpace s)
      match skipSpace rest with
      | '.' :: rest => keyParts? steps (part :: acc) rest
      | rest => some ((part :: acc).reverse, rest)

/-- A key with the white space around it. -/
def key? : Reader (List Key) := fun s => keyParts? (s.length + 1) [] s

end OrderedDispatch.Config.Toml
