/-
**Texts of YAML.**

A text is plain, or between quotes, or a block of lines.  In plain and quoted texts the lines are
joined: one line break becomes a blank, and of several one is dropped.  A block keeps its line
breaks or joins its lines, and says what becomes of the line breaks at its end.

Main definitions:

* `Config.Yaml.Chunk` — a text with the place after it;
* `Config.Yaml.plainLine`, `Config.Yaml.plain?` — a plain text on one line, and on several;
* `Config.Yaml.single?`, `Config.Yaml.double?` — texts between quotes;
* `Config.Yaml.block?` — a block of lines.
-/

import OrderedDispatch.Config.Yaml.Cursor
import OrderedDispatch.Text.Pattern

set_option relaxedAutoImplicit false
set_option autoImplicit false

namespace OrderedDispatch.Config.Yaml

/-- A text with the place after it. -/
structure Chunk where
  text : List Char
  after : Cursor
  deriving DecidableEq, Inhabited

/-! ### Joining lines -/

/-- Whether a character is white space within a line. -/
def isSpace (c : Char) : Bool := c = ' ' || c = '\t'

/-- The places at the start of a text line after line breaks: the number of line breaks passed, and
the place of the first character that is neither white space nor a line break. -/
def passBreaks : Nat → Nat → Cursor → Nat × Cursor
  | 0, breaks, c => (breaks, c)
  | steps + 1, breaks, c =>
      let d := c.skipSpaces
      match d.rest with
      | '\n' :: _ => passBreaks steps (breaks + 1) d.nextLine
      | _ => (breaks, d)

/-- What becomes of so many line breaks between two parts of a text. -/
def joint (breaks : Nat) : List Char :=
  if breaks = 1 then [' '] else List.replicate (breaks - 1) '\n'

/-! ### Plain texts -/

/-- A character with a meaning inside of brackets. -/
def isFlowMark (c : Char) : Bool :=
  c = ',' || c = '[' || c = ']' || c = '\x7b' || c = '\x7d'

/-- Whether a plain text may begin at a place. -/
def mayBeginPlain (flow : Bool) : List Char → Bool
  | [] => false
  | c :: rest =>
      if c = '-' then !(atBlank rest) && !(flow && rest.head?.any isFlowMark)
      else if c = '?' || c = ':' then !flow && !(atBlank rest)
      else !(isSpace c || c = '\n' || isFlowMark c || c = '#' || c = '&' || c = '*' || c = '!'
        || c = '|' || c = '>' || c = '\'' || c = '"' || c = '%' || c = '@' || c.toNat = 0x60)

/-- The part of a plain text up to the end of its line, and what follows; `afterSpace` tells whether
white space stands before it. -/
def plainLine (flow : Bool) : Bool → List Char → List Char × List Char
  | _, [] => ([], [])
  | afterSpace, c :: rest =>
      if c = '\n' || (c = ':' && atBlank rest) || (c = '#' && afterSpace)
          || (flow && isFlowMark c) then
        ([], c :: rest)
      else
        let (more, after) := plainLine flow (isSpace c) rest
        (c :: more, after)

/-- A text without the white space at its end. -/
def trimSpaces (s : List Char) : List Char := (s.reverse.dropWhile isSpace).reverse

/-- A plain text on one line, with the white space after it passed. -/
def plainStart (flow : Bool) (c : Cursor) : Chunk :=
  let (text, _) := plainLine flow false c.rest
  ⟨trimSpaces text, c.past text.length⟩

/-- Whether a plain text ends badly: a colon directly before a mark, inside of brackets. -/
def endsBadly (flow : Bool) (c : Chunk) : Bool :=
  flow && c.text.getLast? = some ':' &&
    match c.after.rest with
    | d :: _ => isFlowMark d
    | [] => false

/-- A plain text continued on further lines that are indented at least so far. -/
def plainMore (flow : Bool) (indent : Nat) : Nat → Chunk → Chunk
  | 0, chunk => chunk
  | steps + 1, chunk =>
      match chunk.after.rest with
      | '\n' :: _ =>
          let (breaks, c) := passBreaks (chunk.after.rest.length + 1) 0 chunk.after
          let onward := { c with fresh := true }
          if c.atEnd || (!flow && c.column < indent) then ⟨chunk.text, onward⟩
          else
            let more := plainStart flow c
            if more.text.isEmpty || c.rest.head? = some '#' then ⟨chunk.text, onward⟩
            else
              plainMore flow indent steps ⟨chunk.text ++ joint breaks ++ more.text, more.after⟩
      | _ => chunk

/-- A plain text on several lines, given its part on the first. -/
def plain? (flow : Bool) (indent : Nat) (start : Chunk) : Option Chunk :=
  let whole := plainMore flow indent (start.after.rest.length + 1) start
  if endsBadly flow whole then none else some whole

/-! ### Quoted texts -/

/-- The character of a letter after a backslash. -/
def escapeLetter? : Char → Option Char
  | '0' => some '\x00'
  | 'a' => some '\x07'
  | 'b' => some '\x08'
  | 't' => some '\t'
  | '\t' => some '\t'
  | 'n' => some '\n'
  | 'v' => some '\x0b'
  | 'f' => some '\x0c'
  | 'r' => some '\r'
  | 'e' => some '\x1b'
  | ' ' => some ' '
  | '"' => some '"'
  | '/' => some '/'
  | '\\' => some '\\'
  | 'N' => some '\u0085'
  | '_' => some '\u00a0'
  | 'L' => some '\u2028'
  | 'P' => some '\u2029'
  | _ => none

/-- The number of hexadecimal digits after a letter that follows a backslash. -/
def escapeWidth? : Char → Option Nat
  | 'x' => some 2
  | 'u' => some 4
  | 'U' => some 8
  | _ => none

/-- The lines of a quoted text joined at this place, where white space or a line break stands: what
it adds to the text, and the place after it. -/
def quotedGap (c : Cursor) : List Char × Cursor :=
  let spaces := c.rest.takeWhile isSpace
  let d := c.skip spaces.length
  match d.rest with
  | '\n' :: _ =>
      let (breaks, e) := passBreaks (d.rest.length + 1) 0 d
      (joint breaks, e)
  | _ => (spaces, d)

/-- The rest of a text between single quotes after the opening one; the text so far comes last
character first. -/
def single? : Nat → List Char → Cursor → Option Chunk
  | 0, _, _ => none
  | steps + 1, acc, c =>
      if c.atMarker then none
      else
        match c.rest with
        | [] => none
        | '\'' :: '\'' :: _ => single? steps ('\'' :: acc) (c.skip 2)
        | '\'' :: _ => some ⟨acc.reverse, c.past 1⟩
        | d :: _ =>
            if isSpace d || d = '\n' then
              let (gap, after) := quotedGap c
              single? steps (gap.reverse ++ acc) after
            else single? steps (d :: acc) (c.skip 1)

/-- The rest of a text between double quotes after the opening one; the text so far comes last
character first. -/
def double? : Nat → List Char → Cursor → Option Chunk
  | 0, _, _ => none
  | steps + 1, acc, c =>
      if c.atMarker then none
      else
        match c.rest with
        | [] => none
        | '"' :: _ => some ⟨acc.reverse, c.past 1⟩
        | '\\' :: '\n' :: _ =>
            let (breaks, after) := passBreaks (c.rest.length + 1) 0 (c.skip 1)
            double? steps (List.replicate (breaks - 1) '\n' ++ acc) after
        | '\\' :: d :: rest =>
            match escapeLetter? d with
            | some e => double? steps (e :: acc) (c.skip 2)
            | none => do
                let width ← escapeWidth? d
                let (e, _) ← hexCode? width rest
                double? steps (e :: acc) (c.skip (2 + width))
        | d :: _ =>
            if isSpace d || d = '\n' then
              let (gap, after) := quotedGap c
              double? steps (gap.reverse ++ acc) after
            else double? steps (d :: acc) (c.skip 1)

/-- A text between quotes. -/
def quoted? (c : Cursor) : Option Chunk :=
  match c.rest with
  | '\'' :: rest => single? (rest.length + 1) [] (c.skip 1)
  | '"' :: rest => double? (rest.length + 1) [] (c.skip 1)
  | _ => none

/-! ### Blocks of lines -/

/-- What becomes of the line breaks at the end of a block: none, one or all of them are kept. -/
inductive Chomping where
  | strip
  | clip
  | keep
  deriving DecidableEq, Inhabited

/-- The first line of a block: whether lines are joined, what becomes of line breaks at the end, and
the indentation if it is given. -/
structure BlockHeader where
  folded : Bool
  chomping : Chomping := .clip
  indent : Option Nat := none
  deriving DecidableEq, Inhabited

/-- The marks after the first of a block's first line. -/
def blockMarks : Nat → BlockHeader → List Char → BlockHeader × List Char
  | 0, h, s => (h, s)
  | steps + 1, h, s =>
      match s with
      | '+' :: rest => blockMarks steps { h with chomping := .keep } rest
      | '-' :: rest => blockMarks steps { h with chomping := .strip } rest
      | d :: rest =>
          if Text.isDigit d && d ≠ '0' && h.indent.isNone then
            blockMarks steps { h with indent := some (d.toNat - '0'.toNat) } rest
          else (h, s)
      | [] => (h, s)

/-- The first line of a block, and what follows its line break. -/
def blockHeader? (folded : Bool) (s : List Char) : Option (BlockHeader × List Char) :=
  let (h, rest) := blockMarks 2 { folded := folded } s
  let spaces := rest.takeWhile isSpace
  let rest' := rest.dropWhile isSpace
  let rest'' := match rest' with
    | '#' :: _ => if spaces.isEmpty then rest' else rest'.dropWhile (· ≠ '\n')
    | _ => rest'
  match rest'' with
  | '\n' :: after => some (h, after)
  | [] => some (h, [])
  | _ => none

/-- The lines of a text, without their line breaks. -/
def linesOf (s : List Char) : List (List Char) :=
  match Text.splitAt '\n' s with
  | [[]] => []
  | lines => if lines.getLast? = some [] then lines.dropLast else lines

/-- How far a line is indented. -/
def indentOf (line : List Char) : Nat := (line.takeWhile (· = ' ')).length

/-- Whether a line holds blanks only, as far as it is not indented further than a block. -/
def isBlankLine (indent : Nat) (line : List Char) : Bool :=
  line.all (· = ' ') && line.length ≤ indent

/-- The indentation of a block from its first line that holds more than blanks. -/
def detectIndent (least : Nat) (lines : List (List Char)) : Nat :=
  match lines.find? (fun l => l.any (· ≠ ' ')) with
  | some l => max least (indentOf l)
  | none => max least ((lines.map indentOf).foldl max 0)

/-- The lines that belong to a block, and how many there are. -/
def blockLines (indent : Nat) : List (List Char) → List (List Char)
  | [] => []
  | line :: rest =>
      if isBlankLine indent line then [] :: blockLines indent rest
      else if indentOf line < indent then []
      else line.drop indent :: blockLines indent rest

/-- Lines joined with their line breaks kept. -/
def literalText (lines : List (List Char)) : List Char := lines.flatMap fun l => l ++ ['\n']

/-- Whether a line of a folded block starts with white space and so keeps its line breaks. -/
def isIndented (line : List Char) : Bool := line.head?.any isSpace

/-- Lines of a folded block joined: `breaks` counts the line breaks since the last line that is not
empty, whose kind is `indented`. -/
def foldedText : (indented : Bool) → (breaks : Nat) → List (List Char) → List Char
  | _, breaks, [] => List.replicate breaks '\n'
  | indented, breaks, line :: rest =>
      if line.isEmpty then foldedText indented (breaks + 1) rest
      else
        let gap :=
          if breaks = 0 then []
          else if indented || isIndented line then List.replicate breaks '\n'
          else joint breaks
        gap ++ line ++ foldedText (isIndented line) 1 rest

/-- A text with the line breaks at its end as a block says. -/
def chomp (chomping : Chomping) (s : List Char) : List Char :=
  let body := (s.reverse.dropWhile (· = '\n')).reverse
  match chomping with
  | .strip => body
  | .clip => if body.isEmpty || body.length = s.length then body else body ++ ['\n']
  | .keep => s

/-- A block of lines, given the indentation of what it belongs to. -/
def block? (parent : Int) (c : Cursor) : Option Chunk := do
  let (folded, rest) ← match c.rest with
    | '|' :: rest => some (false, rest)
    | '>' :: rest => some (true, rest)
    | _ => none
  let (h, body) ← blockHeader? folded rest
  let lines := linesOf body
  let indent := match h.indent with
    | some n => (max parent 0).toNat + n
    | none => detectIndent (parent + 1).toNat lines
  let own := blockLines indent lines
  let left := (Text.splitAt '\n' body).drop own.length
  let closed := if h.folded then foldedText false 0 own else literalText own
  let text := if left.isEmpty then closed.dropLast else closed
  let after : Cursor :=
    { rest := ['\n'].intercalate left, column := 0, line := c.line + 1 + own.length, fresh := true }
  some ⟨chomp h.chomping text, after⟩

end OrderedDispatch.Config.Yaml
