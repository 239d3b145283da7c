/-
**Documents of TOML.**

A document is read line by line: a line is blank, or holds one pair, or a header, and may end in a
comment.  The pairs before the first header belong to the document itself.

Main definitions:

* `Config.Toml.Line`, `Config.Toml.line?` — what a line holds;
* `Config.Toml.sections` — the pairs before the first header, and those under each header;
* `Config.Toml.read?` — the table that a whole text spells.
-/

import OrderedDispatch.Config.Toml.Value

set_option relaxedAutoImplicit false
set_option autoImplicit false

namespace OrderedDispatch.Config.Toml

/-- What a line holds. -/
inductive Line where
  | blank
  | pair (p : Pair)
  | header (isElement : Bool) (path : List Key)

/-- A header after its first bracket. -/
def header? : Reader Line
  | '[' :: rest => do
      let (path, rest) ← key? rest
      match rest with
      | ']' :: ']' :: rest => some (.header true path, rest)
      | _ => none
  | s => do
      let (path, rest) ← key? s
      match rest with
      | ']' :: rest => some (.header false path, rest)
      | _ => none

/-- A text after the end of a line: white space, perhaps a comment, and a line break unless the
text ends. -/
def endOfLine? (s : List Char) : Option (List Char) := do
  let rest ← skipComment? (skipSpace s)
  if rest.isEmpty then some [] else newline? rest

/-- One line with its end. -/
def line? : Reader Line := fun s => do
  let (line, rest) ← match skipSpace s with
    | [] => some (.blank, [])
    | '[' :: rest => header? rest
    | c :: rest =>
        if c = '#' || c = '\n' || c = '\r' then some (.blank, c :: rest)
        else (pair? (value? maxDepth) (c :: rest)).map fun r => (.pair r.1, r.2)
  let rest ← endOfLine? rest
  some (line, rest)

/-- All lines of a text. -/
def lines? : Nat → List Line → List Char → Option (List Line)
  | 0, _, _ => none
  | steps + 1, acc, s => do
      if s.isEmpty then some acc.reverse
      else
        let (line, rest) ← line? s
        lines? steps (line :: acc) rest

/-- The pairs before the first header, and the sections of all headers. -/
def sections : List Line → List Pair × List Section
  | [] => ([], [])
  | .blank :: rest => sections rest
  | .pair p :: rest =>
      let (pairs, more) := sections rest
      (p :: pairs, more)
  | .header isElement path :: rest =>
      let (pairs, more) := sections rest
      ([], ⟨isElement, path, pairs⟩ :: more)

/-- A text without the byte order mark at its front. -/
def skipMark : List Char → List Char
  | '\ufeff' :: rest => rest
  | s => s

/-- The table that a whole text spells. -/
def read? (s : List Char) : Option Doc := do
  let s := skipMark s
  let lines ← lines? (s.length + 1) [] s
  let (pairs, more) := sections lines
  let entries ← insertPairs? [] pairs
  let entries ← more.foldlM addSection? entries
  some (.table (entriesToDoc entries))

end OrderedDispatch.Config.Toml
