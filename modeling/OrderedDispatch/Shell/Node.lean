/-
**Command lines as trees.**

A command line of the shell is a tree of commands, and each word in it is a list of pieces that are
still to be expanded.  The shell knows no characters but bytes, so every text of it holds characters
below 256, one for each byte.

Main definitions:

* `Piece`, `Word` — a part of a word, and a word;
* `Redirect` — where a descriptor of a command leads;
* `Node` — a command line.
-/

set_option relaxedAutoImplicit false
set_option autoImplicit false

namespace OrderedDispatch.Shell

/-- What stands in for a parameter that has no value: the word, this time or from now on; or
nothing, where the word replaces a value instead, or where the shell gives up with the word as its
reason. -/
inductive Fallback where
  | use
  | assign
  | alternative
  | giveUp
  deriving DecidableEq, Inhabited

/-- Which end of a value a pattern is cut from. -/
structure Trim where
  /-- the start of the value, not its end -/
  atStart : Bool
  /-- as much as possible, not as little -/
  longest : Bool
  deriving DecidableEq, Inhabited

/-- What a redirection does to its descriptor.  A document is a text of the command line itself, and
a duplicate is another name of a descriptor that is open. -/
inductive Direction where
  | read
  | document
  | write
  | append
  | duplicate
  deriving DecidableEq, Inhabited

mutual

/-- A part of a word: characters outside of quotes or protected by them, the user's own directory,
or an expansion.  A fallback may be for empty values too, and trimming takes away what a pattern
matches at one of the ends.  A quoted expansion is neither split into fields nor taken as a pattern.
-/
inductive Piece where
  | plain (s : List Char)
  | literal (s : List Char)
  | home
  | parameter (name : List Char) (quoted : Bool)
  | length (name : List Char) (quoted : Bool)
  | fallback (name : List Char) (rule : Fallback) (emptyToo : Bool) (word : List Piece)
      (quoted : Bool)
  | trimmed (name : List Char) (trim : Trim) (pattern : List Piece) (quoted : Bool)
  | substitution (body : Node) (quoted : Bool)
  | arithmetic (expression : List Piece) (quoted : Bool)

/-- Where a descriptor of a command leads. -/
inductive Redirect where
  | mk (descriptor : Nat) (direction : Direction) (target : List Piece)

/-- A command line.  A simple command has assignments, words and redirections; a loop goes on while
its condition holds, or until it does; and `each` goes over words, or over the arguments of the
shell. -/
inductive Node where
  | skip
  | simple (assignments : List (List Char × List Piece)) (words : List (List Piece))
      (redirects : List Redirect)
  | redirected (body : Node) (redirects : List Redirect)
  | negated (body : Node)
  | pipe (left right : Node)
  | both (left right : Node)
  | either (left right : Node)
  | sequence (left right : Node)
  | background (body : Node)
  | subshell (body : Node)
  | branch (condition yes no : Node)
  | loop (whileTrue : Bool) (condition body : Node)
  | each (name : List Char) (words : Option (List (List Piece))) (body : Node)
  | choice (word : List Piece) (arms : List (List (List Piece) × Node))
  | define (name : List Char) (body : Node)

end

/-- A word before its expansion. -/
abbrev Word := List Piece

instance : Inhabited Piece := ⟨.home⟩

instance : Inhabited Node := ⟨.skip⟩

/-- Whether there is no command. -/
def Node.isSkip : Node → Bool
  | skip => true
  | _ => false

/-- One command line after another. -/
def Node.followedBy : Node → Node → Node
  | left, skip => left
  | left, right => sequence left right

/-- A command with redirections, if there are any. -/
def Node.withRedirects (n : Node) (rs : List Redirect) : Node :=
  if rs.isEmpty then n else redirected n rs

end OrderedDispatch.Shell
