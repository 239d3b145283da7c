/-
**Reading a command line.**

A command line is read by descent from lists of commands down to the pieces of words.  Each reader
takes a bound on how deep it may go, which the length of the text supplies, and gives the rest of
the text back.  Reserved words count only where a command may begin.

Main definitions:

* `Reader.pieces?` — the pieces up to the end of a word, or of a quoted or bracketed part of one;
* `Reader.list?` — commands up to a closing word or bracket;
* `parse?` — a whole command line.
-/

import OrderedDispatch.Shell.Node
import OrderedDispatch.Text.Numeral
import OrderedDispatch.Text.Pattern

set_option relaxedAutoImplicit false
set_option autoImplicit false

namespace OrderedDispatch.Shell

namespace Reader

/-! ### Characters and gaps -/

/-- A character that separates words on a line. -/
def isBlank (c : Char) : Bool := c = ' ' || c = '\t'

/-- A character that ends a word. -/
def endsWord (c : Char) : Bool := isBlank c || ['\n', ';', '&', '|', '<', '>', '(', ')'].contains c

/-- A character that may begin a name. -/
def startsName (c : Char) : Bool := Text.isLetter c || c = '_'

/-- A character of a name. -/
def inName (c : Char) : Bool := startsName c || Text.isDigit c

/-- The one-character names of the parameters that the shell sets itself. -/
def isSpecial (c : Char) : Bool := ['@', '*', '#', '?', '-', '$', '!'].contains c

/-- The name at the start of a text, empty if there is none, and what follows it. -/
def name (s : List Char) : List Char × List Char :=
  match s with
  | c :: _ => if startsName c then (s.takeWhile inName, s.dropWhile inName) else ([], s)
  | [] => ([], [])

/-- What follows blanks and comments, and newlines too where they separate nothing. -/
def skipGap (newlines : Bool) : (inComment : Bool) → List Char → List Char
  | _, [] => []
  | true, c :: s =>
      if c = '\n' then if newlines then skipGap newlines false s else c :: s
      else skipGap newlines true s
  | false, '\\' :: '\n' :: s => skipGap newlines false s
  | false, c :: s =>
      if isBlank c || (newlines && c = '\n') then skipGap newlines false s
      else if c = '#' then skipGap newlines true s
      else c :: s

/-- What follows the gap on a line. -/
def skipBlanks (s : List Char) : List Char := skipGap false false s

/-- What follows a gap that may run over lines. -/
def skipLines (s : List Char) : List Char := skipGap true false s

/-- The characters of the word that begins here. -/
def upcoming (s : List Char) : List Char := s.takeWhile fun c => !endsWord c

/-- What follows a reserved word. -/
def reserved? (word : String) (s : List Char) : Option (List Char) :=
  let s := skipLines s
  if upcoming s = word.toList then some (s.drop word.length) else none

/-- The words that close what another word opened. -/
def closingWords : List String :=
  ["then", "elif", "else", "fi", "do", "done", "esac", "\x7d"]

/-- Whether no command begins here. -/
def atClose (s : List Char) : Bool :=
  match s with
  | [] => true
  | ')' :: _ => true
  | ';' :: ';' :: _ => true
  | s => closingWords.contains (String.ofList (upcoming s))

/-! ### Parts of words -/

/-- What the pieces being read are enclosed in: nothing, so that the word ends where one may end;
double quotes; the braces of a parameter; a document, up to the end of the text; or the two
parentheses of an arithmetic expression, inside of so many further ones. -/
inductive Enclosure where
  | none
  | doubleQuotes
  | braces (quoted : Bool)
  | document
  | arithmetic (depth : Nat)
  deriving DecidableEq, Inhabited

/-- Whether only some characters keep their meaning here. -/
def Enclosure.protects : Enclosure → Bool
  | none => false
  | doubleQuotes => true
  | document => true
  | braces quoted => quoted
  | arithmetic _ => true

/-- Characters as they stand in an enclosure. -/
def Enclosure.text (e : Enclosure) (s : List Char) : Piece :=
  if e.protects then .literal s else .plain s

/-- Characters that a backslash escapes inside of double quotes. -/
def isEscapable (c : Char) : Bool := ['$', '\x60', '"', '\\'].contains c

/-- The characters that have a meaning inside of words. -/
def marks : List Char := ['\\', '\'', '"', '$', '\x60', '\x7d']

/-- A character without any meaning in an enclosure. -/
def isOrdinary (c : Char) : Bool :=
  !endsWord c && !marks.contains c

/-- What a backslash and the character after it stand for. -/
def escaped (e : Enclosure) (c : Char) : Piece :=
  if !e.protects || (isEscapable c && !(c = '"' && e = .document))
      || (c = '\x7d' && e = .braces true) then .literal [c]
  else .literal ['\\', c]

/-- Pieces in double quotes: they make a field even if nothing is in it, except for the arguments of
the shell, which may be none. -/
def inQuotes (inner : List Piece) : List Piece :=
  match inner with
  | [.parameter ['@'] true] => inner
  | inner => .literal [] :: inner

/-- The text between backquotes and what follows: a backslash escapes what it does in double
quotes. -/
def backquoted? : List Char → Option (List Char × List Char)
  | [] => none
  | '\x60' :: s => some ([], s)
  | '\\' :: c :: s =>
      (backquoted? s).map fun r => (if isEscapable c then c :: r.1 else '\\' :: c :: r.1, r.2)
  | c :: s => (backquoted? s).map fun r => (c :: r.1, r.2)

/-- The span up to a single quote and what follows the quote. -/
def singleQuoted? (s : List Char) : Option (List Char × List Char) :=
  match s.dropWhile (· ≠ '\'') with
  | _ :: rest => some (s.takeWhile (· ≠ '\''), rest)
  | [] => none

/-- The parameter that a text names, and what follows. -/
def parameterName? (s : List Char) : Option (List Char × List Char) :=
  match name s with
  | ([], c :: rest) =>
      if Text.isDigit c then some (s.takeWhile Text.isDigit, s.dropWhile Text.isDigit)
      else if isSpecial c then some ([c], rest)
      else none
  | ([], []) => none
  | found => some found

/-- The rule after a parameter's name, whether it holds of empty values too, and what follows. -/
def fallbackRule? : List Char → Option (Fallback × Bool × List Char)
  | ':' :: '-' :: s => some (.use, true, s)
  | ':' :: '=' :: s => some (.assign, true, s)
  | ':' :: '+' :: s => some (.alternative, true, s)
  | ':' :: '?' :: s => some (.giveUp, true, s)
  | '-' :: s => some (.use, false, s)
  | '=' :: s => some (.assign, false, s)
  | '+' :: s => some (.alternative, false, s)
  | '?' :: s => some (.giveUp, false, s)
  | _ => none

/-- The way to trim a parameter, and what follows. -/
def trim? : List Char → Option (Trim × List Char)
  | '#' :: '#' :: s => some (⟨true, true⟩, s)
  | '#' :: s => some (⟨true, false⟩, s)
  | '%' :: '%' :: s => some (⟨false, true⟩, s)
  | '%' :: s => some (⟨false, false⟩, s)
  | _ => none

/-- The descriptor, the direction and what follows of a redirection. -/
def redirection? (s : List Char) : Option (Nat × Direction × List Char) :=
  let digits := s.takeWhile Text.isDigit
  let own (default : Nat) : Nat := (Text.natOfDigits? 10 digits).getD default
  match s.dropWhile Text.isDigit with
  | '<' :: '<' :: r => some (own 0, .document, r)
  | '<' :: '&' :: r => some (own 0, .duplicate, r)
  | '<' :: '>' :: r => some (own 0, .read, r)
  | '<' :: r => some (own 0, .read, r)
  | '>' :: '>' :: r => some (own 1, .append, r)
  | '>' :: '&' :: r => some (own 1, .duplicate, r)
  | '>' :: '|' :: r => some (own 1, .write, r)
  | '>' :: r => some (own 1, .write, r)
  | _ => none

/-- The lines up to one that holds only a delimiter, leading tabs perhaps left out, and the lines
after that one. -/
def documentLines (stripTabs : Bool) (delimiter : List Char) :
    List (List Char) → List (List Char) × List (List Char)
  | [] => ([], [])
  | l :: ls =>
      let line := if stripTabs then l.dropWhile (· = '\t') else l
      if line = delimiter then ([], ls)
      else
        let (inside, after) := documentLines stripTabs delimiter ls
        (line :: inside, after)

/-- The text of a document whose delimiter stands here, whether it is taken as it is, and what
follows the delimiter, without the document. -/
def document (s : List Char) : List Char × Bool × List Char :=
  let stripTabs := s.head? = some '-'
  let s := skipBlanks (if stripTabs then s.drop 1 else s)
  let written := upcoming s
  let isQuote (c : Char) : Bool := ['\'', '"', '\\'].contains c
  let line := (s.drop written.length).takeWhile (· ≠ '\n')
  let later := ((s.drop written.length).dropWhile (· ≠ '\n')).drop 1
  let pieces := Text.splitAt '\n' later
  let (inside, after) := documentLines stripTabs (written.filter fun c => !isQuote c)
    (if pieces.getLast? = some [] then pieces.dropLast else pieces)
  (inside.flatMap (· ++ ['\n']), written.any isQuote, line ++ '\n' :: after.flatMap (· ++ ['\n']))

/-- The name of an assignment, and what follows the equals sign. -/
def assignment? (s : List Char) : Option (List Char × List Char) :=
  match name s with
  | ([], _) => none
  | (n, '=' :: rest) => some (n, rest)
  | _ => none

/-- The name of a function that is being defined, and what follows the parentheses. -/
def definition? (s : List Char) : Option (List Char × List Char) :=
  match name s with
  | ([], _) => none
  | (n, rest) =>
      match skipBlanks rest with
      | '(' :: more =>
          match skipBlanks more with
          | ')' :: body => some (n, body)
          | _ => none
      | _ => none

/-! ### Words and commands -/

mutual

/-- The pieces up to the end of the enclosure, which is taken too unless it is the end of a
word. -/
def pieces? : Nat → Enclosure → List Char → Option (List Piece × List Char)
  | 0, _, _ => none
  | fuel + 1, e, s =>
      let more (p : Piece) (rest : List Char) : Option (List Piece × List Char) :=
        (pieces? fuel e rest).map fun r => (p :: r.1, r.2)
      match s with
      | [] => if e = .none || e = .document then some ([], []) else none
      | '\\' :: '\n' :: rest => pieces? fuel e rest
      | '\\' :: c :: rest => more (escaped e c) rest
      | ['\\'] => some ([.literal ['\\']], [])
      | '\'' :: rest =>
          if e.protects then more (e.text ['\'']) rest
          else
            match singleQuoted? rest with
            | some (span, rest) => more (.literal span) rest
            | none => none
      | '"' :: rest =>
          match e with
          | .doubleQuotes => some ([], rest)
          | .arithmetic _ => pieces? fuel e rest
          | .document => more (.literal ['"']) rest
          | _ =>
              match pieces? fuel .doubleQuotes rest with
              | some (inner, rest) =>
                  (pieces? fuel e rest).map fun r => (inQuotes inner ++ r.1, r.2)
              | none => none
      | '$' :: rest =>
          match dollar? fuel e.protects rest with
          | some (p, rest) => more p rest
          | none => none
      | '\x60' :: rest =>
          match backquoted? rest with
          | some (text, rest) =>
              match list? fuel text with
              | some (body, []) => more (.substitution body e.protects) rest
              | _ => none
          | none => none
      | '\x7d' :: rest =>
          match e with
          | .braces _ => some ([], rest)
          | _ => more (e.text ['\x7d']) rest
      | '(' :: rest =>
          match e with
          | .none => some ([], s)
          | .arithmetic depth =>
              (pieces? fuel (.arithmetic (depth + 1)) rest).map fun r =>
                (.literal ['('] :: r.1, r.2)
          | _ => more (e.text ['(']) rest
      | ')' :: rest =>
          match e with
          | .none => some ([], s)
          | .arithmetic (depth + 1) =>
              (pieces? fuel (.arithmetic depth) rest).map fun r => (.literal [')'] :: r.1, r.2)
          | .arithmetic 0 =>
              match rest with
              | ')' :: rest => some ([], rest)
              | _ => none
          | _ => more (e.text [')']) rest
      | c :: rest =>
          if endsWord c then
            if e = .none then some ([], s) else more (e.text [c]) rest
          else more (e.text (c :: rest.takeWhile isOrdinary)) (rest.dropWhile isOrdinary)

/-- The expansion after a dollar sign. -/
def dollar? : Nat → (quoted : Bool) → List Char → Option (Piece × List Char)
  | 0, _, _ => none
  | fuel + 1, quoted, s =>
      match s with
      | '(' :: '(' :: rest =>
          (pieces? fuel (.arithmetic 0) rest).map fun r => (.arithmetic r.1 quoted, r.2)
      | '(' :: rest =>
          match list? fuel rest with
          | some (body, ')' :: rest) => some (.substitution body quoted, rest)
          | _ => none
      | '\x7b' :: rest => braces? fuel quoted rest
      | c :: rest =>
          if Text.isDigit c || isSpecial c then some (.parameter [c] quoted, rest)
          else if startsName c then some (.parameter (name s).1 quoted, (name s).2)
          else some (.literal ['$'], s)
      | [] => some (.literal ['$'], [])

/-- The expansion after a dollar sign and an opening brace. -/
def braces? : Nat → (quoted : Bool) → List Char → Option (Piece × List Char)
  | 0, _, _ => none
  | fuel + 1, quoted, s =>
      let length? : Option (Piece × List Char) :=
        match s with
        | '#' :: more =>
            match parameterName? more with
            | some (n, '\x7d' :: rest) => some (.length n quoted, rest)
            | _ => none
        | _ => none
      match length? with
      | some found => some found
      | none =>
          match parameterName? s with
          | some (n, '\x7d' :: rest) => some (.parameter n quoted, rest)
          | some (n, more) =>
              match fallbackRule? more with
              | some (rule, emptyToo, rest) =>
                  (pieces? fuel (.braces quoted) rest).map fun r =>
                    (.fallback n rule emptyToo r.1 quoted, r.2)
              | none =>
                  match trim? more with
                  | some (trim, rest) =>
                      (pieces? fuel (.braces false) rest).map fun r =>
                        (.trimmed n trim r.1 quoted, r.2)
                  | none => none
          | none => none

/-- A word; a tilde at its start stands for the user's own directory. -/
def word? : Nat → List Char → Option (Word × List Char)
  | 0, _ => none
  | fuel + 1, s =>
      match s with
      | '~' :: rest =>
          if upcoming rest = [] || rest.head? = some '/' then
            (pieces? fuel .none rest).map fun r => (.home :: r.1, r.2)
          else pieces? fuel .none s
      | s => pieces? fuel .none s

/-- Redirections, up to anything else. -/
def redirects? : Nat → List Char → Option (List Redirect × List Char)
  | 0, _ => none
  | fuel + 1, s =>
      match redirection? (skipBlanks s) with
      | none => some ([], s)
      | some (descriptor, .document, rest) =>
          let (text, asItIs, rest) := document rest
          let target := if asItIs then some [.literal text]
            else (pieces? fuel .document text).map Prod.fst
          match target with
          | some target =>
              (redirects? fuel rest).map fun r => (.mk descriptor .document target :: r.1, r.2)
          | none => none
      | some (descriptor, direction, rest) =>
          match word? fuel (skipBlanks rest) with
          | some ([], _) => none
          | some (target, rest) =>
              (redirects? fuel rest).map fun r => (.mk descriptor direction target :: r.1, r.2)
          | none => none

/-- The rest of a simple command of which some parts have been read. -/
def simple? : Nat → List (List Char × Word) → List Word → List Redirect → List Char →
    Option (Node × List Char)
  | 0, _, _, _, _ => none
  | fuel + 1, assignments, words, redirects, s =>
      let s := skipBlanks s
      match redirection? s with
      | some _ =>
          match redirects? fuel s with
          | some (found, rest) => simple? fuel assignments words (redirects ++ found) rest
          | none => none
      | none =>
          match if words.isEmpty then assignment? s else none with
          | some (n, rest) =>
              match word? fuel rest with
              | some (value, rest) =>
                  simple? fuel (assignments ++ [(n, value)]) words redirects rest
              | none => none
          | none =>
              match word? fuel s with
              | some ([], rest) =>
                  if assignments.isEmpty && words.isEmpty && redirects.isEmpty then none
                  else some (.simple assignments words redirects, rest)
              | some (w, rest) => simple? fuel assignments (words ++ [w]) redirects rest
              | none => none

/-- Commands up to a closing word or bracket; `skip` if there are none. -/
def list? : Nat → List Char → Option (Node × List Char)
  | 0, _ => none
  | fuel + 1, s =>
      let s := skipLines s
      if atClose s then some (.skip, s)
      else
        match chain? fuel s with
        | none => none
        | some (n, rest) =>
            match skipBlanks rest with
            | ';' :: ';' :: more => some (n, ';' :: ';' :: more)
            | ';' :: more => (list? fuel more).map fun r => (n.followedBy r.1, r.2)
            | '\n' :: more => (list? fuel more).map fun r => (n.followedBy r.1, r.2)
            | '&' :: more =>
                (list? fuel more).map fun r => ((Node.background n).followedBy r.1, r.2)
            | rest => some (n, rest)

/-- Commands that must be there. -/
def body? : Nat → List Char → Option (Node × List Char)
  | 0, _ => none
  | fuel + 1, s => (list? fuel s).filter fun r => !r.1.isSkip

/-- Pipelines that depend on each other's success. -/
def chain? : Nat → List Char → Option (Node × List Char)
  | 0, _ => none
  | fuel + 1, s =>
      match pipeline? fuel s with
      | some (n, rest) => links? fuel n rest
      | none => none

/-- The pipelines that depend on the ones before them. -/
def links? : Nat → Node → List Char → Option (Node × List Char)
  | 0, _, _ => none
  | fuel + 1, left, s =>
      match skipBlanks s with
      | '&' :: '&' :: rest =>
          match pipeline? fuel (skipLines rest) with
          | some (n, rest) => links? fuel (.both left n) rest
          | none => none
      | '|' :: '|' :: rest =>
          match pipeline? fuel (skipLines rest) with
          | some (n, rest) => links? fuel (.either left n) rest
          | none => none
      | rest => some (left, rest)

/-- A pipeline. -/
def pipeline? : Nat → List Char → Option (Node × List Char)
  | 0, _ => none
  | fuel + 1, s =>
      let s := skipBlanks s
      if upcoming s = ['!'] then
        (pipeline? fuel (s.drop 1)).map fun r => (.negated r.1, r.2)
      else
        match command? fuel s with
        | none => none
        | some (n, rest) =>
            match skipBlanks rest with
            | '|' :: '|' :: more => some (n, '|' :: '|' :: more)
            | '|' :: more =>
                (pipeline? fuel (skipLines more)).map fun r => (.pipe n r.1, r.2)
            | rest => some (n, rest)

/-- A command with the redirections after it. -/
def command? : Nat → List Char → Option (Node × List Char)
  | 0, _ => none
  | fuel + 1, s =>
      match compound? fuel s with
      | some (some (n, rest)) =>
          (redirects? fuel rest).map fun r => (n.withRedirects r.1, r.2)
      | some none => none
      | none =>
          if atClose s then none
          else
            match definition? s with
            | some (n, rest) =>
                match command? fuel (skipLines rest) with
                | some (body, rest) => some (.define n body, rest)
                | none => none
            | none => simple? fuel [] [] [] s

/-- A command that holds others: the outer `none` says that none begins here, the inner one that it
is ill-formed. -/
def compound? : Nat → List Char → Option (Option (Node × List Char))
  | 0, _ => none
  | fuel + 1, s =>
      let first := upcoming s
      match s with
      | '(' :: rest =>
          match body? fuel rest with
          | some (n, ')' :: rest) => some (some (.subshell n, rest))
          | _ => some none
      | s =>
          if first = ['\x7b'] then
            match body? fuel (s.drop 1) with
            | some (n, rest) => some ((reserved? "\x7d" rest).map fun rest => (n, rest))
            | none => some none
          else if first = "if".toList then some (branch? fuel (s.drop 2))
          else if first = "while".toList then some (loop? fuel true (s.drop 5))
          else if first = "until".toList then some (loop? fuel false (s.drop 5))
          else if first = "for".toList then some (each? fuel (s.drop 3))
          else if first = "case".toList then some (choice? fuel (s.drop 4))
          else none

/-- A conditional after its first word. -/
def branch? : Nat → List Char → Option (Node × List Char)
  | 0, _ => none
  | fuel + 1, s =>
      match body? fuel s with
      | none => none
      | some (condition, rest) =>
          match (reserved? "then" rest).bind (body? fuel) with
          | none => none
          | some (yes, rest) =>
              let s := skipLines rest
              let first := upcoming s
              if first = "elif".toList then
                (branch? fuel (s.drop 4)).map fun r => (.branch condition yes r.1, r.2)
              else if first = "else".toList then
                match body? fuel (s.drop 4) with
                | some (no, rest) =>
                    (reserved? "fi" rest).map fun rest => (.branch condition yes no, rest)
                | none => none
              else (reserved? "fi" s).map fun rest => (.branch condition yes .skip, rest)

/-- A loop after its first word. -/
def loop? : Nat → (whileTrue : Bool) → List Char → Option (Node × List Char)
  | 0, _, _ => none
  | fuel + 1, whileTrue, s =>
      match body? fuel s with
      | none => none
      | some (condition, rest) =>
          (repeated? fuel rest).map fun r => (.loop whileTrue condition r.1, r.2)

/-- The body of a loop between its two words. -/
def repeated? : Nat → List Char → Option (Node × List Char)
  | 0, _ => none
  | fuel + 1, s =>
      match (reserved? "do" s).bind (body? fuel) with
      | some (body, rest) => (reserved? "done" rest).map fun rest => (body, rest)
      | none => none

/-- The words of a line. -/
def words? : Nat → List Char → Option (List Word × List Char)
  | 0, _ => none
  | fuel + 1, s =>
      match word? fuel (skipBlanks s) with
      | some ([], rest) => some ([], rest)
      | some (w, rest) => (words? fuel rest).map fun r => (w :: r.1, r.2)
      | none => none

/-- A loop over words after its first word. -/
def each? : Nat → List Char → Option (Node × List Char)
  | 0, _ => none
  | fuel + 1, s =>
      match name (skipBlanks s) with
      | ([], _) => none
      | (n, rest) =>
          match reserved? "in" rest with
          | some rest =>
              match words? fuel rest with
              | some (ws, ';' :: rest) =>
                  (repeated? fuel rest).map fun r => (.each n (some ws) r.1, r.2)
              | some (ws, '\n' :: rest) =>
                  (repeated? fuel rest).map fun r => (.each n (some ws) r.1, r.2)
              | _ => none
          | none =>
              let rest := match skipBlanks rest with
                | ';' :: rest => rest
                | rest => rest
              (repeated? fuel rest).map fun r => (.each n none r.1, r.2)

/-- A choice after its first word. -/
def choice? : Nat → List Char → Option (Node × List Char)
  | 0, _ => none
  | fuel + 1, s =>
      match word? fuel (skipBlanks s) with
      | none => none
      | some (w, rest) =>
          match (reserved? "in" rest).bind (arms? fuel) with
          | some (arms, rest) => some (.choice w arms, rest)
          | none => none

/-- The arms of a choice and its last word. -/
def arms? : Nat → List Char → Option (List (List Word × Node) × List Char)
  | 0, _ => none
  | fuel + 1, s =>
      match reserved? "esac" s with
      | some rest => some ([], rest)
      | none =>
          let s := match skipLines s with
            | '(' :: rest => rest
            | rest => rest
          match patterns? fuel s with
          | none => none
          | some (patterns, rest) =>
              match list? fuel rest with
              | none => none
              | some (body, rest) =>
                  match skipLines rest with
                  | ';' :: ';' :: rest =>
                      (arms? fuel rest).map fun r => ((patterns, body) :: r.1, r.2)
                  | rest => (reserved? "esac" rest).map fun rest => ([(patterns, body)], rest)

/-- The patterns of an arm and the parenthesis after them. -/
def patterns? : Nat → List Char → Option (List Word × List Char)
  | 0, _ => none
  | fuel + 1, s =>
      match word? fuel (skipBlanks s) with
      | some ([], _) => none
      | some (w, rest) =>
          match skipBlanks rest with
          | ')' :: rest => some ([w], rest)
          | '|' :: rest => (patterns? fuel rest).map fun r => (w :: r.1, r.2)
          | _ => none
      | none => none

end

end Reader

/-- The command line that a text spells. -/
def parse? (s : List Char) : Option Node :=
  match Reader.list? (16 * (s.length + 4)) s with
  | some (n, []) => some n
  | _ => none

end OrderedDispatch.Shell
