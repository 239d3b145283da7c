/-
**Showing the settings.**

The settings are shown in TOML or in JSON, with their sections in a fixed order.  JSON is indented
by two blanks and escapes the quote, the backslash and control characters.  TOML picks for each text
the first of its forms that needs no escape, and writes a text with line breaks over several lines
if it can.

Main definitions:

* `Config.Format`, `Config.render` — the formats, and the settings in one of them;
* `Config.Render.jsonText` — a text in JSON;
* `Config.Render.tomlText` — a text in TOML.
-/

import OrderedDispatch.Config.Extract

set_option relaxedAutoImplicit false
set_option autoImplicit false

namespace OrderedDispatch.Config

namespace Render

/-- The last hexadecimal digits of a number, in lower case. -/
def hexTail (digits n : Nat) : List Char :=
  let d := Nat.toDigits 16 n
  List.replicate (digits - d.length) '0' ++ d

/-! ### JSON -/

/-- A character inside a text. -/
def jsonChar (c : Char) : List Char :=
  if c = '"' then ['\\', '"']
  else if c = '\\' then ['\\', '\\']
  else if c = '\x08' then ['\\', 'b']
  else if c = '\x0c' then ['\\', 'f']
  else if c = '\n' then ['\\', 'n']
  else if c = '\r' then ['\\', 'r']
  else if c = '\t' then ['\\', 't']
  else if c.toNat < 0x20 then '\\' :: 'u' :: hexTail 4 c.toNat
  else [c]

/-- A text. -/
def jsonText (s : List Char) : List Char := '"' :: s.flatMap jsonChar ++ ['"']

/-! ### TOML -/

/-- What decides in which form a text is written. -/
structure Traits where
  /-- the longest run of single quotes -/
  singles : Nat := 0
  /-- the longest run of double quotes -/
  doubles : Nat := 0
  hasBackslash : Bool := false
  hasBreak : Bool := false
  /-- whether there are control characters other than the tab and the line break -/
  hasControl : Bool := false
  deriving DecidableEq, Inhabited

/-- The length of the longest run of a character, given the length of the run just before. -/
def longestRun (c : Char) : Nat → List Char → Nat
  | run, [] => run
  | run, d :: rest => if d = c then longestRun c (run + 1) rest else max run (longestRun c 0 rest)

/-- A control character other than the tab and the line break. -/
def isControl (c : Char) : Bool := (c.toNat < 0x20 && c ≠ '\t' && c ≠ '\n') || c.toNat = 0x7F

/-- The traits of a text. -/
def traits (s : List Char) : Traits where
  singles := longestRun '\'' 0 s
  doubles := longestRun '"' 0 s
  hasBackslash := s.contains '\\'
  hasBreak := s.contains '\n'
  hasControl := s.any isControl

/-- The forms in which a text can be written. -/
inductive Form where
  | basic
  | literal
  | longBasic
  | longLiteral
  deriving DecidableEq, Inhabited

/-- The form of a text: the first that needs no escape. -/
def formOf (t : Traits) : Form :=
  if !t.hasControl && !t.hasBackslash && t.doubles = 0 && !t.hasBreak then .basic
  else if !t.hasControl && t.singles = 0 && !t.hasBreak then .literal
  else if !t.hasControl && !t.hasBackslash && t.doubles ≤ 2 then .longBasic
  else if !t.hasControl && t.singles ≤ 2 then .longLiteral
  else if t.hasBreak then .longBasic
  else .basic

/-- A character of a basic text that is written by an escape, if it has a letter. -/
def escapeLetter? (c : Char) : Option Char :=
  if c = '\x08' then some 'b'
  else if c = '\t' then some 't'
  else if c = '\n' then some 'n'
  else if c = '\x0c' then some 'f'
  else if c = '\r' then some 'r'
  else if c = '"' then some '"'
  else if c = '\\' then some '\\'
  else none

/-- A character of a basic text by its escape, or by itself if it needs none. -/
def tomlChar (c : Char) : List Char :=
  match escapeLetter? c with
  | some d => ['\\', d]
  | none =>
      if c.toNat < 0x20 || c.toNat = 0x7F then
        '\\' :: 'u' :: (hexTail 4 c.toNat).map Char.toUpper
      else [c]

/-- The inside of a basic text over several lines; `run` counts the quotes just written as
themselves, of which there are never three. -/
def longBody : Nat → List Char → List Char
  | _, [] => []
  | run, c :: rest =>
      if c = '\n' then '\n' :: longBody 0 rest
      else if c = '"' && run < 2 then '"' :: longBody (run + 1) rest
      else tomlChar c ++ longBody 0 rest

/-- Quotes with a line break after them if the text has line breaks. -/
def opening (quotes : List Char) (t : Traits) : List Char :=
  if t.hasBreak then quotes ++ ['\n'] else quotes

/-- A text. -/
def tomlText (s : List Char) : List Char :=
  let t := traits s
  match formOf t with
  | .basic => '"' :: s.flatMap tomlChar ++ ['"']
  | .literal => '\'' :: s ++ ['\'']
  | .longBasic => opening ['"', '"', '"'] t ++ longBody 0 s ++ ['"', '"', '"']
  | .longLiteral => opening ['\'', '\'', '\''] t ++ s ++ ['\'', '\'', '\'']

/-! ### The whole -/

/-- One setting as it is shown. -/
inductive Shown where
  | number (n : Nat)
  | flag (b : Bool)
  | text (s : List Char)

/-- A number or a flag, or a text as a format writes it. -/
def Shown.render (text : List Char → List Char) : Shown → List Char
  | .number n => Nat.toDigits 10 n
  | .flag b => (toString b).toList
  | .text s => text s

/-- The sections with their settings, as they are shown. -/
def shown (c : Config) : List (String × List (String × Shown)) := [
  ("parallel", [
    ("threads", .number c.parallel.requested),
    ("max_threads", .number c.parallel.maxThreads),
    ("memory_per_thread_mb", .number c.parallel.memoryPerThread)]),
  ("session", [
    ("trace", .flag c.session.trace),
    ("verbose", .flag c.session.verbose)]),
  ("run", [
    ("shell", .text c.shell.toList),
    ("placeholder", .text c.placeholder.toList)])]

/-- A section in TOML. -/
def tomlSection (s : String × List (String × Shown)) : List Char :=
  '[' :: s.1.toList ++ ']' :: '\n' ::
    s.2.flatMap fun e => e.1.toList ++ " = ".toList ++ e.2.render tomlText ++ ['\n']

/-- A section in JSON. -/
def jsonSection (s : String × List (String × Shown)) : List Char :=
  "  \"".toList ++ s.1.toList ++ "\": \x7b\n".toList
    ++ ",\n".toList.intercalate (s.2.map fun e =>
      "    \"".toList ++ e.1.toList ++ "\": ".toList ++ e.2.render jsonText)
    ++ "\n  \x7d".toList

end Render

/-- The formats in which settings are shown. -/
inductive Format where
  | toml
  | json
  deriving DecidableEq, Inhabited

/-- The settings in a format. -/
def render (c : Config) : Format → List Char
  | .toml => ['\n'].intercalate ((Render.shown c).map Render.tomlSection)
  | .json => "\x7b\n".toList
      ++ ",\n".toList.intercalate ((Render.shown c).map Render.jsonSection)
      ++ "\n\x7d".toList

end OrderedDispatch.Config
