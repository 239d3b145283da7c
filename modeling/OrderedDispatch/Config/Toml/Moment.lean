/-
**Dates and times of TOML.**

A moment is a date, a time of day, or a date and a time with or without an offset.  No setting is
one, so a moment is only checked and brought into one spelling: a `T` between date and time, a `Z`
for the offset zero that is written with a letter, and a fraction of at most nine places without
trailing zeros.

Main definitions:

* `Config.Toml.date?`, `Config.Toml.time?`, `Config.Toml.offset?` — the parts in their spelling;
* `Config.Toml.moment?` — a moment in its spelling.
-/

import OrderedDispatch.Config.Reader

set_option relaxedAutoImplicit false
set_option autoImplicit false

namespace OrderedDispatch.Config.Toml

/-- A number of exactly so many digits between two bounds, with its digits. -/
def field? (count low high : Nat) (s : List Char) : Option ((Nat × List Char) × List Char) := do
  let digits := s.take count
  if digits.length = count && digits.all Text.isDigit then
    let n ← Text.natOfDigits? 10 digits
    if low ≤ n && n ≤ high then some ((n, digits), s.drop count) else none
  else none

/-- A character at the front of a text. -/
def char? (c : Char) : List Char → Option (List Char)
  | d :: rest => if d = c then some rest else none
  | [] => none

/-- Whether a year has a twenty-ninth of February. -/
def isLeapYear (year : Nat) : Bool := year % 4 = 0 && (year % 100 ≠ 0 || year % 400 = 0)

/-- The number of days of a month. -/
def daysOfMonth (year month : Nat) : Nat :=
  if month = 2 then (if isLeapYear year then 29 else 28)
  else if month = 4 || month = 6 || month = 9 || month = 11 then 30
  else 31

/-- A date. -/
def date? : Reader (List Char) := fun s => do
  let ((year, y), s) ← field? 4 0 9999 s
  let s ← char? '-' s
  let ((month, m), s) ← field? 2 1 12 s
  let s ← char? '-' s
  let ((_, d), s) ← field? 2 1 (daysOfMonth year month) s
  some (y ++ '-' :: m ++ '-' :: d, s)

/-- The fraction of a second after its point: nine places at most, without trailing zeros. -/
def fractionText (digits : List Char) : List Char :=
  let kept := ((digits.take 9).reverse.dropWhile (· = '0')).reverse
  if kept.isEmpty then [] else '.' :: kept

/-- A time of day. -/
def time? : Reader (List Char) := fun s => do
  let ((_, h), s) ← field? 2 0 23 s
  let s ← char? ':' s
  let ((_, m), s) ← field? 2 0 59 s
  let s ← char? ':' s
  let ((_, sec), s) ← field? 2 0 60 s
  let clock := h ++ ':' :: m ++ ':' :: sec
  match s with
  | '.' :: rest =>
      let (digits, rest) := spanWhile Text.isDigit rest
      if digits.isEmpty then none else some (clock ++ fractionText digits, rest)
  | s => some (clock, s)

/-- The offset of a time. -/
def offset? : Reader (List Char)
  | 'Z' :: rest => some (['Z'], rest)
  | 'z' :: rest => some (['Z'], rest)
  | c :: rest =>
      if c = '+' || c = '-' then do
        let ((_, h), s) ← field? 2 0 23 rest
        let s ← char? ':' s
        let ((_, m), s) ← field? 2 0 59 s
        some (c :: h ++ ':' :: m, s)
      else none
  | [] => none

/-- The time that follows a date, with its offset if there is one. -/
def timeAfterDate? : Reader (List Char)
  | c :: rest =>
      if c = 'T' || c = 't' || c = ' ' then do
        let (time, s) ← time? rest
        match offset? s with
        | some (offset, s) => some ('T' :: time ++ offset, s)
        | none => some ('T' :: time, s)
      else none
  | [] => none

/-- A moment. -/
def moment? : Reader (List Char) := fun s =>
  match date? s with
  | some (date, rest) =>
      match timeAfterDate? rest with
      | some (time, rest) => some (date ++ time, rest)
      | none => some (date, rest)
  | none => time? s

end OrderedDispatch.Config.Toml
