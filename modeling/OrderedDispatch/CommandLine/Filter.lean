/-
**Which events are shown.**

A filter is a list of directives.  A directive lets events up to a level through; it may be about
the parts of the program whose names begin in a certain way, and it may be about what happens inside
of a session.  Of the directives that are not about sessions the most specific one decides, which is
the one with the longest name; one about sessions can only let more events through.

Main definitions:

* `Filter.Directive`, `Filter` — a directive, and a list of them;
* `Filter.Directive.read?`, `Filter.read?` — their notation;
* `Filter.showsSessions`, `Filter.shows` — what a filter lets through.

Main results:

* `Filter.shows_ofLevel` — a filter of one level shows exactly the events up to it.
-/

import OrderedDispatch.Event
import OrderedDispatch.Text.Blank
import OrderedDispatch.Text.Numeral
import OrderedDispatch.Text.Pattern

set_option relaxedAutoImplicit false
set_option autoImplicit false

namespace OrderedDispatch.CommandLine

namespace Filter

/-- A field that a session must have, and perhaps the text of its value. -/
structure Field where
  name : List Char
  value : Option (List Char) := none
  deriving DecidableEq, Inhabited

/-- A rule that lets events up to a level through. -/
structure Directive where
  /-- the rank of the least urgent level that passes; nothing passes at zero -/
  level : Nat := 5
  /-- how the name of the part that speaks has to begin -/
  target : Option (List Char) := none
  /-- the kind of span that the event has to be in -/
  span : Option (List Char) := none
  /-- the fields that the span has to have -/
  fields : List Field := []
  deriving DecidableEq, Inhabited

namespace Directive

/-- Whether the directive is about what happens inside of spans. -/
def isDynamic (d : Directive) : Bool := d.span.isSome || !d.fields.isEmpty

/-- Whether the directive is about events wherever they happen. -/
def isStatic (d : Directive) : Bool := d.span.isNone && d.fields.all (·.value.isNone)

/-- Whether the directive is about the part of the program with a name. -/
def fitsTarget (d : Directive) (target : List Char) : Bool :=
  match d.target with
  | none => true
  | some t => t.isPrefixOf target

end Directive

/-! ### Notation -/

/-- The levels by name, in the order of their ranks. -/
def levelNames : List String := ["off", "error", "warn", "info", "debug", "trace"]

/-- The rank of a level that is given by its number or by its name in any case; an empty text is the
most urgent one. -/
def levelRank? (s : List Char) : Option Nat :=
  match (Text.readNat? s).filter (· ≤ 5) with
  | some n => some n
  | none =>
      if s.isEmpty then some 1
      else levelNames.idxOf? (String.ofList (s.map Char.toLower))

/-- A character that a directive may begin with. -/
def startsDirective (c : Char) : Bool :=
  Text.isLetter c || Text.isDigit c || ['-', ':', '_'].contains c || 128 ≤ c.toNat

/-- The field of a text. -/
def field? (s : List Char) : Option Field :=
  match Text.splitAt '=' s with
  | [] => none
  | name :: values => if s.isEmpty then none else some ⟨name, values.head?⟩

/-- A directive with its level after an equals sign, where no level stands for all of them. -/
def withLevel? (d : Directive) (s : List Char) : Option Directive :=
  if s.isEmpty then some { d with level := 5 }
  else (levelRank? s).map fun rank => { d with level := rank }

/-- A directive after its bracket. -/
def afterSpan? (d : Directive) : List Char → Option Directive
  | [] => some d
  | '=' :: s => withLevel? d s
  | _ => none

/-- A directive with the span in its bracket. -/
def withSpan? (d : Directive) (s : List Char) : Option Directive :=
  let isEnd (c : Char) : Bool := c = ']' || c = '\x7b'
  let named := { d with span := some (s.takeWhile fun c => !isEnd c) }
  match s.dropWhile fun c => !isEnd c with
  | ']' :: rest => afterSpan? named rest
  | '\x7b' :: rest =>
      match rest.dropWhile (· ≠ '\x7d') with
      | '\x7d' :: ']' :: after =>
          match (Text.splitAt ',' (rest.takeWhile (· ≠ '\x7d'))).mapM field? with
          | some fields => afterSpan? { named with fields := fields } after
          | none => none
      | _ => none
  | _ => none

/-- The directive that a text without blanks around it spells: a level, or a name with a level, or a
name with a span in brackets and perhaps a level. -/
def bareDirective? (s : List Char) : Option Directive :=
  match s with
  | '[' :: rest => withSpan? {} rest
  | c :: _ =>
      if !startsDirective c then none
      else
        let isEnd (c : Char) : Bool := c = '=' || c = '['
        let word := s.takeWhile fun c => !isEnd c
        match s.dropWhile fun c => !isEnd c with
        | '=' :: rest => withLevel? { target := some word } rest
        | '[' :: rest => withSpan? { target := some word } rest
        | _ =>
            match levelRank? word with
            | some rank => some { level := rank }
            | none => some { target := some word }
  | [] => none

/-- The directive that a text spells.  Blanks around a name belong to it, so that the directive fits
nothing, and around a level they are an error; only after a span they do not matter. -/
def directive? (s : List Char) : Option Directive :=
  let bare := Text.trim s
  match bareDirective? bare with
  | none => none
  | some d =>
      if bare = s then some d
      else if d.span.isNone then
        if bare.contains '=' then none else some { target := some s }
      else if bare.getLast? ≠ some ']' then none
      else if s.head?.any Text.isBlank then some { d with target := some s }
      else some d

end Filter

/-- A list of directives. -/
structure Filter where
  directives : List Filter.Directive
  deriving DecidableEq, Inhabited

namespace Filter

/-- A filter that only looks at the level. -/
def ofLevel (l : Level) : Filter := ⟨[{ level := l.rank }]⟩

/-- The filter that a text spells, with a comma between each two directives; without any directive
only errors pass. -/
def read? (s : List Char) : Option Filter :=
  match ((Text.splitAt ',' s).filter fun p => !p.isEmpty).mapM directive? with
  | some [] => some (ofLevel .error)
  | some ds => some ⟨ds⟩
  | none => none

/-! ### What passes -/

/-- The part of the program that opens sessions. -/
def sessionTarget : List Char := "orderly::parallel::session".toList

/-- The name of the span of a session. -/
def sessionSpan : List Char := "session".toList

/-- The field of the span of a session. -/
def sessionField : List Char := "id".toList

/-- The greatest rank that any directive mentions; a directive about values may need every event. -/
def reach (f : Filter) : Nat :=
  if f.directives.any fun d => d.fields.any (·.value.isSome) then 5
  else (f.directives.map Directive.level).foldl max 0

/-- Whether the first of two directives about a part of the program gives way to the second, which
is not less specific. -/
def givesWay (a b : Directive) : Bool :=
  let length (d : Directive) : Nat := (d.target.map (·.length + 1)).getD 0
  length a < length b || (length a = length b && a.fields.length ≤ b.fields.length)

/-- The directive that decides about events of a part of the program, wherever they happen. -/
def decisive? (f : Filter) (isEvent : Bool) (target : List Char) : Option Directive :=
  let plain := f.directives.filter (!·.isDynamic) ++ f.directives.filter (·.isDynamic)
  let apt := plain.filter fun d =>
    d.isStatic && d.fitsTarget target && (!isEvent || d.fields.all (·.name = "message".toList))
  apt.foldl
    (fun best d => match best with
      | none => some d
      | some b => if givesWay b d then some d else some b)
    none

/-- Whether a level of a part of the program passes, wherever it speaks. -/
def passes (f : Filter) (isEvent : Bool) (target : List Char) (rank : Nat) : Bool :=
  match f.decisive? isEvent target with
  | some d => rank ≤ d.level
  | none => false

/-- The directives about the inside of sessions. -/
def sessionDirectives (f : Filter) : List Directive :=
  f.directives.filter fun d =>
    d.isDynamic && d.fitsTarget sessionTarget && (d.span.all (· = sessionSpan))
      && d.fields.all (·.name = sessionField)

/-- Whether sessions are shown. -/
def showsSessions (f : Filter) : Bool :=
  Level.debug.rank ≤ f.reach
    && (!f.sessionDirectives.isEmpty || f.passes false sessionTarget Level.debug.rank)

/-- The greatest rank that passes inside of a session only because it is there. -/
def sessionReach (f : Filter) (label : String) : Nat :=
  if !f.showsSessions then 0
  else
    ((f.sessionDirectives.filter fun d => d.fields.all fun x =>
      x.value.all (· = label.toList)).map Directive.level).foldl max 0

/-- Whether an event of a level is shown that happened in the session of a label, or in none. -/
def shows (f : Filter) (session : Option String) (level : Level) (target : String) : Bool :=
  (match session with
    | some label => level.rank ≤ f.sessionReach label
    | none => false)
    || f.passes true target.toList level.rank

/-- A filter of one level shows exactly the events up to it, in sessions and outside of them. -/
theorem shows_ofLevel (l level : Level) (session : Option String) (target : String) :
    (ofLevel l).shows session level target = decide (level.rank ≤ l.rank) := by
  have hs (label : String) : (ofLevel l).sessionReach label = 0 := by
    simp [sessionReach, sessionDirectives, ofLevel, Directive.isDynamic]
  have hp : (ofLevel l).passes true target.toList level.rank = decide (level.rank ≤ l.rank) := by
    simp [passes, decisive?, ofLevel, Directive.isDynamic, Directive.isStatic,
      Directive.fitsTarget]
  have h0 : ¬ level.rank ≤ 0 := by cases level <;> decide
  cases session with
  | none => simp [shows, hp]
  | some label => simp only [shows, hs, hp, h0, decide_false, Bool.false_or]

end Filter

end OrderedDispatch.CommandLine
