/-
**Searching a text for a fixed pattern.**

Command templates, item lists, environment names and file paths are all cut up or rewritten at the
occurrences of a fixed text, taken from left to right without overlaps.

Main definitions:

* `Text.stripStart?` — what follows a pattern at the start of a text;
* `Text.occurs` — whether a pattern occurs in a text;
* `Text.replaceAll` — a text with every occurrence of a pattern replaced;
* `Text.splitAt` — the pieces of a text between the occurrences of a character.

Main results:

* `Text.stripStart?_append`, `Text.eq_append_of_stripStart?` — stripping undoes prepending and
  only that;
* `Text.splitAt_append` — pieces on both sides of a separator are found independently.
-/

set_option relaxedAutoImplicit false
set_option autoImplicit false

namespace OrderedDispatch.Text

/-- What follows the pattern at the start of the text, if the text starts with it. -/
def stripStart? : List Char → List Char → Option (List Char)
  | [], s => some s
  | _ :: _, [] => none
  | p :: ps, c :: s => if p = c then stripStart? ps s else none

@[simp] theorem stripStart?_append (p s : List Char) : stripStart? p (p ++ s) = some s := by
  induction p with
  | nil => rfl
  | cons c p ih => simp [stripStart?, ih]

theorem eq_append_of_stripStart? {p s r : List Char} (h : stripStart? p s = some r) :
    s = p ++ r := by
  induction p generalizing s with
  | nil => simpa [stripStart?] using h
  | cons c p ih =>
      cases s with
      | nil => simp [stripStart?] at h
      | cons d s =>
          by_cases hcd : c = d
          · simp only [stripStart?, hcd, if_true] at h
            simp [hcd, ih h]
          · simp [stripStart?, hcd] at h

/-- Stripping a pattern that is not empty leaves a shorter text. -/
theorem length_lt_of_stripStart? {p s r : List Char} (hp : p ≠ []) (h : stripStart? p s = some r) :
    r.length < s.length := by
  rw [eq_append_of_stripStart? h, List.length_append]
  have : 0 < p.length := List.length_pos_iff.2 hp
  omega

/-- Whether the pattern occurs in the text. -/
def occurs (pattern : List Char) : List Char → Bool
  | [] => pattern.isEmpty
  | c :: s => (stripStart? pattern (c :: s)).isSome || occurs pattern s

/-- The text with every occurrence of the pattern replaced, found from left to right; an empty
pattern occurs nowhere. -/
def replaceAll (pattern replacement : List Char) (s : List Char) : List Char :=
  if hp : pattern = [] then s
  else
    match hs : stripStart? pattern s with
    | some rest =>
        have := length_lt_of_stripStart? hp hs
        replacement ++ replaceAll pattern replacement rest
    | none =>
        match s with
        | [] => []
        | c :: s => c :: replaceAll pattern replacement s
  termination_by s.length

/-- The pieces of the text between the occurrences of a separator; there is one piece more than
there are separators. -/
def splitAt (sep : Char) : List Char → List (List Char)
  | [] => [[]]
  | c :: s =>
      if c = sep then [] :: splitAt sep s
      else
        match splitAt sep s with
        | [] => [[c]]
        | piece :: pieces => (c :: piece) :: pieces

theorem splitAt_ne_nil (sep : Char) (s : List Char) : splitAt sep s ≠ [] := by
  cases s with
  | nil => simp [splitAt]
  | cons c s =>
      by_cases h : c = sep
      · simp [splitAt, h]
      · simp only [splitAt, h, if_false]
        split <;> simp

/-- The pieces before and after a separator are the pieces of the two sides. -/
theorem splitAt_append (sep : Char) (s t : List Char) :
    splitAt sep (s ++ sep :: t) = splitAt sep s ++ splitAt sep t := by
  induction s with
  | nil => simp [splitAt]
  | cons c s ih =>
      by_cases h : c = sep
      · simp [splitAt, h, ih]
      · simp only [List.cons_append, splitAt, h, if_false, ih]
        cases hs : splitAt sep s with
        | nil => exact absurd hs (splitAt_ne_nil sep s)
        | cons piece pieces => simp

/-- The pieces of a string between the occurrences of a separator. -/
def splitString (sep : Char) (s : String) : List String :=
  (splitAt sep s.toList).map String.ofList

end OrderedDispatch.Text
