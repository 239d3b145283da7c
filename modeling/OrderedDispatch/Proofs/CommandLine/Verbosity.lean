/-
**How verbose a command line is.**

One would expect that every flag for more verbosity counts, wherever it stands on the command line.
This **fails**: a command inside of another one that has such flags of its own makes those before it
count for nothing, so one flag more can lower the verbosity (`parse_lowered`).  At one command
all flags count, however they are spelt: by name or by letter, alone or among others.

Main definitions:

* `Command.total` — how often an option is given on the whole command line;
* `Command.deepest` — how often it is given at the deepest command that has it.

Main results:

* `deepest?_cons` — a command below takes precedence;
* `parse_verbosity` — **the verbosity is the number of flags at the deepest command that has any**,
  and that of all flags where they stand at one command or are too many anyway.
-/

import OrderedDispatch.Proofs.CommandLine.Accepted

set_option relaxedAutoImplicit false
set_option autoImplicit false

namespace OrderedDispatch.CommandLine

/-! ### The deepest command with an option -/

theorem has_eq_decide (r : Reading) (o : Opt) : r.has o = decide (0 < r.count o) := by
  rw [Bool.eq_iff_iff, decide_eq_true_eq, Reading.count, List.countP_pos_iff, Reading.has,
    List.any_eq_true]

/-- A command below takes precedence. -/
theorem deepest?_cons (p : Place) (r : Reading) (steps : List (Place × Reading))
    (rest : List (List Char)) (o : Opt) :
    deepest? ⟨(p, r) :: steps, rest⟩ o =
      match deepest? ⟨steps, rest⟩ o with
      | some r' => some r'
      | none => if r.has o then some r else none := by
  unfold deepest?
  simp only [List.reverse_cons, List.find?_append]
  cases hfind : steps.reverse.find? fun s => s.2.has o with
  | some s => simp
  | none => cases hhas : r.has o <;> simp [hhas]

theorem has_of_deepest? {t : Trail} {r : Reading} {o : Opt} (h : deepest? t o = some r) :
    r.has o = true := by
  obtain ⟨s, hfind, rfl⟩ := Option.map_eq_some_iff.1 h
  simpa using List.find?_some hfind

theorem count_if_has (r : Reading) (o : Opt) :
    ((if r.has o then some r else none).map (·.count o)).getD 0 = r.count o := by
  rw [has_eq_decide]
  by_cases hcount : 0 < r.count o <;> simp [hcount]
  omega

theorem count_reverse (given : List Given) (ended : Bool) (o : Opt) :
    ({ given := given.reverse, ended := ended } : Reading).count o
      = given.countP (·.opt = o) := List.countP_reverse

namespace Command

/-- How often pieces give an option. -/
def times (o : Opt) (pieces : List Piece) : Nat := (givenBy pieces).countP (·.opt = o)

/-- How often an option is given on the whole command line. -/
def total (o : Opt) : Command → Nat
  | last pieces _ _ => times o pieces
  | nested pieces _ _ inner => times o pieces + inner.total o

/-- How often an option is given at the deepest command that has it. -/
def deepest (o : Opt) : Command → Nat
  | last pieces _ _ => times o pieces
  | nested pieces _ _ inner => if inner.deepest o = 0 then times o pieces else inner.deepest o

theorem deepest_le_total (o : Opt) (c : Command) : c.deepest o ≤ c.total o := by
  induction c with
  | last pieces dashes ws => exact Nat.le_refl _
  | nested pieces name q inner ih =>
      rw [deepest, total]
      split <;> omega

/-- The deepest reading with an option has it as often as the deepest command. -/
theorem count_deepest? (c : Command) (p : Place) (o : Opt) :
    ((deepest? (c.trail [] p) o).map (·.count o)).getD 0 = c.deepest o := by
  induction c generalizing p with
  | last pieces dashes ws =>
      rw [trail, steps, deepest?_cons]
      exact (count_if_has _ o).trans (count_reverse ..)
  | nested pieces name q inner ih =>
      have hinner := ih q
      rw [trail, steps, rest, deepest?_cons, deepest]
      rw [trail] at hinner
      cases hdeepest : deepest? ⟨inner.steps [] q, inner.rest⟩ o with
      | none =>
          have hzero : inner.deepest o = 0 := by rw [← hinner, hdeepest]; rfl
          rw [if_pos hzero]
          exact (count_if_has _ o).trans (count_reverse ..)
      | some r =>
          have hcount : inner.deepest o = r.count o := by rw [← hinner, hdeepest]; rfl
          have hpos := has_of_deepest? hdeepest
          rw [has_eq_decide, decide_eq_true_eq] at hpos
          rw [hcount, if_neg (Nat.pos_iff_ne_zero.1 hpos)]
          rfl

/-- The verbosity is the number of flags at the deepest command that has any. -/
theorem verbosity_trail (c : Command) (p : Place) :
    verbosity (c.trail [] p) = min greatestVerbosity (c.deepest .verbose) := by
  rw [verbosity, count_deepest?]

end Command

theorem exists_trail_of_parse {ws : List (List Char)} {i : Invocation} (h : parse ws = .ok i) :
    ∃ t, walk .root {} ws = .ok t ∧ i.verbosity = verbosity t := by
  unfold parse at h
  split at h
  · cases h
  · cases h
    exact ⟨_, ‹_›, rfl⟩

/-- The verbosity is the number of flags at the deepest command that has any, however they are
spelt; so all flags count exactly where there are none above that command, or too many at it. -/
theorem parse_verbosity {ws : List (List Char)} {i : Invocation} (h : parse ws = .ok i) :
    (∃ c : Command, c.Fits [] .root ∧ c.words = ws) ∧
      ∀ c : Command, c.Fits [] .root → c.words = ws →
        i.verbosity = min greatestVerbosity (c.deepest .verbose)
          ∧ (i.verbosity = min greatestVerbosity (c.total .verbose) ↔
            c.deepest .verbose = c.total .verbose ∨ greatestVerbosity ≤ c.deepest .verbose) := by
  obtain ⟨t, hwalk, hverbosity⟩ := exists_trail_of_parse h
  obtain ⟨c, hfits, hwords, -⟩ := walk_eq_ok_iff.1 hwalk
  refine ⟨⟨c, hfits, hwords⟩, fun c hfits hwords => ?_⟩
  have htrail : t = c.trail [] .root := by
    have hread := c.walk_words hfits
    rw [hwords] at hread
    exact Except.ok.inj (hwalk.symm.trans hread)
  have hle := c.deepest_le_total .verbose
  rw [hverbosity, htrail, c.verbosity_trail]
  exact ⟨rfl, by omega⟩

/-- Two flags before a command and one behind its name. -/
def lowered : Command :=
  .nested [.letters [.verbose], .letters [.verbose]] "estimate" .estimate
    (.last [.letters [.verbose]] false [])

theorem parse_verbosity_sample : ∃ i, parse lowered.words = .ok i
    ∧ lowered.words = ["-v".toList, "-v".toList, "estimate".toList, "-v".toList]
    ∧ i.verbosity = min greatestVerbosity (lowered.deepest .verbose)
    ∧ lowered.deepest .verbose = 1 :=
  ⟨_, rfl, rfl, ((parse_verbosity rfl).2 lowered (by decide) rfl).1, by decide⟩

/-- The flag behind the name makes the verbosity one, where three would be expected. -/
theorem parse_lowered :
    ¬∀ (ws : List (List Char)) (i : Invocation), parse ws = .ok i →
      ∀ c : Command, c.Fits [] .root → c.words = ws →
        i.verbosity = min greatestVerbosity (c.total .verbose) := by
  intro hall
  have hthree : lowered.total .verbose = 3 := by decide
  have hsum := hall lowered.words _ rfl lowered (by decide) rfl
  rw [hthree] at hsum
  revert hsum
  decide

/-- Without that flag the verbosity is two. -/
example : (parse ["-v".toList, "-v".toList, "estimate".toList]).toOption.map (·.verbosity)
    = some 2 := by decide

end OrderedDispatch.CommandLine
