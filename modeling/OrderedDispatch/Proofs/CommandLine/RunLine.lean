/-
**The command line of a run.**

A run can be written down so that it is read back as it was meant, whatever the words of the command
are: after two dashes they are taken as they stand, words that look like options, the names of
commands and the two dashes themselves among them.  The dashes may be left out if the first of the
words does not begin with one.

The options are written one after the other, each with all its values, so what an option comes to
can be told for each option by itself.

Main definitions:

* `Setting`, `Setting.Fits` — an option with all values that it is given;
* `RunLine`, `RunLine.words` — a run, and how it is written.

Main results:

* `values_givenAs` — each option has its own values;
* `RunLine.parse_words` — **a run is read as it was written**.
-/

import OrderedDispatch.Proofs.CommandLine.Verbosity
import OrderedDispatch.Proofs.Text.Numeral
import Mathlib.Data.List.Basic

set_option relaxedAutoImplicit false
set_option autoImplicit false

namespace OrderedDispatch.CommandLine

/-! ### Settings -/

/-- An option with all values that it is given; an option without a value is given empty ones. -/
structure Setting where
  opt : Opt
  values : List (List Char)

/-- What may be set at a place. -/
structure Setting.Fits (p : Place) (s : Setting) : Prop where
  placed : s.opt ∈ p.options
  carried : s.opt ≠ .help ∧ s.opt ≠ .version
  judged : ∀ v ∈ s.values, s.opt.judge v = none
  once : s.opt.repeats = true ∨ s.values.length ≤ 1
  bare : s.opt.takesValue = false → s.opt.short?.isSome = true ∧ ∀ v ∈ s.values, v = []

/-- The pieces that a setting is written in. -/
def Setting.pieces (s : Setting) : List Piece :=
  s.values.map fun v => if s.opt.takesValue then .nameValue s.opt false v else .letters [s.opt]

theorem Setting.fits_value {p : Place} {o : Opt} {values : List (List Char)}
    (hplaced : o ∈ p.options) (hvalue : o.takesValue = true)
    (hjudged : ∀ v ∈ values, o.judge v = none)
    (honce : o.repeats = true ∨ values.length ≤ 1) : Setting.Fits p ⟨o, values⟩ where
  placed := hplaced
  carried := by constructor <;> (rintro rfl; cases hvalue)
  judged := hjudged
  once := honce
  bare h := by
    rw [hvalue] at h
    cases h

theorem Setting.fits_flag {p : Place} {o : Opt} {values : List (List Char)}
    (hplaced : o ∈ p.options) (hcarried : o ≠ .help ∧ o ≠ .version)
    (hshort : o.short?.isSome = true) (hjudge : o.judge [] = none)
    (hempty : ∀ v ∈ values, v = []) (honce : o.repeats = true ∨ values.length ≤ 1) :
    Setting.Fits p ⟨o, values⟩ where
  placed := hplaced
  carried := hcarried
  judged v hv := by rwa [hempty v hv]
  once := honce
  bare _ := ⟨hshort, hempty⟩

/-- The words that a setting is written in. -/
def Setting.words (s : Setting) : List (List Char) :=
  s.values.map fun v =>
    if s.opt.takesValue then '-' :: '-' :: (s.opt.long.toList ++ '=' :: v)
    else '-' :: lettersOf [s.opt]

/-- The options that settings give. -/
def givenAs (settings : List Setting) : List Given :=
  settings.flatMap fun s => s.values.map (Given.mk s.opt)

variable {p : Place} {settings : List Setting}

theorem words_pieces (settings : List Setting) :
    (settings.flatMap Setting.pieces).flatMap Piece.words = settings.flatMap Setting.words := by
  rw [List.flatMap_assoc]
  refine List.flatMap_congr fun s _ => ?_
  rw [Setting.pieces, Setting.words, List.flatMap_map, List.map_eq_flatMap]
  refine List.flatMap_congr fun v _ => ?_
  split <;> rfl

theorem givenBy_pieces (h : ∀ s ∈ settings, s.Fits p) :
    givenBy (settings.flatMap Setting.pieces) = givenAs settings := by
  unfold givenBy givenAs
  rw [List.flatMap_assoc]
  refine List.flatMap_congr fun s hs => ?_
  have hgiven : ∀ v ∈ s.values, (if s.opt.takesValue then Piece.nameValue s.opt false v
      else .letters [s.opt]).given = [Given.mk s.opt v] := by
    intro v hv
    cases hvalue : s.opt.takesValue with
    | true => rfl
    | false => rw [((h s hs).bare hvalue).2 v hv]; rfl
  rw [Setting.pieces, List.flatMap_map]
  exact (List.flatMap_congr hgiven).trans (List.map_eq_flatMap).symm

theorem pieces_fit (h : ∀ s ∈ settings, s.Fits p) :
    ∀ x ∈ settings.flatMap Setting.pieces, x.Fits p := by
  intro x hx
  obtain ⟨s, hs, hx⟩ := List.mem_flatMap.1 hx
  obtain ⟨v, hv, rfl⟩ := List.mem_map.1 hx
  have hfits := h s hs
  cases hvalue : s.opt.takesValue with
  | true => exact ⟨hfits.placed, hvalue, nofun⟩
  | false =>
      refine ⟨by simp, fun o ho => ?_⟩
      obtain rfl := List.mem_singleton.1 ho
      exact ⟨hfits.placed, hvalue, (hfits.bare hvalue).1⟩

theorem mem_givenAs {g : Given} : g ∈ givenAs settings ↔
    ∃ s ∈ settings, ∃ v ∈ s.values, Given.mk s.opt v = g := by
  simp [givenAs]

theorem admissible_givenAs (h : ∀ s ∈ settings, s.Fits p)
    (hdistinct : (settings.map Setting.opt).Nodup) : Admissible (givenAs settings) := by
  refine ⟨fun g hg => ?_, fun g hg => ?_, List.pairwise_flatMap.2 ⟨fun s hs => ?_, ?_⟩⟩
  · obtain ⟨s, hs, v, hv, rfl⟩ := mem_givenAs.1 hg
    exact (h s hs).carried
  · obtain ⟨s, hs, v, hv, rfl⟩ := mem_givenAs.1 hg
    exact (h s hs).judged v hv
  · refine List.pairwise_map.2 ?_
    obtain hrepeats | hlength := (h s hs).once
    · exact List.pairwise_of_forall fun v v' _ => hrepeats
    · match s.values, hlength with
      | [], _ => exact List.Pairwise.nil
      | [v], _ => exact List.pairwise_singleton _ v
  · refine (List.pairwise_map.1 hdistinct).imp fun hne g hg g' hg' hsame => ?_
    obtain ⟨v, -, rfl⟩ := List.mem_map.1 hg
    obtain ⟨v', -, rfl⟩ := List.mem_map.1 hg'
    exact absurd hsame hne

/-- Each option has its own values. -/
theorem values_givenAs (settings : List Setting) (ended : Bool) (o : Opt) :
    ({ given := (givenAs settings).reverse, ended := ended } : Reading).values o
      = (settings.filter (·.opt = o)).flatMap Setting.values := by
  rw [Reading.values, List.reverse_reverse]
  induction settings with
  | nil => rfl
  | cons s settings ih =>
      have hsplit : givenAs (s :: settings)
          = s.values.map (Given.mk s.opt) ++ givenAs settings := rfl
      rw [hsplit, List.filter_append, List.map_append, ih]
      by_cases ho : s.opt = o
      · subst ho
        simp [List.filter_map, Function.comp_def]
      · simp [List.filter_map, Function.comp_def, ho]

/-! ### Readings with several options -/

theorem count_eq (r : Reading) (o : Opt) : r.count o = (r.values o).length := by
  simp [Reading.count, Reading.values, List.countP_eq_length_filter]

theorem has_eq (r : Reading) (o : Opt) : r.has o = !(r.values o).isEmpty := by
  rw [has_eq_decide, count_eq]
  cases r.values o <;> simp

theorem isOrdinary_of_head? {w : List Char} (h : w.head? ≠ some '-') : p.isOrdinary w = true := by
  have hshape : shapeOf w = .word := by
    unfold shapeOf
    split <;> simp_all
  rw [Place.isOrdinary, hshape]

/-! ### Runs -/

/-- The items that are given one by one. -/
def Source.items : Source → List (List Char)
  | listed items => items
  | _ => []

/-- The file with the items. -/
def Source.paths : Source → List (List Char)
  | file path => [path]
  | _ => []

/-- A source is known from its items and its files. -/
theorem sourceOf_eq {r : Reading} {source : Source} (hitems : r.values .item = source.items)
    (hpaths : r.values .input = source.paths) (hne : source ≠ .listed []) :
    sourceOf r = source := by
  rw [sourceOf, hitems, hpaths]
  match source, hne with
  | .listed (i :: is), _ => rfl
  | .file path, _ => rfl
  | .standardInput, _ => rfl

/-- A run as it is asked for on the command line. -/
structure RunLine where
  config : Option (List Char)
  verbosity : Nat
  quiet : Bool
  threads : Option Nat
  source : Source
  trace : Bool
  command : List (List Char)
  /-- the verbosity is not above the greatest one -/
  verbosity_le : verbosity ≤ greatestVerbosity
  /-- the number of threads is one of the machine -/
  threads_lt : ∀ n ∈ threads, n < Text.wordSize
  /-- without any item nothing is written of them -/
  items_ne : source ≠ .listed []
  /-- a file has a name -/
  path_ne : source ≠ .file []
  /-- there is a command to run -/
  command_ne : command ≠ []

namespace RunLine

variable (l : RunLine)

/-- How a run is written, with or without the two dashes before its command. -/
def words (dashes : Bool) : List (List Char) :=
  l.config.toList.map ("--config=".toList ++ ·)
    ++ List.replicate l.verbosity "-v".toList
    ++ (if l.quiet then ["-q".toList] else [])
    ++ ["run".toList]
    ++ l.threads.toList.map ("--threads=".toList ++ Nat.toDigits 10 ·)
    ++ l.source.items.map ("--item=".toList ++ ·)
    ++ l.source.paths.map ("--input=".toList ++ ·)
    ++ (if l.trace then ["-x".toList] else [])
    ++ (if dashes then ["--".toList] else [])
    ++ l.command

/-- What is meant by it. -/
def invocation : Invocation where
  config := l.config
  verbosity := l.verbosity
  quiet := l.quiet
  request := some (.run l.threads l.source l.trace l.command)

/-- The settings before the name of the command. -/
def outer : List Setting :=
  [⟨.config, l.config.toList⟩, ⟨.verbose, List.replicate l.verbosity []⟩,
    ⟨.quiet, if l.quiet then [[]] else []⟩]

/-- The settings behind it. -/
def inner : List Setting :=
  [⟨.threads, l.threads.toList.map (Nat.toDigits 10)⟩, ⟨.item, l.source.items⟩,
    ⟨.input, l.source.paths⟩, ⟨.trace, if l.trace then [[]] else []⟩]

theorem outer_fit : ∀ s ∈ l.outer, s.Fits .root := by
  refine List.forall_mem_cons.2 ⟨?config, List.forall_mem_cons.2 ⟨?verbose,
    List.forall_mem_singleton.2 ?quiet⟩⟩
  case config =>
    exact Setting.fits_value (by decide) rfl (fun _ _ => rfl) (.inr (by cases l.config <;> simp))
  case verbose =>
    exact Setting.fits_flag (by decide) (by decide) rfl rfl (by simp) (.inl rfl)
  case quiet =>
    exact Setting.fits_flag (by decide) (by decide) rfl rfl (by split <;> simp)
      (.inr (by split <;> simp))

theorem inner_fit : ∀ s ∈ l.inner, s.Fits .run := by
  refine List.forall_mem_cons.2 ⟨?threads, List.forall_mem_cons.2 ⟨?item,
    List.forall_mem_cons.2 ⟨?input, List.forall_mem_singleton.2 ?trace⟩⟩⟩
  case threads =>
    refine Setting.fits_value (by decide) rfl (fun v hv => ?_) (.inr (by cases l.threads <;> simp))
    obtain ⟨n, hn, rfl⟩ := List.mem_map.1 hv
    rw [Opt.judge, Text.readWord?_toDigits (l.threads_lt n (by simpa using hn))]
    rfl
  case item => exact Setting.fits_value (by decide) rfl (fun _ _ => rfl) (.inl rfl)
  case input =>
    refine Setting.fits_value (by decide) rfl (fun v hv => ?_) (.inr ?_)
    · have hne : v ≠ [] := by
        rintro rfl
        cases hsource : l.source <;> simp_all [Source.paths, l.path_ne]
      simp [Opt.judge, hne]
    · cases l.source <;> simp [Source.paths]
  case trace =>
    exact Setting.fits_flag (by decide) (by decide) rfl rfl (by split <;> simp)
      (.inr (by split <;> simp))

/-- The pieces that a run is written in. -/
def spelt (dashes : Bool) : Command :=
  .nested (l.outer.flatMap Setting.pieces) "run" .run
    (.last (l.inner.flatMap Setting.pieces) dashes l.command)

theorem words_spelt (dashes : Bool) : (l.spelt dashes).words = l.words dashes := by
  have houter : (l.outer.flatMap Setting.pieces).flatMap Piece.words
      = l.config.toList.map ("--config=".toList ++ ·) ++ List.replicate l.verbosity "-v".toList
        ++ (if l.quiet then ["-q".toList] else []) := by
    rw [words_pieces]
    cases hquiet : l.quiet <;>
      simp [outer, hquiet, Setting.words, Opt.takesValue, Opt.long, lettersOf, Opt.short?]
  have hinner : (l.inner.flatMap Setting.pieces).flatMap Piece.words
      = l.threads.toList.map ("--threads=".toList ++ Nat.toDigits 10 ·)
        ++ l.source.items.map ("--item=".toList ++ ·)
        ++ l.source.paths.map ("--input=".toList ++ ·)
        ++ (if l.trace then ["-x".toList] else []) := by
    rw [words_pieces]
    cases htrace : l.trace <;>
      simp [inner, htrace, Setting.words, Opt.takesValue, Opt.long, lettersOf, Opt.short?]
  rw [spelt, Command.words, Command.words, houter, hinner, words]
  simp

/-! ### Reading a run -/

/-- What is read before the name of the command. -/
def outerReading : Reading := { given := (givenAs l.outer).reverse }

/-- What is read behind it. -/
def innerReading (dashes : Bool) : Reading :=
  { given := (givenAs l.inner).reverse, ended := dashes }

/-- What is read of a run. -/
def read (dashes : Bool) : Trail :=
  ⟨[(.root, l.outerReading), (.run, l.innerReading dashes)], l.command⟩

theorem values_outer (o : Opt) :
    l.outerReading.values o = (l.outer.filter (·.opt = o)).flatMap Setting.values :=
  values_givenAs l.outer false o

theorem values_inner (dashes : Bool) (o : Opt) : (l.innerReading dashes).values o
    = (l.inner.filter (·.opt = o)).flatMap Setting.values :=
  values_givenAs l.inner dashes o

/-- What is shared by all commands stands before the name of the command. -/
theorem deepest?_outer (dashes : Bool) (o : Opt) (ho : Place.shared.contains o = true) :
    deepest? (l.read dashes) o = if l.outerReading.has o then some l.outerReading else none := by
  have hinner : (l.innerReading dashes).has o = false := by
    rw [has_eq, values_inner]
    cases o <;> simp_all [inner, Place.shared]
  rw [read, deepest?_cons, deepest?_cons, hinner]
  rfl

/-- Items and a file with items are never both given. -/
theorem not_input_and_item (dashes : Bool) :
    ¬((l.innerReading dashes).has .input = true ∧ (l.innerReading dashes).has .item = true) := by
  rw [has_eq, has_eq, values_inner, values_inner]
  cases hsource : l.source <;> simp [inner, hsource, Source.paths, Source.items]

theorem spelt_fits (dashes : Bool)
    (h : dashes = false → ∀ w ∈ l.command.head?, w.head? ≠ some '-') :
    (l.spelt dashes).Fits [] .root := by
  have houter := givenBy_pieces l.outer_fit
  have hinner := givenBy_pieces l.inner_fit
  have hbefore : Admissible (givenAs l.outer) := admissible_givenAs l.outer_fit (by simp [outer])
  have hbehind : Admissible (givenAs l.inner) := admissible_givenAs l.inner_fit (by simp [inner])
  refine ⟨pieces_fit l.outer_fit, by rwa [List.nil_append, houter], by decide,
    pieces_fit l.inner_fit, by rwa [List.nil_append, hinner], rfl,
    ⟨fun _ => l.command_ne, fun _ => rfl⟩, ?_,
    fun hdashes w hw => isOrdinary_of_head? (h hdashes w hw)⟩
  rw [List.nil_append, hinner, ← has_reverse _ dashes, ← has_reverse _ dashes]
  exact l.not_input_and_item dashes

theorem walk_words (dashes : Bool)
    (h : dashes = false → ∀ w ∈ l.command.head?, w.head? ≠ some '-') :
    walk .root {} (l.words dashes) = .ok (l.read dashes) := by
  have hwalk := (l.spelt dashes).walk_words (l.spelt_fits dashes h)
  rw [words_spelt] at hwalk
  refine hwalk.trans (congrArg Except.ok ?_)
  simp only [Command.trail, spelt, Command.steps, Command.rest, List.nil_append,
    givenBy_pieces l.outer_fit, givenBy_pieces l.inner_fit]
  rfl

theorem config_read (dashes : Bool) :
    ((deepest? (l.read dashes) .config).bind fun r => (r.values .config).head?) = l.config := by
  rw [l.deepest?_outer dashes .config rfl]
  cases hconfig : l.config <;> simp [has_eq, values_outer, outer, hconfig]

theorem verbosity_read (dashes : Bool) :
    CommandLine.verbosity (l.read dashes) = l.verbosity := by
  have hvalues : l.outerReading.values .verbose = List.replicate l.verbosity [] := by
    simp [values_outer, outer]
  rw [CommandLine.verbosity, l.deepest?_outer dashes .verbose rfl, count_if_has, count_eq, hvalues,
    List.length_replicate]
  exact Nat.min_eq_right l.verbosity_le

theorem quiet_read (dashes : Bool) : (deepest? (l.read dashes) .quiet).isSome = l.quiet := by
  rw [l.deepest?_outer dashes .quiet rfl]
  cases hquiet : l.quiet <;> simp [has_eq, values_outer, outer, hquiet]

theorem request?_read (dashes : Bool) :
    request? (l.read dashes) = some (.run l.threads l.source l.trace l.command) := by
  have hthreads :
      ((l.innerReading dashes).values .threads).head?.bind Text.readWord? = l.threads := by
    rw [values_inner]
    cases hvalue : l.threads with
    | none => simp [inner, hvalue]
    | some n => simp [inner, hvalue, Text.readWord?_toDigits (l.threads_lt n hvalue)]
  have hsource : sourceOf (l.innerReading dashes) = l.source :=
    sourceOf_eq (by simp [values_inner, inner]) (by simp [values_inner, inner]) l.items_ne
  have htrace : (l.innerReading dashes).has .trace = l.trace := by
    rw [has_eq, values_inner]
    cases hvalue : l.trace <;> simp [inner, hvalue]
  rw [read, request?]
  simp only [List.getLast?_cons_cons, List.getLast?_singleton, hthreads, hsource, htrace]

/-- **A run is read as it was written**: with two dashes before it, its command can be any words,
and without them, any whose first one does not begin with a dash. -/
theorem parse_words (dashes : Bool)
    (h : dashes = false → ∀ w ∈ l.command.head?, w.head? ≠ some '-') :
    parse (l.words dashes) = .ok l.invocation := by
  rw [parse, l.walk_words dashes h]
  simp only [config_read, verbosity_read, quiet_read, request?_read]
  rfl

/-- A run of which many words look like something else. -/
def disguised : RunLine where
  config := some "--".toList
  verbosity := 2
  quiet := true
  threads := some 40
  source := .listed ["run".toList, "--item=".toList]
  trace := true
  command := ["estimate".toList, "--".toList, "-v".toList, []]
  verbosity_le := by decide
  threads_lt := by decide
  items_ne := by decide
  path_ne := by decide
  command_ne := by decide

theorem parse_words_sample :
    disguised.words false = ["--config=--", "-v", "-v", "-q", "run", "--threads=40", "--item=run",
        "--item=--item=", "-x", "estimate", "--", "-v", ""].map String.toList
      ∧ parse (disguised.words false) = .ok disguised.invocation :=
  ⟨by decide, disguised.parse_words false (by decide)⟩

end RunLine

end OrderedDispatch.CommandLine
