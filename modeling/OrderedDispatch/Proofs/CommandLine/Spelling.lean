/-
**How command lines are written.**

A command line is written in pieces.  A piece is an option by its name or several options by their
letters, of which the last may take a value; the value stands in the same word or in the next one.
After its pieces a command goes on with a command inside of it, or ends with words that are no
options, perhaps set off by two dashes.

Where options may be followed by words, a word that looks like options is taken for one of these
words unless all its letters are options, so that values are rarely written right behind a letter
there.

Main definitions:

* `Place.isOrdinary` — a word is no option at a place;
* `Piece`, `Piece.words`, `Piece.given` — a piece, the words it is written in and the options it
  gives;
* `Command`, `Command.words`, `Command.steps` — a command with everything after it, its words, and
  the options given at each of its places;
* `Piece.Fits`, `Admissible`, `Command.Fits` — what may be written where.

Main results:

* `walk_settle` — nothing depends on when an option is judged;
* `walk_piece`, `walk_pieces` — a piece is read as the options that it gives;
* `Command.walk_words` — **what is written by the rules is read as it was meant**.
-/

import OrderedDispatch.CommandLine.Invocation
import Mathlib.Tactic.SplitIfs

set_option relaxedAutoImplicit false
set_option autoImplicit false

namespace OrderedDispatch.CommandLine

/-! ### Pieces -/

/-- Whether a word is no option at a place, nor the two dashes. -/
def Place.isOrdinary (p : Place) (word : List Char) : Bool :=
  match shapeOf word with
  | .end => false
  | .long name _ => p.takesWords && (p.long? name).isNone
  | .letters cs => p.takesWords && !cs.all fun c => (p.short? c).isSome
  | .word => true

/-- Where the value of a letter stands: in the same word after an equals sign, in the same word
right after the letter, or in the next word. -/
inductive Joint where
  | equals
  | direct
  | next
  deriving DecidableEq

/-- One or several options as they are written: the name of one without a value, or with its value
after an equals sign or in the next word; letters of options without values, or of options of which
the last one has a value. -/
inductive Piece where
  | name (o : Opt)
  | nameValue (o : Opt) (next : Bool) (value : List Char)
  | letters (flags : List Opt)
  | lettersValue (flags : List Opt) (o : Opt) (joint : Joint) (value : List Char)
  deriving DecidableEq

/-- The letters of options. -/
def lettersOf (flags : List Opt) : List Char := flags.filterMap Opt.short?

/-- Options without values, as they are given. -/
def flagsGiven (flags : List Opt) : List Given := flags.map fun o => ⟨o, []⟩

namespace Piece

/-- The words that a piece is written in. -/
def words : Piece → List (List Char)
  | name o => ['-' :: '-' :: o.long.toList]
  | nameValue o false v => ['-' :: '-' :: (o.long.toList ++ '=' :: v)]
  | nameValue o true v => ['-' :: '-' :: o.long.toList, v]
  | letters flags => ['-' :: lettersOf flags]
  | lettersValue flags o .equals v => ['-' :: (lettersOf (flags ++ [o]) ++ '=' :: v)]
  | lettersValue flags o .direct v => ['-' :: (lettersOf (flags ++ [o]) ++ v)]
  | lettersValue flags o .next v => ['-' :: lettersOf (flags ++ [o]), v]

/-- The options that a piece gives. -/
def given : Piece → List Given
  | name o => [⟨o, []⟩]
  | nameValue o _ v => [⟨o, v⟩]
  | letters flags => flagsGiven flags
  | lettersValue flags o _ v => flagsGiven flags ++ [⟨o, v⟩]

/-- An option without a value that can be written by a letter. -/
def IsFlag (p : Place) (o : Opt) : Prop :=
  o ∈ p.options ∧ o.takesValue = false ∧ o.short?.isSome = true

/-- What may be written at a place. -/
def Fits (p : Place) : Piece → Prop
  | name o => o ∈ p.options ∧ o.takesValue = false
  | nameValue o next v =>
      o ∈ p.options ∧ o.takesValue = true ∧ (next = true → p.isOrdinary v = true)
  | letters flags => flags ≠ [] ∧ ∀ o ∈ flags, IsFlag p o
  | lettersValue flags o joint v =>
      (∀ f ∈ flags, IsFlag p f) ∧ o ∈ p.options ∧ o.takesValue = true ∧ o.short?.isSome = true ∧
        match joint with
        | .equals => p.takesWords = false
        | .direct => v ≠ [] ∧ v.head? ≠ some '=' ∧
            (p.takesWords = true → ∀ c ∈ v, (p.short? c).isSome = true)
        | .next => p.isOrdinary v = true

instance (p : Place) (o : Opt) : Decidable (IsFlag p o) :=
  inferInstanceAs (Decidable (_ ∧ _ ∧ _))

instance decidableFits (p : Place) : (x : Piece) → Decidable (x.Fits p)
  | name _ => inferInstanceAs (Decidable (_ ∧ _))
  | nameValue _ _ _ => inferInstanceAs (Decidable (_ ∧ _ ∧ (_ → _)))
  | letters _ => inferInstanceAs (Decidable (_ ∧ _))
  | lettersValue _ _ .equals _ => inferInstanceAs (Decidable (_ ∧ _ ∧ _ ∧ _ ∧ _ = _))
  | lettersValue _ _ .direct _ =>
      inferInstanceAs (Decidable (_ ∧ _ ∧ _ ∧ _ ∧ _ ∧ _ ∧ (_ → _)))
  | lettersValue _ _ .next _ => inferInstanceAs (Decidable (_ ∧ _ ∧ _ ∧ _ ∧ _ = _))

end Piece

/-! ### Commands -/

/-- A command with everything that is written after it: options, and then words that are none,
perhaps after two dashes, or a command inside of this one. -/
inductive Command where
  | last (pieces : List Piece) (dashes : Bool) (words : List (List Char))
  | nested (pieces : List Piece) (name : String) (place : Place) (inner : Command)

/-- The options that pieces give. -/
def givenBy (pieces : List Piece) : List Given := pieces.flatMap Piece.given

/-- Options that are neither asked for as help nor as the version, that take their values, and of
which only those that repeat are given more than once. -/
structure Admissible (given : List Given) : Prop where
  carried : ∀ g ∈ given, g.opt ≠ .help ∧ g.opt ≠ .version
  judged : ∀ g ∈ given, g.opt.judge g.value = none
  once : given.Pairwise fun g g' => g.opt = g'.opt → g.opt.repeats = true

instance (given : List Given) : Decidable (Admissible given) :=
  decidable_of_iff ((∀ g ∈ given, g.opt ≠ .help ∧ g.opt ≠ .version)
      ∧ (∀ g ∈ given, g.opt.judge g.value = none)
      ∧ given.Pairwise fun g g' => g.opt = g'.opt → g.opt.repeats = true)
    ⟨fun ⟨hcarried, hjudged, honce⟩ => ⟨hcarried, hjudged, honce⟩,
      fun h => ⟨h.carried, h.judged, h.once⟩⟩

namespace Command

/-- The words that a command is written in, without its own name. -/
def words : Command → List (List Char)
  | last pieces dashes ws =>
      pieces.flatMap Piece.words ++ (if dashes then [['-', '-']] else []) ++ ws
  | nested pieces name _ inner => pieces.flatMap Piece.words ++ name.toList :: inner.words

/-- What may be written at a place where some options are already given. -/
def Fits (before : List Given) (p : Place) : Command → Prop
  | last pieces dashes ws =>
      (∀ x ∈ pieces, x.Fits p) ∧ Admissible (before ++ givenBy pieces)
        ∧ p.needsCommand = false ∧ (p.takesWords = true ↔ ws ≠ [])
        ∧ ¬((before ++ givenBy pieces).any (·.opt = .input) = true
          ∧ (before ++ givenBy pieces).any (·.opt = .item) = true)
        ∧ (dashes = false → ∀ w ∈ ws.head?, p.isOrdinary w = true)
  | nested pieces name q inner =>
      (∀ x ∈ pieces, x.Fits p) ∧ Admissible (before ++ givenBy pieces)
        ∧ (name, q) ∈ p.commands ∧ inner.Fits [] q

instance decidableFits (before : List Given) (p : Place) :
    (c : Command) → Decidable (c.Fits before p)
  | last _ _ _ => inferInstanceAs (Decidable (_ ∧ _ ∧ _ ∧ _ ∧ ¬_ ∧ (_ → _)))
  | nested _ _ q inner =>
      have := decidableFits [] q inner
      inferInstanceAs (Decidable (_ ∧ _ ∧ _ ∧ _))

/-- The options that are given at each place, the outermost first. -/
def steps (before : List Given) (p : Place) : Command → List (Place × Reading)
  | last pieces dashes _ =>
      [(p, { given := (before ++ givenBy pieces).reverse, ended := dashes })]
  | nested pieces _ q inner =>
      (p, { given := (before ++ givenBy pieces).reverse }) :: inner.steps [] q

/-- The words that are no options. -/
def rest : Command → List (List Char)
  | last _ _ ws => ws
  | nested _ _ _ inner => inner.rest

/-- What is read of a command. -/
def trail (before : List Given) (p : Place) (c : Command) : Trail := ⟨c.steps before p, c.rest⟩

end Command

/-! ### When an option is judged -/

namespace Reading

variable {r r' : Reading}

/-- What it takes for an option to be accepted. -/
theorem accept_eq_ok_iff {o : Open} : r.accept o = .ok r' ↔
    (o.opt ≠ .help ∧ o.opt ≠ .version) ∧ (o.opt.takesValue = true → o.value.isSome = true)
      ∧ (∀ g ∈ r.given, g.opt = o.opt → o.opt.repeats = true)
      ∧ o.opt.judge (o.value.getD []) = none
      ∧ r' = { r with given := ⟨o.opt, o.value.getD []⟩ :: r.given } := by
  have hvalue : (o.opt.takesValue && o.value.isNone) = false ↔
      (o.opt.takesValue = true → o.value.isSome = true) := by
    cases o.opt.takesValue <;> cases o.value <;> simp
  have honce : (!o.opt.repeats && r.given.any (·.opt = o.opt)) = false ↔
      ∀ g ∈ r.given, g.opt = o.opt → o.opt.repeats = true := by
    cases o.opt.repeats <;> simp
  rw [← hvalue, ← honce]
  unfold accept
  split
  · simp [*]
  · simp [*]
  · rename_i hhelp hversion
    have hcarried : o.opt ≠ .help ∧ o.opt ≠ .version := ⟨hhelp, hversion⟩
    cases hv : o.opt.takesValue && o.value.isNone with
    | true => simp
    | false =>
        cases hr : !o.opt.repeats && r.given.any (·.opt = o.opt) with
        | true => simp
        | false =>
            cases hj : o.opt.judge (o.value.getD []) <;> simp [hcarried, eq_comm, hj]

theorem settle_fields (h : r.settle = .ok r') : r'.pending = none ∧ r'.ended = r.ended := by
  unfold settle at h
  split at h
  · rename_i hp
    obtain rfl := Except.ok.inj h
    exact ⟨hp, rfl⟩
  · obtain ⟨-, -, -, -, rfl⟩ := accept_eq_ok_iff.1 h
    exact ⟨rfl, rfl⟩

theorem settle_ended (h : r.settle = .ok r') :
    ({ r with ended := true } : Reading).settle = .ok { r' with ended := true } := by
  unfold settle at h ⊢
  split at h
  · rename_i hp
    obtain rfl := Except.ok.inj h
    simp only [hp]
  · rename_i o hp
    obtain ⟨hcarried, hvalue, honce, hjudge, rfl⟩ := accept_eq_ok_iff.1 h
    simp only [hp]
    exact accept_eq_ok_iff.2 ⟨hcarried, hvalue, honce, hjudge, rfl⟩

/-- Nothing that adds an option depends on when the one before it is judged. -/
theorem add_settle (h : r.settle = .ok r') (o : Opt) (value : Option (List Char)) :
    r.add o value = r'.add o value := by
  rw [add, add, h, settle_of_settled (settle_fields h).1]

theorem await_settle (h : r.settle = .ok r') (o : Opt) : r.await o = r'.await o := by
  rw [await, await, h, settle_of_settled (settle_fields h).1]

end Reading

variable {p : Place} {r r' : Reading}

theorem takeLong_settle (h : r.settle = .ok r') (name : List Char) (value : Option (List Char)) :
    takeLong p r name value = takeLong p r' name value := by
  unfold takeLong
  simp only [Reading.add_settle h, Reading.await_settle h]

theorem takeLetters_settle (h : r.settle = .ok r') (c : Char) (cs : List Char) :
    takeLetters p r (c :: cs) = takeLetters p r' (c :: cs) := by
  rw [takeLetters, takeLetters]
  simp only [Reading.add_settle h, Reading.await_settle h]

theorem ne_nil_of_shapeOf {word cs : List Char} (h : shapeOf word = .letters cs) : cs ≠ [] := by
  rintro rfl
  unfold shapeOf at h
  split at h <;> simp_all

theorem takeShort_settle (h : r.settle = .ok r') {cs : List Char} (hcs : cs ≠ []) :
    takeShort p r cs = takeShort p r' cs := by
  obtain ⟨c, cs, rfl⟩ := List.exists_cons_of_ne_nil hcs
  rw [takeShort, takeShort, takeLetters_settle h]

theorem finish_settle (h : r.settle = .ok r') (ws : List (List Char)) :
    finish p r ws = finish p r' ws := by
  rw [finish, finish, h, Reading.settle_of_settled (Reading.settle_fields h).1]

theorem below_settle (h : r.settle = .ok r') (t : Except Refusal Trail) :
    Trail.below p r t = Trail.below p r' t := by
  cases t with
  | error e => rfl
  | ok t => rw [Trail.below, Trail.below, h, Reading.settle_of_settled (Reading.settle_fields h).1]

/-- Nothing depends on when an option is judged. -/
theorem walk_settle (hopen : r.awaiting? = none) (h : r.settle = .ok r')
    (ws : List (List Char)) : walk p r ws = walk p r' ws := by
  induction ws generalizing r r' with
  | nil => rw [walk, walk, finish_settle h]
  | cons word ws ih =>
      obtain ⟨hpending, hended⟩ := Reading.settle_fields h
      have hopen' : r'.awaiting? = none := by rw [Reading.awaiting?, hpending]
      have hrefusal : refusalOf p r word = refusalOf p r' word := by
        rw [refusalOf, refusalOf, hended]
      have hend : walk p { r with ended := true } ws = walk p { r' with ended := true } ws :=
        ih hopen (Reading.settle_ended h)
      rw [walk, walk]
      simp only [hopen, hopen', hended, finish_settle h, below_settle h, hrefusal,
        takeLong_settle h, hend]
      cases hshape : shapeOf word with
      | letters cs => simp only [takeShort_settle h (ne_nil_of_shapeOf hshape)]
      | _ => rfl

/-! ### Word by word -/

/-- Takes a word for options, if it looks like some. -/
def takeWord (p : Place) (r : Reading) (word : List Char) : Except Refusal Taken :=
  match shapeOf word with
  | .long name value => takeLong p r name value
  | .letters cs => takeShort p r cs
  | .end => .ok .ordinary
  | .word => .ok .ordinary

theorem shapeOf_eq_end_iff {word : List Char} : shapeOf word = .end ↔ word = ['-', '-'] := by
  constructor
  · intro h
    unfold shapeOf at h
    split at h <;> simp_all
  · rintro rfl
    rfl

theorem command?_dash (p : Place) (cs : List Char) : p.command? ('-' :: cs) = none := by
  cases p <;> simp [Place.command?, Place.commands]

/-- After the two dashes there are no options any more. -/
theorem walk_ended (h : r.ended = true) (word : List Char) (rest : List (List Char)) :
    walk p r (word :: rest) = if p.takesWords = true then finish p r (word :: rest)
      else .error (refusalOf p r word) := by
  rw [walk]
  simp only [h, if_true]

theorem walk_dashes (h : r.ended = false) (rest : List (List Char)) :
    walk p r (['-', '-'] :: rest) = walk p { r with ended := true } rest := by
  have hshape : shapeOf ['-', '-'] = .end := rfl
  rw [walk]
  simp [h, command?_dash, hshape]

/-- A word that names a command hands the rest over to it. -/
theorem walk_command (hended : r.ended = false) (hopen : r.awaiting? = none) {word : List Char}
    {q : Place} (h : p.command? word = some q) (rest : List (List Char)) :
    walk p r (word :: rest) = Trail.below p r (walk q {} rest) := by
  rw [walk]
  simp [hended, hopen, h]

/-- Any other word is taken for options, or else for a value or the first of the words. -/
theorem walk_cons (hended : r.ended = false) {word : List Char} (hdashes : word ≠ ['-', '-'])
    (hname : r.awaiting? = none →
      p.command? word = none ∧ (p.hasCommands = true → word ≠ "help".toList))
    (rest : List (List Char)) : walk p r (word :: rest) =
      match takeWord p r word with
      | .error e => .error e
      | .ok (.options r') => walk p r' rest
      | .ok .ordinary =>
          match r.awaiting? with
          | some o => walk p (r.fill o word) rest
          | none => if p.takesWords = true then finish p r (word :: rest)
              else .error (refusalOf p r word) := by
  have hcommand : (if r.awaiting?.isNone = true then p.command? word else none) = none := by
    cases hopen : r.awaiting? with
    | some o => rfl
    | none => exact (hname hopen).1
  have hhelp : (r.awaiting?.isNone && p.hasCommands && decide (word = "help".toList)) = false := by
    cases hopen : r.awaiting? with
    | some o => rfl
    | none =>
        cases hcommands : p.hasCommands with
        | false => rfl
        | true => simpa using (hname hopen).2 hcommands
  rw [walk]
  simp only [hended, Bool.false_eq_true, if_false, hcommand, hhelp, takeWord]
  cases hshape : shapeOf word with
  | «end» => exact absurd (shapeOf_eq_end_iff.1 hshape) hdashes
  | long name value => rfl
  | letters cs => rfl
  | word => rfl

/-! ### Pieces are read -/

namespace Admissible

variable {before after : List Given} {o : Opt} {v : List Char}

/-- What is given first is admissible by itself. -/
theorem of_append (h : Admissible (before ++ after)) : Admissible before where
  carried g hg := h.carried g (List.mem_append_left _ hg)
  judged g hg := h.judged g (List.mem_append_left _ hg)
  once := (List.pairwise_append.1 h.once).1

/-- An option is accepted after others where it is admissible after them. -/
theorem accept (h : Admissible (before ++ [Given.mk o v])) {value : Option (List Char)}
    (hvalue : o.takesValue = true → value.isSome = true) (hv : value.getD [] = v) :
    ({ given := before.reverse } : Reading).accept ⟨o, value⟩
      = .ok { given := (before ++ [Given.mk o v]).reverse } := by
  subst hv
  have hmem : (⟨o, value.getD []⟩ : Given) ∈ before ++ [Given.mk o (value.getD [])] := by simp
  refine Reading.accept_eq_ok_iff.2 ⟨h.carried _ hmem, hvalue, fun g hg hsame => ?_,
    h.judged _ hmem, by simp⟩
  have honce := (List.pairwise_append.1 h.once).2.2 g (List.mem_reverse.1 hg) _
    (List.mem_singleton.2 rfl) hsame
  rwa [← hsame]

theorem add_value (h : Admissible (before ++ [Given.mk o v])) :
    ({ given := before.reverse } : Reading).add o (some v)
      = .ok { given := (before ++ [Given.mk o v]).reverse } := h.accept (fun _ => rfl) rfl

theorem add_flag (h : Admissible (before ++ [Given.mk o []])) (hvalue : o.takesValue = false) :
    ({ given := before.reverse } : Reading).add o none
      = .ok { given := (before ++ [Given.mk o []]).reverse } := h.accept (by simp [hvalue]) rfl

end Admissible

variable {before : List Given} {flags : List Opt} {o : Opt} {v : List Char}

theorem exists_lettersOf_cons (h : o.short?.isSome = true) (flags : List Opt) :
    ∃ c, o.short? = some c ∧ lettersOf (o :: flags) = c :: lettersOf flags := by
  obtain ⟨c, hc⟩ := Option.isSome_iff_exists.1 h
  exact ⟨c, hc, by rw [lettersOf, List.filterMap_cons_some hc]; rfl⟩

/-- Letters of options without values are read one after the other. -/
theorem takeLetters_flags (hflags : ∀ f ∈ flags, Piece.IsFlag p f)
    (h : Admissible (before ++ flagsGiven flags)) (tail : List Char) :
    takeLetters p { given := before.reverse } (lettersOf flags ++ tail)
      = takeLetters p { given := (before ++ flagsGiven flags).reverse } tail := by
  induction flags generalizing before with
  | nil => rw [flagsGiven, List.map_nil, List.append_nil]; rfl
  | cons f flags ih =>
      obtain ⟨⟨hplace, hvalue, hshort⟩, hflags⟩ := List.forall_mem_cons.1 hflags
      obtain ⟨c, hc, hletters⟩ := exists_lettersOf_cons hshort flags
      have hgiven : before ++ flagsGiven (f :: flags)
          = before ++ [Given.mk f []] ++ flagsGiven flags := by
        rw [List.append_assoc]
        rfl
      rw [hgiven] at h ⊢
      have hadd := h.of_append.add_flag hvalue
      rw [hletters, List.cons_append, takeLetters, p.option_of_short f c hplace hc]
      simp only [hvalue, Bool.false_eq_true, if_false, hadd]
      exact ih hflags h

/-- A word of letters that are all options is taken for options. -/
theorem takeShort_of_known {r : Reading} {cs : List Char}
    (h : p.takesWords = true → ∀ c ∈ cs, (p.short? c).isSome = true) :
    takeShort p r cs = (takeLetters p r cs).map .options := by
  rw [takeShort, if_neg]
  simpa [Option.isSome_iff_ne_none] using h

/-- A word that is no option is not taken for one. -/
theorem takeWord_of_isOrdinary (hv : p.isOrdinary v = true) (r : Reading) :
    v ≠ ['-', '-'] ∧ takeWord p r v = .ok .ordinary := by
  unfold Place.isOrdinary at hv
  constructor
  · rintro rfl
    cases hv
  · unfold takeWord
    cases hshape : shapeOf v with
    | «end» => rfl
    | long name value =>
        simp only [hshape, Bool.and_eq_true, Option.isNone_iff_eq_none] at hv
        simp only [takeLong, hv.2, hv.1, if_true]
    | letters cs =>
        simp only [hshape] at hv
        simp only [takeShort, hv, if_true]
    | word => rfl

/-- A value in the next word. -/
theorem walk_value (h : Admissible (before ++ [Given.mk o v])) (hv : p.isOrdinary v = true)
    (rest : List (List Char)) :
    walk p { given := before.reverse, pending := some ⟨o, none⟩ } (v :: rest)
      = walk p { given := (before ++ [Given.mk o v]).reverse } rest := by
  have hopen : ({ given := before.reverse, pending := some ⟨o, none⟩ } : Reading).awaiting?
      = some o := rfl
  have hsettle : ({ given := before.reverse, pending := some ⟨o, some v⟩ } : Reading).settle
      = .ok { given := (before ++ [Given.mk o v]).reverse } := h.accept (fun _ => rfl) rfl
  obtain ⟨hdashes, htake⟩ := takeWord_of_isOrdinary hv
    { given := before.reverse, pending := some ⟨o, none⟩ }
  rw [walk_cons rfl hdashes (by simp [hopen]), htake, hopen]
  exact walk_settle rfl hsettle rest

theorem letter_ne_dash {c : Char} (h : o.short? = some c) : c ≠ '-' := by
  cases o <;> cases h <;> decide

theorem known_of_mem_lettersOf (hflags : ∀ f ∈ flags, f ∈ p.options) :
    ∀ c ∈ lettersOf flags, (p.short? c).isSome = true := by
  intro c hc
  obtain ⟨f, hf, hshort⟩ := List.mem_filterMap.1 hc
  rw [p.option_of_short f c (hflags f hf) hshort]
  rfl

/-- A name and a value are found in the word that they make up. -/
theorem nameAndValue_append {name : List Char} (hname : '=' ∉ name) (value : Option (List Char)) :
    nameAndValue (name ++ value.elim [] ('=' :: ·)) = (name, value) := by
  have hall : ∀ c ∈ name, decide (c ≠ '=') = true := fun c hc =>
    decide_eq_true fun heq => hname (heq ▸ hc)
  rw [nameAndValue, List.dropWhile_append_of_pos hall, List.takeWhile_append_of_pos hall]
  cases value <;> simp

theorem notMem_long (o : Opt) : '=' ∉ o.long.toList ∧ o.long.toList ≠ [] := by
  cases o <;> decide

theorem shapeOf_long {s : List Char} (hs : s ≠ []) :
    shapeOf ('-' :: '-' :: s) = .long (nameAndValue s).1 (nameAndValue s).2 := by
  obtain ⟨c, cs, rfl⟩ := List.exists_cons_of_ne_nil hs
  rfl

theorem shapeOf_letters {c : Char} (hc : c ≠ '-') (cs : List Char) :
    shapeOf ('-' :: c :: cs) = .letters (c :: cs) := by
  unfold shapeOf
  split <;> simp_all

/-- A word that is taken for options. -/
theorem walk_options {r r' : Reading} {cs : List Char} (hended : r.ended = false)
    (hdashes : '-' :: cs ≠ ['-', '-']) (h : takeWord p r ('-' :: cs) = .ok (.options r'))
    (rest : List (List Char)) : walk p r (('-' :: cs) :: rest) = walk p r' rest := by
  rw [walk_cons hended hdashes fun _ => ⟨command?_dash p cs, fun _ => by simp⟩, h]

/-- The name of an option, with or without a value in its word. -/
theorem takeWord_long (ho : o ∈ p.options) {s : List Char} {value : Option (List Char)}
    (hs : s ≠ []) (hname : nameAndValue s = (o.long.toList, value)) :
    takeWord p r ('-' :: '-' :: s) =
      if o.takesValue = true then
        match value with
        | some v => (r.add o (some v)).map .options
        | none => (r.await o).map .options
      else if value.isSome = true then .error .unwantedValue
      else (r.add o none).map .options := by
  rw [takeWord, shapeOf_long hs, hname]
  cases value <;> simp only [takeLong, p.option_of_long o ho]

theorem lettersOf_concat (flags : List Opt) {o : Opt} {c : Char} (hc : o.short? = some c)
    (tail : List Char) : lettersOf (flags ++ [o]) ++ tail = lettersOf flags ++ c :: tail := by
  simp [lettersOf, hc]

/-- Letters of options without values, and an option with its value behind them. -/
theorem takeLetters_value (hflags : ∀ f ∈ flags, Piece.IsFlag p f) (ho : o ∈ p.options)
    (hvalue : o.takesValue = true) (hshort : o.short?.isSome = true)
    (h : Admissible (before ++ flagsGiven flags)) (tail : List Char) :
    takeLetters p { given := before.reverse } (lettersOf (flags ++ [o]) ++ tail) =
      match attached tail with
      | some v => Reading.add { given := (before ++ flagsGiven flags).reverse } o (some v)
      | none => Reading.await { given := (before ++ flagsGiven flags).reverse } o := by
  obtain ⟨c, hc⟩ := Option.isSome_iff_exists.1 hshort
  rw [lettersOf_concat flags hc, takeLetters_flags hflags h, takeLetters,
    p.option_of_short o c ho hc]
  cases attached tail <;> simp only [hvalue, if_true]

theorem takeWord_letters {r : Reading} {c : Char} {cs : List Char} (hc : c ≠ '-')
    (hknown : p.takesWords = true → ∀ c' ∈ c :: cs, (p.short? c').isSome = true) :
    takeWord p r ('-' :: c :: cs) = (takeLetters p r (c :: cs)).map .options := by
  rw [takeWord, shapeOf_letters hc]
  exact takeShort_of_known hknown

/-- A word of letters, with something behind them. -/
theorem walk_letters {r' : Reading} (hflags : flags ≠ [])
    (hshort : ∀ f ∈ flags, f.short?.isSome = true) (tail : List Char)
    (hknown : p.takesWords = true → ∀ c ∈ lettersOf flags ++ tail, (p.short? c).isSome = true)
    (h : takeLetters p { given := before.reverse } (lettersOf flags ++ tail) = .ok r')
    (rest : List (List Char)) :
    walk p { given := before.reverse } (('-' :: (lettersOf flags ++ tail)) :: rest)
      = walk p r' rest := by
  obtain ⟨f, flags, rfl⟩ := List.exists_cons_of_ne_nil hflags
  obtain ⟨c, hc, hletters⟩ := exists_lettersOf_cons (hshort f List.mem_cons_self) flags
  rw [hletters, List.cons_append] at hknown h
  rw [hletters, List.cons_append]
  have hdash := letter_ne_dash hc
  refine walk_options rfl (by simp [hdash]) ?_ rest
  rw [takeWord_letters hdash hknown, h]
  rfl

theorem flags_fit (hflags : ∀ f ∈ flags, Piece.IsFlag p f) :
    (∀ f ∈ flags, f ∈ p.options) ∧ ∀ f ∈ flags, f.short?.isSome = true :=
  ⟨fun f hf => (hflags f hf).1, fun f hf => (hflags f hf).2.2⟩

theorem attached_of_ne (hne : v ≠ []) (hequals : v.head? ≠ some '=') : attached v = some v := by
  cases v with
  | nil => exact absurd rfl hne
  | cons c cs =>
      unfold attached
      split <;> simp_all

/-- The name of an option and its value, in one word or in two. -/
theorem walk_nameValue {next : Bool} (hx : (Piece.nameValue o next v).Fits p)
    (h : Admissible (before ++ [Given.mk o v])) (rest : List (List Char)) :
    walk p { given := before.reverse } ((Piece.nameValue o next v).words ++ rest)
      = walk p { given := (before ++ [Given.mk o v]).reverse } rest := by
  obtain ⟨ho, hvalue, hnext⟩ := hx
  obtain ⟨hequals, hnil⟩ := notMem_long o
  cases next with
  | false =>
      have hname : nameAndValue (o.long.toList ++ '=' :: v) = (o.long.toList, some v) :=
        nameAndValue_append hequals (some v)
      refine walk_options rfl (by simp [hnil]) ?_ rest
      rw [takeWord_long ho (by simp) hname, if_pos hvalue]
      exact congrArg (Except.map Taken.options) h.add_value
  | true =>
      have hword : takeWord p { given := before.reverse } ('-' :: '-' :: o.long.toList)
          = .ok (.options { given := before.reverse, pending := some ⟨o, none⟩ }) := by
        rw [takeWord_long ho hnil (by simpa using nameAndValue_append hequals none), if_pos hvalue]
        rfl
      exact (walk_options rfl (by simp [hnil]) hword _).trans (walk_value h (hnext rfl) rest)

/-- Letters with a value behind the last one, wherever it stands. -/
theorem walk_lettersValue {joint : Joint} (hx : (Piece.lettersValue flags o joint v).Fits p)
    (h : Admissible (before ++ flagsGiven flags ++ [Given.mk o v])) (rest : List (List Char)) :
    walk p { given := before.reverse } ((Piece.lettersValue flags o joint v).words ++ rest)
      = walk p { given := (before ++ flagsGiven flags ++ [Given.mk o v]).reverse } rest := by
  obtain ⟨hflags, ho, hvalue, hsome, hjoint⟩ := hx
  obtain ⟨hplace, hshort⟩ := flags_fit hflags
  have hplaces : ∀ f ∈ flags ++ [o], f ∈ p.options := by simpa [or_imp, forall_and, ho]
  have hshorts : ∀ f ∈ flags ++ [o], f.short?.isSome = true := by
    simpa [or_imp, forall_and, hsome]
  have htake := takeLetters_value hflags ho hvalue hsome h.of_append
  cases joint with
  | equals =>
      refine walk_letters (by simp) hshorts _ (by simp [hjoint]) ?_ rest
      rw [htake]
      exact h.add_value
  | direct =>
      obtain ⟨hne, hequals, hknown⟩ := hjoint
      refine walk_letters (by simp) hshorts _ (fun hwords c' hc' => ?_) ?_ rest
      · exact (List.mem_append.1 hc').elim (known_of_mem_lettersOf hplaces c') (hknown hwords c')
      · rw [htake, attached_of_ne hne hequals]
        exact h.add_value
  | next =>
      have hwalk := walk_letters (by simp) hshorts []
        (fun _ => by simpa using known_of_mem_lettersOf hplaces) (htake []) (v :: rest)
      rw [List.append_nil] at hwalk
      exact hwalk.trans (walk_value h hjoint rest)

/-- A piece is read as the options that it gives. -/
theorem walk_piece (x : Piece) (hx : x.Fits p) (h : Admissible (before ++ x.given))
    (rest : List (List Char)) : walk p { given := before.reverse } (x.words ++ rest)
      = walk p { given := (before ++ x.given).reverse } rest := by
  cases x with
  | name o =>
      obtain ⟨ho, hvalue⟩ := hx
      obtain ⟨hequals, hnil⟩ := notMem_long o
      refine walk_options rfl (by simp [hnil]) ?_ rest
      rw [takeWord_long ho hnil (by simpa using nameAndValue_append hequals none),
        if_neg (by simp [hvalue]), if_neg (by simp)]
      exact congrArg (Except.map Taken.options) (h.add_flag hvalue)
  | nameValue o next v => exact walk_nameValue hx h rest
  | letters flags =>
      obtain ⟨hne, hflags⟩ := hx
      obtain ⟨hplace, hshort⟩ := flags_fit hflags
      have hwalk := walk_letters hne hshort []
        (fun _ => by simpa using known_of_mem_lettersOf hplace) (takeLetters_flags hflags h []) rest
      rwa [List.append_nil] at hwalk
  | lettersValue flags o joint v =>
      have hgiven : before ++ (Piece.lettersValue flags o joint v).given
          = before ++ flagsGiven flags ++ [Given.mk o v] := (List.append_assoc ..).symm
      rw [hgiven] at h ⊢
      exact walk_lettersValue hx h rest

theorem append_givenBy_cons (x : Piece) (pieces : List Piece) :
    before ++ givenBy (x :: pieces) = before ++ x.given ++ givenBy pieces := by
  simp [givenBy]

/-- Pieces are read one after the other. -/
theorem walk_pieces (pieces : List Piece) (hfits : ∀ x ∈ pieces, x.Fits p)
    (h : Admissible (before ++ givenBy pieces)) (rest : List (List Char)) :
    walk p { given := before.reverse } (pieces.flatMap Piece.words ++ rest)
      = walk p { given := (before ++ givenBy pieces).reverse } rest := by
  induction pieces generalizing before with
  | nil => simp [givenBy]
  | cons x pieces ih =>
      obtain ⟨hx, hfits⟩ := List.forall_mem_cons.1 hfits
      rw [append_givenBy_cons] at h ⊢
      calc walk p { given := before.reverse } ((x :: pieces).flatMap Piece.words ++ rest)
          = walk p { given := before.reverse }
              (x.words ++ (pieces.flatMap Piece.words ++ rest)) := by
            rw [List.flatMap_cons, List.append_assoc]
        _ = walk p { given := (before ++ x.given).reverse }
              (pieces.flatMap Piece.words ++ rest) := walk_piece x hx h.of_append _
        _ = walk p { given := (before ++ x.given ++ givenBy pieces).reverse } rest := ih hfits h

/-! ### Commands are read -/

/-- A command is found by its name. -/
theorem command?_of_mem : ∀ c ∈ p.commands, p.command? c.1.toList = some c.2 := by
  cases p <;> decide

theorem command?_of_takesWords (h : p.takesWords = true) (word : List Char) :
    p.command? word = none ∧ p.hasCommands = false := by
  cases p <;> cases h
  exact ⟨rfl, rfl⟩

theorem verdict_eq_none_iff {ws : List (List Char)} : verdict p r ws = none ↔
    p.needsCommand = false ∧ ¬(r.has .input = true ∧ r.has .item = true)
      ∧ (p.takesWords = true → ws ≠ []) := by
  unfold verdict
  split_ifs <;> simp_all

theorem finish_eq_ok_iff {ws : List (List Char)} (hpending : r.pending = none) {t : Trail} :
    finish p r ws = .ok t ↔ verdict p r ws = none ∧ t = ⟨[(p, r)], ws⟩ := by
  rw [finish, Reading.settle_of_settled hpending]
  cases hverdict : verdict p r ws <;> simp [eq_comm, hverdict]

theorem has_reverse (given : List Given) (ended : Bool) (o : Opt) :
    ({ given := given.reverse, ended := ended } : Reading).has o = given.any (·.opt = o) :=
  List.any_reverse

/-- The words that a command ends with are read as they stand. -/
theorem walk_last {ended : Bool} {ws : List (List Char)}
    (hwords : p.takesWords = true ↔ ws ≠ [])
    (hfirst : ended = false → ∀ w ∈ ws.head?, p.isOrdinary w = true)
    (hpending : r.pending = none) (hended : r.ended = ended) :
    walk p r ws = finish p r ws := by
  cases ws with
  | nil => rw [walk]
  | cons w ws =>
      have htakes : p.takesWords = true := hwords.2 (by simp)
      cases ended with
      | true => rw [walk_ended hended, if_pos htakes]
      | false =>
          obtain ⟨hdashes, htake⟩ := takeWord_of_isOrdinary (hfirst rfl w rfl) r
          obtain ⟨hcommand, hcommands⟩ := command?_of_takesWords htakes w
          have hopen : r.awaiting? = none := by rw [Reading.awaiting?, hpending]
          rw [walk_cons hended hdashes (by simp [hcommand, hcommands]), htake, hopen]
          exact if_pos htakes

/-- What is written by the rules is read as it was meant. -/
theorem Command.walk_words (c : Command) (h : c.Fits before p) :
    walk p { given := before.reverse } c.words = .ok (c.trail before p) := by
  induction c generalizing before p with
  | last pieces dashes ws =>
      obtain ⟨hfits, hadmissible, hneeds, hwords, hsource, hfirst⟩ := h
      rw [← has_reverse _ dashes, ← has_reverse _ dashes] at hsource
      have hdashes : walk p { given := (before ++ givenBy pieces).reverse }
            ((if dashes then [['-', '-']] else []) ++ ws)
          = walk p { given := (before ++ givenBy pieces).reverse, ended := dashes } ws := by
        cases dashes with
        | true => exact walk_dashes rfl ws
        | false => rfl
      rw [Command.words, List.append_assoc, walk_pieces pieces hfits hadmissible, hdashes,
        walk_last hwords hfirst rfl rfl]
      exact (finish_eq_ok_iff rfl).2 ⟨verdict_eq_none_iff.2 ⟨hneeds, hsource, hwords.1⟩, rfl⟩
  | nested pieces name q inner ih =>
      obtain ⟨hfits, hadmissible, hname, hinner⟩ := h
      rw [Command.words, walk_pieces pieces hfits hadmissible,
        walk_command rfl rfl (command?_of_mem _ hname)]
      exact congrArg (Trail.below p _) (ih hinner)

end OrderedDispatch.CommandLine
