/-
**Accepted command lines.**

Every command line that is accepted is written by the rules, and it is read as those say.  A word
is read letter by letter, so the piece that it belongs to is found while it is read; where the last
option waits for its value, the piece takes up the next word as well.

Main definitions:

* `Command.cons` — a command with one more piece before it;
* `TakenFor` — the piece, or the beginning of one, that a word was taken for;
* `ComesTo` — what a word comes to.

Main results:

* `takenFor_of_takeWord` — what is taken for options is a piece, or the beginning of one;
* `comesTo_of_walk` — what a word can come to;
* `exists_command_of_walk` — **what is accepted is written by the rules**;
* `walk_eq_ok_iff` — exactly what is written by the rules is accepted.
-/

import OrderedDispatch.Proofs.CommandLine.Spelling

set_option relaxedAutoImplicit false
set_option autoImplicit false

namespace OrderedDispatch.CommandLine

variable {p : Place} {before : List Given} {r r' : Reading} {word : List Char}
  {ws : List (List Char)} {t : Trail}

/-! ### One more piece -/

namespace Command

/-- A command with one more piece before it. -/
def cons (x : Piece) : Command → Command
  | last pieces dashes ws => last (x :: pieces) dashes ws
  | nested pieces name q inner => nested (x :: pieces) name q inner

theorem words_cons (x : Piece) (c : Command) : (c.cons x).words = x.words ++ c.words := by
  cases c <;> simp [cons, words]

theorem fits_cons {x : Piece} {c : Command} (hx : x.Fits p) (h : c.Fits (before ++ x.given) p) :
    (c.cons x).Fits before p := by
  cases c with
  | last pieces dashes ws =>
      obtain ⟨hfits, h⟩ := h
      rw [← append_givenBy_cons] at h
      exact ⟨List.forall_mem_cons.2 ⟨hx, hfits⟩, h⟩
  | nested pieces name q inner =>
      obtain ⟨hfits, h⟩ := h
      rw [← append_givenBy_cons] at h
      exact ⟨List.forall_mem_cons.2 ⟨hx, hfits⟩, h⟩

theorem trail_cons (x : Piece) (c : Command) :
    (c.cons x).trail before p = c.trail (before ++ x.given) p := by
  cases c <;> simp only [trail, cons, steps, rest, append_givenBy_cons]

end Command

/-! ### What was accepted is admissible -/

namespace Admissible

theorem nil : Admissible [] := ⟨nofun, nofun, List.Pairwise.nil⟩

variable {o : Opt} {value : Option (List Char)} {v : List Char}

/-- An option that is accepted after others is admissible after them. -/
theorem of_accept (hbefore : Admissible before) (hv : value.getD [] = v)
    (h : ({ given := before.reverse } : Reading).accept ⟨o, value⟩ = .ok r') :
    Admissible (before ++ [Given.mk o v]) ∧ r' = { given := (before ++ [Given.mk o v]).reverse }
      ∧ (o.takesValue = true → value.isSome = true) := by
  subst hv
  obtain ⟨hcarried, hvalue, honce, hjudge, rfl⟩ := Reading.accept_eq_ok_iff.1 h
  refine ⟨⟨?_, ?_, ?_⟩, by simp, hvalue⟩
  · exact List.forall_mem_append.2 ⟨hbefore.carried, List.forall_mem_singleton.2 hcarried⟩
  · exact List.forall_mem_append.2 ⟨hbefore.judged, List.forall_mem_singleton.2 hjudge⟩
  · refine List.pairwise_append.2 ⟨hbefore.once, List.pairwise_singleton _ _, fun g hg g' hg' => ?_⟩
    obtain rfl := List.mem_singleton.1 hg'
    exact fun hsame => hsame ▸ honce g (List.mem_reverse.2 hg) hsame

end Admissible

/-! ### Words that are taken for options -/

/-- The piece that a word was taken for, or the beginning of one that goes on in the next word,
with what has then been read. -/
inductive TakenFor (p : Place) (before : List Given) (word : List Char) : Reading → Prop
  | whole (x : Piece) (hfits : x.Fits p) (hwords : x.words = [word])
      (h : Admissible (before ++ x.given)) :
      TakenFor p before word { given := (before ++ x.given).reverse }
  | start (flags : List Opt) (o : Opt) (x : List Char → Piece)
      (hfits : ∀ v, p.isOrdinary v = true → (x v).Fits p) (hwords : ∀ v, (x v).words = [word, v])
      (hgiven : ∀ v, (x v).given = flagsGiven flags ++ [⟨o, v⟩]) (hvalue : o.takesValue = true)
      (h : Admissible (before ++ flagsGiven flags)) :
      TakenFor p before word
        { given := (before ++ flagsGiven flags).reverse, pending := some ⟨o, none⟩ }

theorem mem_of_long? {name : List Char} {o : Opt} (h : p.long? name = some o) :
    o ∈ p.options ∧ o.long.toList = name :=
  ⟨List.mem_of_find?_eq_some h, by simpa using List.find?_some h⟩

theorem mem_of_short? {c : Char} {o : Opt} (h : p.short? c = some o) :
    o ∈ p.options ∧ o.short? = some c :=
  ⟨List.mem_of_find?_eq_some h, by simpa using List.find?_some h⟩

theorem map_options_ne (x : Except Refusal Reading) : x.map Taken.options ≠ .ok .ordinary := by
  cases x <;> nofun

theorem of_map_options {x : Except Refusal Reading}
    (h : x.map Taken.options = .ok (.options r')) : x = .ok r' := by
  cases x with
  | error e => cases h
  | ok r =>
      cases h
      rfl

/-- A name and a value come from the word that they make up. -/
theorem eq_of_nameAndValue {s name : List Char} {value : Option (List Char)}
    (h : nameAndValue s = (name, value)) : s = name ++ value.elim [] ('=' :: ·) := by
  unfold nameAndValue at h
  split at h
  · rename_i c v hdrop
    have hequals : c = '=' := by
      have hhead := List.head?_dropWhile_not (fun c : Char => decide (c ≠ '=')) s
      rw [hdrop] at hhead
      simpa using hhead
    obtain ⟨rfl, rfl⟩ := Prod.mk.inj h
    have hsplit := @List.takeWhile_append_dropWhile _ (fun c : Char => decide (c ≠ '=')) s
    rw [hdrop, hequals] at hsplit
    exact hsplit.symm
  · obtain ⟨rfl, rfl⟩ := Prod.mk.inj h
    simp

theorem takenFor_of_takeLong (hbefore : Admissible before) {s : List Char}
    (h : takeLong p { given := before.reverse } (nameAndValue s).1 (nameAndValue s).2
      = .ok (.options r')) : TakenFor p before ('-' :: '-' :: s) r' := by
  generalize hname : (nameAndValue s).1 = name at h
  generalize hval : (nameAndValue s).2 = value at h
  obtain rfl := eq_of_nameAndValue (Prod.ext hname hval)
  unfold takeLong at h
  split at h
  · rename_i o hlong
    obtain ⟨ho, rfl⟩ := mem_of_long? hlong
    cases hvalue : o.takesValue with
    | true =>
        rw [if_pos hvalue] at h
        cases value with
        | some v =>
            obtain ⟨hadmissible, rfl, -⟩ := hbefore.of_accept rfl (of_map_options h)
            exact .whole (.nameValue o false v) ⟨ho, hvalue, nofun⟩ rfl hadmissible
        | none =>
            obtain rfl := Except.ok.inj (of_map_options h)
            have hstart := TakenFor.start (p := p) [] o (.nameValue o true)
              (fun v hv => ⟨ho, hvalue, fun _ => hv⟩) (fun v => rfl) (fun v => rfl) hvalue
              (by simpa [flagsGiven] using hbefore)
            simpa [flagsGiven] using hstart
    | false =>
        rw [if_neg (by simp [hvalue])] at h
        cases value with
        | some v => cases h
        | none =>
            obtain ⟨hadmissible, rfl, -⟩ := hbefore.of_accept rfl (of_map_options h)
            have hwhole : TakenFor p before ('-' :: '-' :: o.long.toList) _ :=
              .whole (.name o) ⟨ho, hvalue⟩ rfl hadmissible
            simpa [Piece.given] using hwhole
  · split at h <;> cases h

/-- Letters are options without values up to their end, or up to an option with a value. -/
theorem exists_flags_of_takeLetters (cs : List Char) (hbefore : Admissible before)
    (h : takeLetters p { given := before.reverse } cs = .ok r') :
    ∃ flags tail, cs = lettersOf flags ++ tail ∧ (∀ f ∈ flags, Piece.IsFlag p f)
      ∧ Admissible (before ++ flagsGiven flags)
      ∧ takeLetters p { given := (before ++ flagsGiven flags).reverse } tail = .ok r'
      ∧ (tail = [] ∨ ∃ o c cs', tail = c :: cs' ∧ p.short? c = some o ∧ o.takesValue = true) := by
  induction cs generalizing before with
  | nil => exact ⟨[], [], rfl, nofun, by simpa [flagsGiven], by simpa [flagsGiven], .inl rfl⟩
  | cons c cs ih =>
      cases hshort : p.short? c with
      | none => simp [takeLetters, hshort] at h
      | some o =>
          cases hvalue : o.takesValue with
          | true =>
              exact ⟨[], c :: cs, rfl, nofun, by simpa [flagsGiven], by simpa [flagsGiven],
                .inr ⟨o, c, cs, rfl, hshort, hvalue⟩⟩
          | false =>
              simp only [takeLetters, hshort, hvalue, Bool.false_eq_true, if_false] at h
              split at h
              · rename_i r hadd
                obtain ⟨hadmissible, rfl, -⟩ := hbefore.of_accept rfl hadd
                obtain ⟨flags, tail, rfl, hflags, hafter, htail, hend⟩ := ih hadmissible h
                obtain ⟨ho, hc⟩ := mem_of_short? hshort
                have hgiven : before ++ flagsGiven (o :: flags)
                    = before ++ [Given.mk o []] ++ flagsGiven flags := by
                  simp [flagsGiven]
                refine ⟨o :: flags, tail, by simp [lettersOf, hc],
                  List.forall_mem_cons.2 ⟨⟨ho, hvalue, by simp [hc]⟩, hflags⟩, ?_, ?_, hend⟩
                · rwa [hgiven]
                · rwa [hgiven]
              · cases h

theorem eq_of_attached {cs v : List Char} (h : attached cs = some v) :
    cs = '=' :: v ∨ (cs = v ∧ v ≠ [] ∧ v.head? ≠ some '=') := by
  unfold attached at h
  split at h
  · cases h
  · exact .inl (by rw [Option.some.inj h])
  · rename_i hnil hequals
    obtain rfl := Option.some.inj h
    refine .inr ⟨rfl, hnil, fun hhead => ?_⟩
    obtain ⟨cs', rfl⟩ := List.head?_eq_some_iff.1 hhead
    exact hequals cs' rfl

theorem eq_nil_of_attached {cs : List Char} (h : attached cs = none) : cs = [] := by
  unfold attached at h
  split at h
  · rfl
  · cases h
  · cases h

theorem short?_equals (p : Place) : p.short? '=' = none := by
  cases p <;> decide

theorem takenFor_of_takeShort (hbefore : Admissible before) {cs : List Char} (hcs : cs ≠ [])
    (h : takeShort p { given := before.reverse } cs = .ok (.options r')) :
    TakenFor p before ('-' :: cs) r' := by
  unfold takeShort at h
  split at h
  · cases h
  rename_i hordinary
  have hknown : p.takesWords = true → ∀ c ∈ cs, (p.short? c).isSome = true := by
    simpa [Option.isSome_iff_ne_none] using hordinary
  obtain ⟨flags, tail, rfl, hflags, hadmissible, htail, hend⟩ :=
    exists_flags_of_takeLetters cs hbefore (of_map_options h)
  obtain rfl | ⟨o, c, cs', rfl, hshort, hvalue⟩ := hend
  · obtain rfl := Except.ok.inj htail
    refine .whole (.letters flags) ⟨?_, hflags⟩ (by simp [Piece.words]) hadmissible
    rintro rfl
    exact hcs rfl
  · obtain ⟨ho, hc⟩ := mem_of_short? hshort
    have hsome : o.short?.isSome = true := by simp [hc]
    have hword (tail : List Char) : '-' :: (lettersOf flags ++ c :: tail)
        = '-' :: (lettersOf (flags ++ [o]) ++ tail) := by rw [lettersOf_concat flags hc]
    simp only [takeLetters, hshort, hvalue, if_true] at htail
    rw [hword]
    cases hattached : attached cs' with
    | none =>
        obtain rfl := eq_nil_of_attached hattached
        obtain rfl := Except.ok.inj htail
        exact .start flags o (.lettersValue flags o .next)
          (fun v hv => ⟨hflags, ho, hvalue, hsome, hv⟩) (fun v => by simp [Piece.words])
          (fun v => rfl) hvalue hadmissible
    | some v =>
        rw [hattached] at htail
        obtain ⟨hafter, rfl, -⟩ := hadmissible.of_accept (v := v) rfl htail
        have hgiven (joint : Joint) : before ++ flagsGiven flags ++ [Given.mk o v]
            = before ++ (Piece.lettersValue flags o joint v).given := List.append_assoc ..
        obtain rfl | ⟨rfl, hne, hequals⟩ := eq_of_attached hattached
        · have hwords : p.takesWords = false := by
            refine Bool.eq_false_iff.2 fun hwords => ?_
            have hequals := hknown hwords '=' (by simp)
            rw [short?_equals] at hequals
            cases hequals
          rw [hgiven .equals] at hafter ⊢
          exact .whole _ ⟨hflags, ho, hvalue, hsome, hwords⟩ rfl hafter
        · have hletters : p.takesWords = true → ∀ c' ∈ cs', (p.short? c').isSome = true :=
            fun hwords c' hc' => hknown hwords c' (by simp [hc'])
          rw [hgiven .direct] at hafter ⊢
          exact .whole _ ⟨hflags, ho, hvalue, hsome, hne, hequals, hletters⟩ rfl hafter

theorem eq_of_shapeOf_long {name : List Char} {value : Option (List Char)}
    (h : shapeOf word = .long name value) :
    ∃ s, word = '-' :: '-' :: s ∧ (nameAndValue s).1 = name ∧ (nameAndValue s).2 = value := by
  unfold shapeOf at h
  split at h <;> cases h
  exact ⟨_, rfl, rfl, rfl⟩

theorem eq_of_shapeOf_letters {cs : List Char} (h : shapeOf word = .letters cs) :
    word = '-' :: cs := by
  unfold shapeOf at h
  split at h <;> cases h
  rfl

/-- What is taken for options is a piece, or the beginning of one. -/
theorem takenFor_of_takeWord (hbefore : Admissible before)
    (h : takeWord p { given := before.reverse } word = .ok (.options r')) :
    TakenFor p before word r' := by
  unfold takeWord at h
  split at h
  · rename_i name value hshape
    obtain ⟨s, rfl, hname⟩ := eq_of_shapeOf_long hshape
    obtain ⟨rfl, rfl⟩ := hname
    exact takenFor_of_takeLong hbefore h
  · rename_i cs hshape
    obtain rfl := eq_of_shapeOf_letters hshape
    exact takenFor_of_takeShort hbefore (ne_nil_of_shapeOf hshape) h
  · cases h
  · cases h

/-- A word that is not taken for options is none, unless it is the two dashes. -/
theorem isOrdinary_of_takeWord (hdashes : word ≠ ['-', '-'])
    (h : takeWord p r word = .ok .ordinary) : p.isOrdinary word = true := by
  unfold takeWord at h
  unfold Place.isOrdinary
  cases hshape : shapeOf word with
  | «end» => exact absurd (shapeOf_eq_end_iff.1 hshape) hdashes
  | long name value =>
      simp only [hshape] at h
      unfold takeLong at h
      split at h
      · split at h
        · split at h
          · exact absurd h (map_options_ne _)
          · exact absurd h (map_options_ne _)
        · split at h
          · cases h
          · exact absurd h (map_options_ne _)
      · rename_i hlong
        cases hwords : p.takesWords with
        | true => simp [hlong]
        | false => simp [hwords] at h
  | letters cs =>
      simp only [hshape] at h
      unfold takeShort at h
      split at h
      · assumption
      · exact absurd h (map_options_ne _)
  | word => rfl

/-! ### What is judged in the end -/

theorem settle_of_add {o : Opt} {value : Option (List Char)} (h : r.add o value = .ok r') :
    ∃ r'', r.settle = .ok r'' := by
  unfold Reading.add at h
  split at h
  · exact ⟨_, ‹_›⟩
  · cases h

theorem settle_of_await {o : Opt} (h : r.await o = .ok r') : ∃ r'', r.settle = .ok r'' := by
  unfold Reading.await at h
  split at h
  · exact ⟨_, ‹_›⟩
  · cases h

theorem settle_of_takeLetters {cs : List Char} (hcs : cs ≠ [])
    (h : takeLetters p r cs = .ok r') : ∃ r'', r.settle = .ok r'' := by
  obtain ⟨c, cs, rfl⟩ := List.exists_cons_of_ne_nil hcs
  unfold takeLetters at h
  split at h
  · cases h
  · split at h
    · split at h
      · exact settle_of_add h
      · exact settle_of_await h
    · split at h
      · exact settle_of_add ‹_›
      · cases h

/-- Whatever takes a word for options has judged the option before it. -/
theorem settle_of_takeWord (h : takeWord p r word = .ok (.options r')) :
    ∃ r'', r.settle = .ok r'' := by
  unfold takeWord at h
  split at h
  · unfold takeLong at h
    split at h
    · split at h
      · split at h
        · exact settle_of_add (of_map_options h)
        · exact settle_of_await (of_map_options h)
      · split at h
        · cases h
        · exact settle_of_add (of_map_options h)
    · split at h <;> cases h
  · rename_i cs hshape
    unfold takeShort at h
    split at h
    · cases h
    · exact settle_of_takeLetters (ne_nil_of_shapeOf hshape) (of_map_options h)
  · cases h
  · cases h

theorem settle_of_finish (h : finish p r ws = .ok t) : ∃ r', r.settle = .ok r' := by
  unfold finish at h
  split at h
  · cases h
  · exact ⟨_, ‹_›⟩

theorem settle_of_below {t' : Except Refusal Trail} (h : Trail.below p r t' = .ok t) :
    (∃ r', r.settle = .ok r') ∧ ∃ t'', t' = .ok t'' := by
  unfold Trail.below at h
  split at h
  · cases h
  · split at h
    · cases h
    · exact ⟨⟨_, ‹_›⟩, ⟨_, rfl⟩⟩

theorem settle_of_ended (h : ({ r with ended := true } : Reading).settle = .ok r') :
    ∃ r'', r.settle = .ok r'' := by
  unfold Reading.settle at h ⊢
  cases hpending : r.pending with
  | none => exact ⟨r, rfl⟩
  | some o =>
      simp only [hpending] at h
      obtain ⟨hcarried, hvalue, honce, hjudge, -⟩ := Reading.accept_eq_ok_iff.1 h
      exact ⟨_, Reading.accept_eq_ok_iff.2 ⟨hcarried, hvalue, honce, hjudge, rfl⟩⟩

/-! ### What a word can come to -/

theorem walk_help (hended : r.ended = false) (hopen : r.awaiting? = none)
    (hcommands : p.hasCommands = true) (rest : List (List Char)) :
    walk p r ("help".toList :: rest) = .error (helpOn p rest) := by
  have hcommand : p.command? ['h', 'e', 'l', 'p'] = none := by cases p <;> decide
  rw [walk]
  simp [hended, hopen, hcommands, hcommand]

/-- After the two dashes there is only the end. -/
theorem finish_of_walk (hended : r.ended = true) (h : walk p r ws = .ok t) :
    finish p r ws = .ok t ∧ (ws ≠ [] → p.takesWords = true) := by
  cases ws with
  | nil =>
      rw [walk] at h
      exact ⟨h, fun hne => absurd rfl hne⟩
  | cons word rest =>
      rw [walk_ended hended] at h
      split at h
      · exact ⟨h, fun _ => ‹_›⟩
      · cases h

/-- What a word comes to before the two dashes, where a trail is read in the end: it names a
command, which the rest belongs to; it is the two dashes; it is taken for options; it is the value
of an option; or it is the first of the words at the end. -/
inductive ComesTo (p : Place) (r : Reading) (word : List Char) (rest : List (List Char))
    (t : Trail) : Prop
  | command (q : Place) (hopen : r.awaiting? = none) (hq : p.command? word = some q)
      (h : Trail.below p r (walk q {} rest) = .ok t)
  | dashes (hword : word = ['-', '-']) (h : walk p { r with ended := true } rest = .ok t)
  | options (r' : Reading) (htake : takeWord p r word = .ok (.options r'))
      (h : walk p r' rest = .ok t)
  | value (o : Opt) (hopen : r.awaiting? = some o) (hordinary : p.isOrdinary word = true)
      (h : walk p (r.fill o word) rest = .ok t)
  | words (hopen : r.awaiting? = none) (hordinary : p.isOrdinary word = true)
      (htakes : p.takesWords = true) (h : finish p r (word :: rest) = .ok t)

theorem comesTo_of_walk (hended : r.ended = false) {rest : List (List Char)}
    (h : walk p r (word :: rest) = .ok t) : ComesTo p r word rest t := by
  by_cases hdashes : word = ['-', '-']
  · subst hdashes
    exact .dashes rfl (walk_dashes hended rest ▸ h)
  by_cases hcommand : r.awaiting? = none ∧ (p.command? word).isSome = true
  · obtain ⟨hopen, hsome⟩ := hcommand
    obtain ⟨q, hq⟩ := Option.isSome_iff_exists.1 hsome
    exact .command q hopen hq (walk_command hended hopen hq rest ▸ h)
  by_cases hhelp : r.awaiting? = none ∧ p.hasCommands = true ∧ word = "help".toList
  · obtain ⟨hopen, hcommands, rfl⟩ := hhelp
    rw [walk_help hended hopen hcommands] at h
    cases h
  have hname : r.awaiting? = none →
      p.command? word = none ∧ (p.hasCommands = true → word ≠ "help".toList) := fun hopen =>
    ⟨by simpa using fun hq => hcommand ⟨hopen, hq⟩, fun hcommands hword =>
      hhelp ⟨hopen, hcommands, hword⟩⟩
  rw [walk_cons hended hdashes hname] at h
  split at h
  · cases h
  · exact .options _ ‹_› h
  · have hordinary := isOrdinary_of_takeWord hdashes ‹_›
    split at h
    · exact .value _ ‹_› hordinary h
    · split at h
      · exact .words ‹_› hordinary ‹_› h
      · cases h

/-- What is accepted has been judged in the end, unless a value is still to come. -/
theorem settle_of_walk (hended : r.ended = false) (hopen : r.awaiting? = none)
    (h : walk p r ws = .ok t) : ∃ r', r.settle = .ok r' := by
  cases ws with
  | nil =>
      rw [walk] at h
      exact settle_of_finish h
  | cons word rest =>
      cases comesTo_of_walk hended h with
      | command q _ _ hbelow => exact (settle_of_below hbelow).1
      | dashes _ hwalk =>
          obtain ⟨r', hsettle⟩ := settle_of_finish (finish_of_walk rfl hwalk).1
          exact settle_of_ended hsettle
      | options r' htake _ => exact settle_of_takeWord htake
      | value o ho _ _ =>
          rw [hopen] at ho
          cases ho
      | words _ _ _ hfinish => exact settle_of_finish hfinish

/-! ### Values that are to come -/

/-- Where a value is to come, the next word is one, and it has been judged in the end. -/
theorem walk_start_cases {given : List Given} {o : Opt} (hvalue : o.takesValue = true)
    (h : walk p { given := given, pending := some ⟨o, none⟩ } ws = .ok t) :
    ∃ v rest r', ws = v :: rest ∧ p.isOrdinary v = true
      ∧ ({ given := given } : Reading).accept ⟨o, some v⟩ = .ok r' ∧ walk p r' rest = .ok t := by
  have hmissing (ended : Bool) (r' : Reading) :
      ({ given := given, pending := some ⟨o, none⟩, ended := ended } : Reading).settle ≠ .ok r' :=
    fun hsettle => by simpa using (Reading.accept_eq_ok_iff.1 hsettle).2.1 hvalue
  cases ws with
  | nil =>
      rw [walk] at h
      obtain ⟨r', hsettle⟩ := settle_of_finish h
      exact absurd hsettle (hmissing false r')
  | cons v rest =>
      cases comesTo_of_walk rfl h with
      | command q hopen _ _ => cases hopen
      | dashes _ hwalk =>
          obtain ⟨r', hsettle⟩ := settle_of_finish (finish_of_walk rfl hwalk).1
          exact absurd hsettle (hmissing true r')
      | options r' htake _ =>
          obtain ⟨r'', hsettle⟩ := settle_of_takeWord htake
          exact absurd hsettle (hmissing false r'')
      | value o' ho hv hwalk =>
          obtain rfl : o = o' := Option.some.inj ho
          obtain ⟨r', hsettle⟩ := settle_of_walk rfl rfl hwalk
          exact ⟨v, rest, r', rfl, hv, hsettle, walk_settle rfl hsettle rest ▸ hwalk⟩
      | words hopen _ _ _ => cases hopen

/-! ### Accepted command lines -/

theorem mem_of_command? {q : Place} (h : p.command? word = some q) :
    ∃ name, (name, q) ∈ p.commands ∧ name.toList = word := by
  unfold Place.command? at h
  obtain ⟨⟨name, q'⟩, hfind, rfl⟩ := Option.map_eq_some_iff.1 h
  exact ⟨name, List.mem_of_find?_eq_some hfind, by simpa using List.find?_some hfind⟩

/-- A command that has come to its end. -/
theorem exists_command_of_finish (ended : Bool) (hbefore : Admissible before)
    (hwords : ws ≠ [] → p.takesWords = true)
    (hfirst : ended = false → ∀ w ∈ ws.head?, p.isOrdinary w = true)
    (h : finish p { given := before.reverse, ended := ended } ws = .ok t) :
    (Command.last [] ended ws).Fits before p ∧ t = (Command.last [] ended ws).trail before p := by
  obtain ⟨hverdict, rfl⟩ := (finish_eq_ok_iff rfl).1 h
  obtain ⟨hneeds, hsource, hmissing⟩ := verdict_eq_none_iff.1 hverdict
  rw [has_reverse, has_reverse] at hsource
  have hgiven : before ++ givenBy [] = before := by simp [givenBy]
  refine ⟨⟨by simp, by rwa [hgiven], hneeds, ⟨hmissing, hwords⟩, by rwa [hgiven], hfirst⟩, ?_⟩
  simp only [Command.trail, Command.steps, Command.rest, hgiven]

/-- What is accepted is written by the rules. -/
theorem exists_command_of_walk (ws : List (List Char)) (hbefore : Admissible before)
    (h : walk p { given := before.reverse } ws = .ok t) :
    ∃ c : Command, c.Fits before p ∧ c.words = ws ∧ t = c.trail before p := by
  induction hlength : ws.length using Nat.strongRecOn generalizing p before ws t with
  | ind n ih =>
    subst hlength
    cases ws with
    | nil =>
        rw [walk] at h
        obtain ⟨hfits, htrail⟩ := exists_command_of_finish false hbefore (by simp) (by simp) h
        exact ⟨.last [] false [], hfits, rfl, htrail⟩
    | cons word rest =>
        cases comesTo_of_walk rfl h with
        | command q _ hq hbelow =>
            obtain ⟨name, hname, rfl⟩ := mem_of_command? hq
            obtain ⟨-, t', hwalk⟩ := settle_of_below hbelow
            obtain ⟨inner, hfits, rfl, rfl⟩ :=
              ih rest.length (by simp) rest Admissible.nil hwalk rfl
            rw [hwalk] at hbelow
            obtain rfl := Except.ok.inj hbelow
            have hgiven : before ++ givenBy [] = before := by simp [givenBy]
            refine ⟨.nested [] name q inner, ⟨by simp, by rwa [hgiven], hname, hfits⟩, rfl, ?_⟩
            simp only [Command.trail, Command.steps, Command.rest, hgiven]
        | dashes hword hwalk =>
            obtain ⟨hfinish, hwords⟩ := finish_of_walk rfl hwalk
            obtain ⟨hfits, htrail⟩ := exists_command_of_finish true hbefore hwords (by simp) hfinish
            exact ⟨.last [] true rest, hfits, hword ▸ rfl, htrail⟩
        | options r' htake hwalk =>
            cases takenFor_of_takeWord hbefore htake with
            | whole x hfits hwords hadmissible =>
                obtain ⟨c, hc, rfl, rfl⟩ := ih rest.length (by simp) rest hadmissible hwalk rfl
                exact ⟨c.cons x, Command.fits_cons hfits hc, by simp [Command.words_cons, hwords],
                  (Command.trail_cons x c).symm⟩
            | start flags o x hfits hwords hgiven hvalue hadmissible =>
                -- the next word belongs to the same piece, so the rest is two words shorter
                obtain ⟨v, rest, r', rfl, hv, haccept, hwalk⟩ := walk_start_cases hvalue hwalk
                have hless : rest.length < (word :: v :: rest).length :=
                  Nat.lt_succ_of_lt (Nat.lt_succ_self _)
                obtain ⟨hafter, rfl, -⟩ := hadmissible.of_accept (v := v) rfl haccept
                rw [List.append_assoc, ← hgiven] at hafter hwalk
                obtain ⟨c, hc, rfl, rfl⟩ := ih rest.length hless rest hafter hwalk rfl
                exact ⟨c.cons (x v), Command.fits_cons (hfits v hv) hc,
                  by simp [Command.words_cons, hwords], (Command.trail_cons (x v) c).symm⟩
        | value o hopen _ _ => cases hopen
        | words _ hordinary htakes hfinish =>
            obtain ⟨hfits, htrail⟩ := exists_command_of_finish false hbefore (fun _ => htakes)
              (fun _ w hw => by simpa using Option.some.inj hw ▸ hordinary) hfinish
            exact ⟨.last [] false (word :: rest), hfits, rfl, htrail⟩

/-- Exactly what is written by the rules is accepted. -/
theorem walk_eq_ok_iff : walk p {} ws = .ok t ↔
    ∃ c : Command, c.Fits [] p ∧ c.words = ws ∧ t = c.trail [] p := by
  constructor
  · exact exists_command_of_walk ws Admissible.nil
  · rintro ⟨c, hfits, rfl, rfl⟩
    exact c.walk_words hfits

end OrderedDispatch.CommandLine
