/-
**Overriding a text by a variable.**

The variable of a setting lies over whatever the other layers hold.  As long as no other variable
speaks of the same setting, it changes nothing apart from it, wherever it stands among the others,
and settings that could be loaded without it can be loaded with it exactly if its value fits.

For the two settings that are texts this does not mean that the variable's text becomes the setting.
Its text is guessed at first: the gap that is built in, two braces, is taken for an empty table and
refused, and so are numbers and truth values, which as texts in a file would all be accepted.

Main definitions:

* `Config.Tree.overlay` — a tree over another one, either of which may be missing;
* `Config.Tree.Placed` — a tree holds a value at a path and is like another one apart from it;
* `Config.Environment.layOver` — variables laid over a tree;
* `Config.Knob.text?`, `Config.textWith` — the settings that are texts, and what they are with some
  variables.

Main results:

* `Config.Tree.find?_overlay_congr` — layering respects what trees hold apart from a path;
* `Config.Environment.exists_placed_layOver`, `Config.Tree.Placed.over_low` — what one variable
  changes, in its own layer and in all layers together;
* `Config.Knob.isOk_extract_of_apart` — one changed setting is all that decides;
* `Config.load_one_more` — one more variable for any setting;
* `Config.load_variable` — **a variable sets a text to what its own text stands for**;
* `Config.load_refuses_gap` — the built-in gap cannot be set by a variable.
-/

import OrderedDispatch.Proofs.Config.Refusal
import OrderedDispatch.Proofs.Config.Spelling

set_option relaxedAutoImplicit false
set_option autoImplicit false

namespace OrderedDispatch.Config

open Environment

/-! ### What lies apart from a path -/

theorem Apart.cons {p q : List Key} (h : Apart p q) (k : Key) : Apart (k :: p) (k :: q) :=
  ⟨fun hpq => h.1 (List.cons_prefix_cons.1 hpq).2, fun hqp => h.2 (List.cons_prefix_cons.1 hqp).2⟩

/-- Paths with different first keys are apart. -/
theorem Apart.of_ne {k l : Key} (h : k ≠ l) (p q : List Key) : Apart (k :: p) (l :: q) :=
  ⟨fun hpq => h (List.cons_prefix_cons.1 hpq).1, fun hqp => h (List.cons_prefix_cons.1 hqp).1.symm⟩

namespace Tree

variable {low low' high high' : Option Tree} {t t' v : Tree} {q : List Key}

/-- A tree over another one, either of which may be missing. -/
def overlay (low high : Option Tree) : Option Tree :=
  match high with
  | none => low
  | some v => some (onto low v)

theorem find?_key_bind (key : Key) (path : List Key) (o : Option Tree) :
    o.bind (find? (key :: path)) = (o.bind (find? [key])).bind (find? path) := by
  cases o with
  | none => rfl
  | some t => rw [Option.bind_some, Option.bind_some, find?_cons, find?_name]

/-- Keys are looked up in layered trees one by one, as long as the higher one is a table. -/
theorem find?_overlay (h : high.all isTable = true) (key : Key) :
    (overlay low high).bind (find? [key])
      = overlay (low.bind (find? [key])) (high.bind (find? [key])) := by
  cases high with
  | none => rfl
  | some v =>
      cases v with
      | table oh eh =>
          rw [overlay, Option.bind_some, Option.bind_some, find?_name, find?_name, entries]
          cases low with
          | none => cases hhigh : Entries.get? key eh <;> simp [overlay, entries, hhigh]
          | some old =>
              rw [onto_some, Option.bind_some, find?_name]
              cases old with
              | table ol el =>
                  rw [merge_table, entries, entries, get?_mergeEntries]
                  cases Entries.get? key eh <;> rfl
              | list ol items =>
                  rw [merge_of_low_not_isTable rfl, entries]
                  cases Entries.get? key eh <;> rfl
              | leaf ol x =>
                  rw [merge_of_low_not_isTable rfl, entries]
                  cases Entries.get? key eh <;> rfl
      | list oh items => cases h
      | leaf oh x => cases h

theorem all_isOpenAt_tail {key : Key} (h : high.all (isOpenAt (key :: q)) = true) :
    high.all isTable = true ∧ (high.bind (find? [key])).all (isOpenAt q) = true := by
  cases high with
  | none => exact ⟨rfl, rfl⟩
  | some t =>
      obtain ⟨o, es, rfl, hes⟩ := isOpenAt_cons h
      refine ⟨rfl, ?_⟩
      rw [Option.bind_some, find?_name]
      exact (Option.all_eq_true _ _).2 hes

/-- What two layered trees hold apart from a path depends only on what either holds apart from it,
as long as the higher one has only tables on the way. -/
theorem find?_overlay_congr (hopen : high.all (isOpenAt q) = true)
    (hopen' : high'.all (isOpenAt q) = true)
    (hlow : ∀ p, Apart p q → low'.bind (find? p) = low.bind (find? p))
    (hhigh : ∀ p, Apart p q → high'.bind (find? p) = high.bind (find? p)) {p : List Key}
    (hp : Apart p q) : (overlay low' high').bind (find? p) = (overlay low high).bind (find? p) := by
  induction q generalizing low low' high high' p with
  | nil => exact absurd List.nil_prefix hp.2
  | cons k q ih =>
      obtain ⟨l, p, _, _, rfl, -⟩ := hp.exists_cons
      obtain ⟨htable, hrest⟩ := all_isOpenAt_tail hopen
      obtain ⟨htable', hrest'⟩ := all_isOpenAt_tail hopen'
      rw [find?_key_bind l p (overlay low' high'), find?_key_bind l p (overlay low high),
        find?_overlay htable, find?_overlay htable']
      by_cases hkey : l = k
      · subst hkey
        refine ih hrest hrest' (fun r hr => ?_) (fun r hr => ?_) hp.of_cons
        · simpa only [find?_key_bind l r] using hlow _ (hr.cons l)
        · simpa only [find?_key_bind l r] using hhigh _ (hr.cons l)
      · -- another first key leads apart at once
        have hone : Apart [l] (k :: q) := .of_ne hkey [] q
        rw [hlow _ hone, hhigh _ hone]

/-! ### One value put into a tree -/

theorem isOpenAt_nest_of_apart {o : Origin} {d : Doc} {p : List Key} (h : Apart q p) :
    isOpenAt q (ofDoc o (nest d p)) = true := by
  induction p generalizing q with
  | nil => exact absurd List.nil_prefix h.2
  | cons k p ih =>
      obtain ⟨l, q, _, _, rfl, -⟩ := h.exists_cons
      rw [ofDoc_nest_cons, isOpenAt, get?_single]
      by_cases hk : k = l
      · subst hk
        simpa using ih h.of_cons
      · simp [hk]

theorem isOpenAt_nest_self (o : Origin) (d : Doc) (q : List Key) :
    isOpenAt q (ofDoc o (nest d q)) = true := by
  induction q with
  | nil => rfl
  | cons k q ih =>
      rw [ofDoc_nest_cons, isOpenAt, get?_single]
      simpa using ih

theorem find?_nest_self (o : Origin) (d : Doc) (q : List Key) :
    find? q (ofDoc o (nest d q)) = some (ofDoc o d) := by
  induction q with
  | nil => rfl
  | cons k q ih =>
      rw [ofDoc_nest_cons, find?, get?_single]
      simpa using ih

/-- A tree holds a value at a path and is like another one apart from it.  In both there are only
tables on the way. -/
structure Placed (q : List Key) (v t t' : Tree) : Prop where
  alike : ∀ p, Apart p q → find? p t' = find? p t
  isOpen : isOpenAt q t = true
  isOpen' : isOpenAt q t' = true
  found : find? q t' = some v

/-- A nested value laid over a tree is placed in it. -/
theorem exists_placed (h : isOpenAt q t = true) (o : Origin) (d : Doc) :
    ∃ old, Placed q (onto old (ofDoc o d)) t (merge t (ofDoc o (nest d q))) := by
  obtain ⟨old, hold⟩ :
      ∃ old, find? q (merge t (ofDoc o (nest d q))) = some (onto old (ofDoc o d)) :=
    exists_find?_merge (find?_nest_self o d q)
  exact ⟨old, fun p hp => find?_merge_nest hp, h, isOpenAt_merge h (isOpenAt_nest_self o d q), hold⟩

/-- A placed value stays in place under a value nested elsewhere. -/
theorem Placed.merge_nest (h : Placed q v t t') {o : Origin} {d : Doc} {p : List Key}
    (hp : Apart q p) :
    Placed q v (merge t (ofDoc o (nest d p))) (merge t' (ofDoc o (nest d p))) := by
  -- the new value leaves the path before the path ends, so that it is no obstacle on it
  have hopen : isOpenAt q (ofDoc o (nest d p)) = true := isOpenAt_nest_of_apart hp
  refine ⟨fun r hr => ?_, isOpenAt_merge h.isOpen hopen, isOpenAt_merge h.isOpen' hopen, ?_⟩
  · exact @find?_overlay_congr (some t) (some t') (some _) (some _) q hopen hopen h.alike
      (fun _ _ => rfl) r hr
  · rw [find?_merge_nest hp, h.found]

/-- A placed value stays in place over lower layers, whatever they hold. -/
theorem Placed.over_low (h : Placed q v t t') (low : Tree) :
    (∀ p, Apart p q → find? p (merge low t') = find? p (merge low t))
      ∧ ∃ old, find? q (merge low t') = some (onto old v) :=
  ⟨fun p hp => @find?_overlay_congr (some low) (some low) (some t) (some t') q h.isOpen h.isOpen'
    (fun _ _ => rfl) h.alike p hp, exists_find?_merge h.found⟩

end Tree

/-! ### One variable among others -/

/-- Variables laid over a tree, later ones over earlier ones. -/
def Environment.layOver (t : Tree) (vars : List Variable) : Tree :=
  (vars.filterMap setting?).foldl (fun t d => Tree.merge t (.ofDoc .environment d)) t

namespace Environment

variable {t t' v : Tree} {q : List Key} {vars : List Variable}

theorem layOver_append (t : Tree) (before after : List Variable) :
    layOver t (before ++ after) = layOver (layOver t before) after := by
  rw [layOver, List.filterMap_append, List.foldl_append]
  rfl

theorem layOver_cons (t : Tree) (w : Variable) (vars : List Variable) :
    layOver t (w :: vars) = layOver ((path? w.name).elim t fun p =>
      Tree.merge t (.ofDoc .environment (nest (value w.value) p))) vars := by
  rw [layOver, List.filterMap_cons, setting?]
  cases path? w.name <;> rfl

theorem isOpenAt_layOver (ht : Tree.isOpenAt q t = true)
    (hvars : ∀ u ∈ vars, ∀ p ∈ path? u.name, Apart q p) :
    Tree.isOpenAt q (layOver t vars) = true := by
  induction vars generalizing t with
  | nil => exact ht
  | cons w vars ih =>
      obtain ⟨hw, hvars⟩ := List.forall_mem_cons.1 hvars
      rw [layOver_cons]
      refine ih ?_ hvars
      cases hpath : path? w.name with
      | none => exact ht
      | some p => exact Tree.isOpenAt_merge ht (Tree.isOpenAt_nest_of_apart (hw p hpath))

/-- A placed value stays in place under variables that speak of other settings. -/
theorem placed_layOver (h : Tree.Placed q v t t')
    (hvars : ∀ u ∈ vars, ∀ p ∈ path? u.name, Apart q p) :
    Tree.Placed q v (layOver t vars) (layOver t' vars) := by
  induction vars generalizing t t' with
  | nil => exact h
  | cons w vars ih =>
      obtain ⟨hw, hvars⟩ := List.forall_mem_cons.1 hvars
      rw [layOver_cons, layOver_cons]
      refine ih ?_ hvars
      cases hpath : path? w.name with
      | none => exact h
      | some p => exact h.merge_nest (hw p hpath)

/-- One more variable, wherever it stands among the others, only changes what its keys lead to. -/
theorem exists_placed_layOver {before after : List Variable} {w : Variable}
    (hw : path? w.name = some q)
    (hothers : ∀ u ∈ before ++ after, ∀ p ∈ path? u.name, Apart q p)
    (ht : Tree.isOpenAt q t = true) :
    ∃ old, Tree.Placed q (Tree.onto old (.ofDoc .environment (value w.value)))
      (layOver t (before ++ after)) (layOver t (before ++ w :: after)) := by
  obtain ⟨hbefore, hafter⟩ := List.forall_mem_append.1 hothers
  rw [layOver_append, layOver_append, layOver_cons, hw]
  obtain ⟨old, hplaced⟩ :=
    Tree.exists_placed (isOpenAt_layOver ht hbefore) .environment (value w.value)
  exact ⟨old, placed_layOver hplaced hafter⟩

end Environment

/-! ### The settings -/

variable {t t' v : Tree} {c : Config} {k : Knob}

/-- What a setting is converted from fits it. -/
theorem Knob.Converts.accepts (h : k.Converts v c) : k.accepts v = true := by
  cases k with
  | threads => rw [Knob.accepts, ← isOk_word? .count, h]; rfl
  | maxThreads => rw [Knob.accepts, ← isOk_word? .count, h]; rfl
  | memory => rw [Knob.accepts, ← isOk_word? .amount, h]; rfl
  | trace => rw [Knob.accepts, ← isOk_flag?, h]; rfl
  | verbose => rw [Knob.accepts, ← isOk_flag?, h]; rfl
  | shell => rw [Knob.accepts, ← isOk_text?, h]; rfl
  | placeholder => rw [Knob.accepts, ← isOk_text?, h]; rfl

/-- The keys of different settings are apart. -/
theorem Knob.apart_path {k' : Knob} (h : k' ≠ k) : Apart k'.path k.path := by
  revert h
  cases k' <;> cases k <;> decide

/-- Settings that could be extracted still can be after one of them was changed exactly if the
changed value fits. -/
theorem Knob.isOk_extract_of_apart (hok : extract t = .ok c)
    (halike : ∀ p, Apart p k.path → t'.find? p = t.find? p) (hfound : t'.find? k.path = some v) :
    (extract t').isOk = k.accepts v := by
  have hfits : ∀ n ∈ sectionNames, (t.find? [n]).all (fits n) = true := by
    rw [← List.all_eq_true, ← isOk_extract, hok]
    rfl
  obtain ⟨o, es, hsection, hkey⟩ := exists_of_find? hfound
  have hother : ∀ n ∈ sectionNames, n ≠ k.sectionName → (t'.find? [n]).all (fits n) = true := by
    intro n hn hne
    rw [halike _ (.of_ne hne [] [k.key])]
    exact hfits n hn
  -- the other settings of its section have the values that could be extracted before
  have hrest : ∀ k' ∈ knobsIn k.sectionName, k' ≠ k →
      (Entries.get? k'.key es).all k'.accepts = true := by
    intro k' hk' hne
    have hget : Entries.get? k'.key es = t'.find? k'.path := by
      rw [path, mem_knobsIn.1 hk', find?_cons, hsection, Option.bind_some, find?_name]
      rfl
    rw [hget, halike _ (apart_path hne), Option.all_eq_true]
    exact fun u hu => (converts_of_extract hok hu).accepts
  have hthis : fits k.sectionName (.table o es) = k.accepts v := by
    rw [fits, Bool.eq_iff_iff, List.all_eq_true]
    constructor
    · intro hall
      simpa [hkey] using hall k (mem_knobsIn.2 rfl)
    · intro hv k' hk'
      by_cases hsame : k' = k
      · rw [hsame, hkey, Option.all_some, hv]
      · exact hrest k' hk' hsame
  rw [isOk_extract, Bool.eq_iff_iff, List.all_eq_true, ← hthis]
  constructor
  · intro hall
    simpa [find?_name, hsection] using hall _ k.sectionName_mem
  · intro hv n hn
    by_cases hsame : n = k.sectionName
    · rw [hsame, find?_name, hsection, Option.all_some, hv]
    · exact hother n hn hsame

/-- Values that fit a setting are no tables, and a table that lies over something is still one. -/
theorem Knob.accepts_onto (k : Knob) (o : Option Tree) (v : Tree) :
    k.accepts (Tree.onto o v) = k.accepts v := by
  cases hv : v.isTable with
  | false => rw [(Tree.onto_eq_iff hv o v).2 rfl]
  | true =>
      have honto : (Tree.onto o v).isTable = true := by
        cases o with
        | none => exact hv
        | some old => rw [Tree.onto_some, Tree.isTable_merge, hv]
      have hrefuses {u : Tree} (hu : u.isTable = true) : k.accepts u = false := by
        refine Bool.eq_false_iff.2 fun haccepts => ?_
        rw [isTable_of_accepts haccepts] at hu
        cases hu
      rw [hrefuses honto, hrefuses hv]

/-- The settings that are texts. -/
def Knob.text? : Knob → Config → Option String
  | shell, c => some c.shell
  | placeholder, c => some c.placeholder
  | _, _ => none

theorem isText_ofDoc (o : Origin) (d : Doc) : Tree.isText (.ofDoc o d) = d.text?.isSome := by
  cases d with
  | scalar x => cases x <;> simp [Tree.ofDoc, Tree.isText, Doc.text?]
  | list items => simp [Tree.ofDoc, Tree.isText, Doc.text?]
  | table entries => simp [Tree.ofDoc, Tree.isText, Doc.text?]

theorem eq_of_text?_ofDoc {o : Origin} {d : Doc} {w : String} (h : text? (.ofDoc o d) = .ok w) :
    d.text?.map String.ofList = some w := by
  cases d with
  | scalar x =>
      cases x with
      | text s => simpa [Tree.ofDoc, text?, Doc.text?] using h
      | _ => simp [Tree.ofDoc, text?, complain] at h
  | list items => simp [Tree.ofDoc, text?, complain] at h
  | table entries => simp [Tree.ofDoc, text?, complain] at h

/-- A setting that is a text is converted from a document that is one. -/
theorem Knob.text?_of_converts (hk : k = .shell ∨ k = .placeholder) {o : Origin} {d : Doc}
    (h : k.Converts (.ofDoc o d) c) : k.text? c = d.text?.map String.ofList := by
  obtain rfl | rfl := hk
  · exact (eq_of_text?_ofDoc h).symm
  · exact (eq_of_text?_ofDoc h).symm

theorem Knob.accepts_ofDoc (hk : k = .shell ∨ k = .placeholder) (o : Origin) (d : Doc) :
    k.accepts (.ofDoc o d) = d.text?.isSome := by
  obtain rfl | rfl := hk
  · exact isText_ofDoc o d
  · exact isText_ofDoc o d

/-! ### Loading -/

section Load

variable {s : Surroundings} {custom : Option (List Char)} {vars vars' : List Variable}

/-- All layers but that of the environment. -/
def lowerLayers (s : Surroundings) (custom : Option (List Char)) : List Layer :=
  Layer.ofDoc .builtIn (toDoc {}) :: (settingsFiles s custom).filterMap
    fun f => (s.files.search? s.here f.1).map (layerOf f.2)

theorem precedence_with (s : Surroundings) (custom : Option (List Char)) (vars : List Variable) :
    precedence { s with environment := vars } custom
      = lowerLayers s custom ++ [environmentLayer vars] := by
  cases custom <;> rfl

theorem stacked_precedence (s : Surroundings) (custom : Option (List Char))
    (vars : List Variable) : stacked (precedence { s with environment := vars } custom)
      = Tree.merge (stacked (lowerLayers s custom)) (layOver (.table .environment []) vars) := by
  rw [precedence_with, stacked, List.filterMap_append, List.foldl_append]
  rfl

/-- The environment is always readable. -/
theorem unreadable_precedence (s : Surroundings) (custom : Option (List Char))
    (vars : List Variable) : unreadable (precedence { s with environment := vars } custom)
      = unreadable (lowerLayers s custom) := by
  have henvironment : [environmentLayer vars].filter (fun l => l.content.isNone) = [] := rfl
  rw [precedence_with, unreadable, List.filter_append, henvironment, List.append_nil, unreadable]

theorem eq_ok_of_mem_toOption {ε α : Type} {x : Except ε α} {a : α} (h : a ∈ x.toOption) :
    x = .ok a := by
  cases x with
  | error e => cases h
  | ok b => rw [Option.some.inj h]

theorem isFile_of_load (h : load s custom = .ok c) :
    ∀ path ∈ custom, s.files.isFile s.here (.ofText path) = true := by
  rintro path ⟨⟩
  by_contra hmissing
  rw [load, layers, if_neg hmissing] at h
  cases h

/-- Where settings can be loaded with some variables, those with other variables depend only on
whether they can be extracted. -/
theorem toOption_load (h : load { s with environment := vars } custom = .ok c) :
    (load { s with environment := vars' } custom).toOption = (extract (Tree.merge
      (stacked (lowerLayers s custom)) (layOver (.table .environment []) vars'))).toOption := by
  have hfile := isFile_of_load h
  have hsound : unreadable (lowerLayers s custom) = [] := by
    by_contra hbroken
    rw [load_of_unreadable hfile (by rwa [unreadable_precedence])] at h
    cases h
  have hlayers : layers { s with environment := vars' } custom
      = .ok (precedence { s with environment := vars' } custom) := layers_of_isFile hfile
  have hmerged : merged (precedence { s with environment := vars' } custom)
      = .ok (stacked (precedence { s with environment := vars' } custom)) := by
    refine if_pos ?_
    rw [unreadable_precedence]
    exact List.isEmpty_iff.2 hsound
  rw [load, hlayers]
  dsimp only
  rw [hmerged, stacked_precedence]
  dsimp only
  cases extract (Tree.merge (stacked (lowerLayers s custom))
    (layOver (.table .environment []) vars')) <;> rfl

/-- One more variable for a setting leaves the settings loadable exactly if its value fits, and then
the setting is converted from this value. -/
theorem load_one_more {before after : List Variable} {w : Variable}
    (hw : path? w.name = some k.path)
    (hothers : ∀ u ∈ before ++ after, ∀ p ∈ path? u.name, Apart k.path p)
    (h : load { s with environment := before ++ after } custom = .ok c) :
    (load { s with environment := before ++ w :: after } custom).toOption.isSome
        = k.accepts (.ofDoc .environment (value w.value))
      ∧ ∀ c' ∈ (load { s with environment := before ++ w :: after } custom).toOption,
        k.Converts (.ofDoc .environment (value w.value)) c' := by
  have hextract := extract_of_load h
  rw [stacked_precedence] at hextract
  obtain ⟨old, hplaced⟩ :=
    @exists_placed_layOver (.table .environment []) k.path _ _ w hw hothers rfl
  obtain ⟨halike, low, hfound⟩ := hplaced.over_low (stacked (lowerLayers s custom))
  have hok := Knob.isOk_extract_of_apart hextract halike hfound
  rw [Knob.accepts_onto, Knob.accepts_onto] at hok
  rw [toOption_load h, ← hok]
  refine ⟨?_, fun c' hc' => ?_⟩
  · cases extract (Tree.merge (stacked (lowerLayers s custom))
      (layOver (.table .environment []) (before ++ w :: after))) <;> rfl
  · have hextract' : extract (Tree.merge (stacked (lowerLayers s custom))
        (layOver (.table .environment []) (before ++ w :: after))) = .ok c' :=
      eq_ok_of_mem_toOption hc'
    have hconverts := Knob.converts_of_extract hextract' hfound
    have hplain := hconverts.accepts
    rw [Knob.accepts_onto, Knob.accepts_onto] at hplain
    -- a value that fits is no table, and then nothing below it shows through
    have hsame := fun o => (Tree.onto_eq_iff (Knob.isTable_of_accepts hplain) o _).2 rfl
    rwa [hsame, hsame] at hconverts

/-- The text that a setting has where these are the variables, if there are settings at all. -/
def textWith (s : Surroundings) (custom : Option (List Char)) (k : Knob) (vars : List Variable) :
    Option String :=
  (load { s with environment := vars } custom).toOption.bind k.text?

/-- **A variable sets a text to what its own text stands for.**  Where settings can be loaded
without the variable of a setting, and no other variable speaks of this setting, of its section or of
parts of it, they can be loaded with the variable exactly if its text stands for a text, and this is
the setting then.  So the setting is the text of the variable exactly if the guess fails or there is
nothing to guess in it; and between quotes every text can be set. -/
theorem load_variable (hk : k = .shell ∨ k = .placeholder) {name : List Char}
    (hname : name.map Char.toLower = k.variableName) {before after : List Variable}
    (hothers : ∀ u ∈ before ++ after, ∀ p ∈ path? u.name, Apart k.path p)
    (hload : load { s with environment := before ++ after } custom = .ok c) (v : List Char) :
    textWith s custom k (before ++ ⟨name, v⟩ :: after) = (value v).text?.map String.ofList
      ∧ (textWith s custom k (before ++ ⟨name, v⟩ :: after) = some (String.ofList v) ↔
        whole? v = none ∨ IsLiteral v)
      ∧ textWith s custom k (before ++ ⟨name, quote v⟩ :: after) = some (String.ofList v) := by
  have htext : ∀ x, textWith s custom k (before ++ ⟨name, x⟩ :: after)
      = (value x).text?.map String.ofList := by
    intro x
    have hpath : path? (Variable.mk name x).name = some k.path := k.path?_variableName hname
    obtain ⟨hfits, hconverts⟩ := load_one_more hpath hothers hload
    rw [Knob.accepts_ofDoc hk] at hfits
    rw [textWith]
    cases hresult :
        (load { s with environment := before ++ ⟨name, x⟩ :: after } custom).toOption with
    | some c' => exact Knob.text?_of_converts hk (hconverts c' hresult)
    | none =>
        have hnone : (value x).text? = none := by simpa [hresult] using hfits.symm
        rw [hnone]
        rfl
  refine ⟨htext v, ?_, ?_⟩
  · rw [htext, ← value_eq_ofText_self_iff, Doc.eq_ofText_iff]
    exact (Option.map_injective fun _ _ => String.ofList_injective).eq_iff' rfl
  · rw [htext, value_quote, Doc.text?_ofText, Option.map_some]

end Load

/-- A command line whose gap is set by a variable among others. -/
theorem load_variable_sample :
    let vars (gap : List Char) : List Variable := [⟨"ORDERLY_RUN__SHELL".toList, "bash".toList⟩,
      ⟨"ORDERLY_RUN__PLACEHOLDER".toList, gap⟩, ⟨"ORDERLY_SESSION__TRACE".toList, "yes".toList⟩]
    textWith layeredSample none .placeholder (vars "%s".toList) = some "%s"
      ∧ textWith layeredSample none .placeholder (vars "\x7b\x7d".toList) = none
      ∧ textWith layeredSample none .placeholder (vars (quote "\x7b\x7d".toList))
        = some "\x7b\x7d" := by
  intro vars
  have hname : "ORDERLY_RUN__PLACEHOLDER".toList.map Char.toLower
      = Knob.variableName .placeholder := by decide +kernel
  have hload : load layeredSample none = .ok layeredSettings := by decide +kernel
  have hwith (gap : List Char) := @load_variable layeredSettings .placeholder layeredSample none
    (.inr rfl) _ hname [⟨"ORDERLY_RUN__SHELL".toList, "bash".toList⟩]
    [⟨"ORDERLY_SESSION__TRACE".toList, "yes".toList⟩] (by decide +kernel) hload gap
  obtain ⟨hplain, -, -⟩ := hwith "%s".toList
  obtain ⟨hbraces, -, hquoted⟩ := hwith "\x7b\x7d".toList
  refine ⟨hplain.trans (by decide +kernel), hbraces.trans (by decide +kernel),
    hquoted.trans (by decide +kernel)⟩

/-- The gap that is built in cannot be set by a variable, though it can be by a file. -/
theorem load_refuses_gap :
    let gap : Variable := ⟨"ORDERLY_RUN__PLACEHOLDER".toList, "\x7b\x7d".toList⟩
    textWith {} none .placeholder [] = some "\x7b\x7d"
      ∧ textWith {} none .placeholder [gap] = none
      ∧ textWith (singleFile "[run]\nplaceholder = \"\x7b\x7d\"\n" []) (some "c.toml".toList)
        .placeholder [] = some "\x7b\x7d" := by
  decide +kernel

end OrderedDispatch.Config
