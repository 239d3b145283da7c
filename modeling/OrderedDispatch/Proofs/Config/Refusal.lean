/-
**When settings are refused.**

Settings can be refused for two reasons.  A file that exists may be unreadable; then there are no
settings, whatever the other layers hold.  Or, when all files are readable and lie over one another,
a value that is left may not fit its place.  Values that are hidden under others, files that do not
exist and keys that the program does not know are no reason.

A section need not be a table, though: a list is taken for the values of its settings in order, and
only a plain value in the place of a section is refused.

Main definitions:

* `Config.Tree.isWord`, `Config.Tree.isFlag`, `Config.Tree.isText`, `Config.Knob.accepts` — the values
  that fit a setting;
* `Config.knobsIn`, `Config.fits` — the settings of a section, and the values that fit a section;
* `Config.Setting.Takes` — a setting accepts the values that it should, whatever was read before;
* `Config.Tree.known` — a tree without the keys that the program does not know;
* `Config.Refusals` — what there is to say about refusals.

Main results:

* `Config.Setting.isOk_fromTable`, `Config.Setting.isOk_fromList` — a section is read exactly if its
  values fit, whatever the order in which its settings are looked at;
* `Config.isOk_extract` — **settings come out exactly if every section that is there fits**;
* `Config.extract_known` — unknown keys make no difference;
* `Config.mem_unreadable` — the layers that are unreadable are the files that exist and do not parse;
* `Config.load_refusals` — **settings are refused for these reasons only, and never in spite of
  them**.
-/

import OrderedDispatch.Proofs.Config.Precedence

set_option relaxedAutoImplicit false
set_option autoImplicit false

namespace OrderedDispatch.Config

variable {t v : Tree}

/-! ### The values that fit a setting -/

namespace Tree

/-- A whole number of 64 bits without sign. -/
def isWord : Tree → Bool
  | .leaf _ (.int _ n) => 0 ≤ n && n < (Text.wordSize : Int)
  | _ => false

/-- A truth value, zero or one, or a word for a flag. -/
def isFlag : Tree → Bool
  | .leaf _ (.bool _) => true
  | .leaf _ (.int _ n) => n = 0 || n = 1
  | .leaf _ (.text s) => (Flag.parse s).isSome
  | _ => false

/-- A text. -/
def isText : Tree → Bool
  | .leaf _ (.text _) => true
  | _ => false

end Tree

@[simp] theorem isOk_map {ε α β : Type} (f : α → β) (x : Except ε α) :
    (x.map f).isOk = x.isOk := by
  cases x <;> rfl

theorem isOk_word? (expected : Expected) (t : Tree) : (word? expected t).isOk = t.isWord := by
  cases t with
  | leaf o s =>
      cases s with
      | int signed n =>
          have hlimit : (0 : Int) ≤ (Text.signedLimit : Int) := Int.natCast_nonneg _
          have hinside : isWide n = false ∧ ¬ n < 0 ↔ 0 ≤ n ∧ n < (Text.wordSize : Int) := by
            simp only [isWide, Bool.or_eq_false_iff, decide_eq_false_iff_not]
            omega
          simp only [word?, Tree.isWord, ← Bool.decide_and, ← hinside]
          by_cases hwide : isWide n = true
          · simp [hwide, complain, Except.toBool]
          · by_cases hneg : n < 0 <;> simp [hwide, hneg, complain, Except.toBool]
      | _ => rfl
  | _ => rfl

theorem isOk_flag? (t : Tree) : (flag? t).isOk = t.isFlag := by
  cases t with
  | leaf o s =>
      cases s with
      | int signed n =>
          by_cases h0 : n = 0
          · simp [flag?, flagOf, Found.ofTree, Tree.isFlag, Except.toBool, h0]
          · by_cases h1 : n = 1
            · simp [flag?, flagOf, Found.ofTree, Tree.isFlag, Except.toBool, h1]
            · by_cases hwide : isWide n = true <;>
                simp [flag?, flagOf, Found.ofTree, Tree.isFlag, Except.toBool, complain, h0, h1,
                  hwide]
      | text s =>
          cases h : Flag.parse s <;>
            simp [flag?, flagOf, Found.ofTree, Tree.isFlag, Except.toBool, complain, h]
      | _ => rfl
  | _ => rfl

theorem isOk_text? (t : Tree) : (text? t).isOk = t.isText := by
  cases t with
  | leaf o s => cases s <;> rfl
  | _ => rfl

/-- The values that fit a setting. -/
def Knob.accepts : Knob → Tree → Bool
  | threads | maxThreads | memory => Tree.isWord
  | trace | verbose => Tree.isFlag
  | shell | placeholder => Tree.isText

theorem Knob.isTable_of_accepts {k : Knob} (h : k.accepts v = true) : v.isTable = false := by
  cases v with
  | table o es => cases k <;> cases h
  | _ => rfl

/-! ### The values that fit a section -/

/-- The settings of a section, in the order of a list. -/
def knobsIn (name : Key) : List Knob :=
  [.threads, .maxThreads, .memory, .trace, .verbose, .shell, .placeholder].filter
    fun k => k.sectionName = name

theorem mem_knobsIn {k : Knob} {name : Key} : k ∈ knobsIn name ↔ k.sectionName = name := by
  rw [knobsIn, List.mem_filter, decide_eq_true_eq]
  refine and_iff_right ?_
  cases k <;> decide

/-- The values that fit a section: a table whose values fit the settings that they are for, or a list
whose items fit the settings in order, as far as both go. -/
def fits (name : Key) : Tree → Bool
  | .table _ entries => (knobsIn name).all fun k => (Entries.get? k.key entries).all k.accepts
  | .list _ items => ((knobsIn name).zip items).all fun p => p.1.accepts p.2
  | .leaf _ _ => false

/-! ### Reading a section -/

namespace Setting

variable {α ι : Type} {key : ι → Key} {accepts : ι → Tree → Bool} {ss : List (Setting α)}
  {is : List ι}

/-- A setting has the key and accepts the values that it should, whatever was read before. -/
def Takes (s : Setting α) (key : Key) (accepts : Tree → Bool) : Prop :=
  s.key = key ∧ ∀ u x, (s.set u x).isOk = accepts u

/-- A section is read from a table exactly if the values that are there fit. -/
theorem isOk_fromTable (h : List.Forall₂ (fun s i => Takes s (key i) (accepts i)) ss is)
    (entries : List (Key × Tree)) (a : α) : (fromTable entries ss a).isOk
      = is.all fun i => (Entries.get? (key i) entries).all (accepts i) := by
  induction h generalizing a with
  | nil => rfl
  | @cons s i ss is hs _ ih =>
      obtain ⟨hkey, hset⟩ := hs
      rw [fromTable, hkey, List.all_cons]
      cases Entries.get? (key i) entries with
      | none => simpa using ih a
      | some u =>
          rw [Option.all_some, ← hset u a]
          dsimp only
          cases s.set u a with
          | error c => rfl
          | ok x => simpa [Except.toBool] using ih x

/-- A section is read from a list exactly if the items fit, as far as there are settings. -/
theorem isOk_fromList (h : List.Forall₂ (fun s i => Takes s (key i) (accepts i)) ss is)
    (position : Nat) (items : List Tree) (a : α) : (fromList position ss items a).isOk
      = (is.zip items).all fun p => accepts p.1 p.2 := by
  induction h generalizing position items a with
  | nil => rfl
  | @cons s i ss is hs _ ih =>
      cases items with
      | nil => rfl
      | cons u items =>
          rw [fromList, List.zip_cons_cons, List.all_cons, ← hs.2 u a]
          cases s.set u a with
          | error c => rfl
          | ok x => simpa [Except.toBool] using ih (position + 1) items x

end Setting

/-- A setting takes the values that fit one of the seven. -/
abbrev Setting.TakesKnob {α : Type} (s : Setting α) (k : Knob) : Prop := s.Takes k.key k.accepts

/-- A section is read exactly from the values that fit it. -/
theorem Section.isOk_read {α : Type} {c : Section α} {name : Key} {byName : List Knob}
    (hlist : List.Forall₂ Setting.TakesKnob c.inOrder (knobsIn name))
    (htable : List.Forall₂ Setting.TakesKnob c.byName byName) (hperm : byName.Perm (knobsIn name))
    (default : α) (t : Tree) : (c.read default t).isOk = fits name t := by
  cases t with
  | table o es =>
      rw [read, fits, Setting.isOk_fromTable htable, hperm.all_eq]
  | list o items => exact Setting.isOk_fromList hlist 0 items default
  | leaf o s => rfl

theorem takes_threads : threadsSetting.TakesKnob .threads :=
  ⟨rfl, fun u _ => (isOk_map _ _).trans (isOk_word? .count u)⟩

theorem takes_maxThreads : maxThreadsSetting.TakesKnob .maxThreads :=
  ⟨rfl, fun u _ => (isOk_map _ _).trans (isOk_word? .count u)⟩

theorem takes_memory : memorySetting.TakesKnob .memory :=
  ⟨rfl, fun u _ => (isOk_map _ _).trans (isOk_word? .amount u)⟩

theorem takes_trace : traceSetting.TakesKnob .trace :=
  ⟨rfl, fun u _ => (isOk_map _ _).trans (isOk_flag? u)⟩

theorem takes_verbose : verboseSetting.TakesKnob .verbose :=
  ⟨rfl, fun u _ => (isOk_map _ _).trans (isOk_flag? u)⟩

theorem takes_shell : shellSetting.TakesKnob .shell :=
  ⟨rfl, fun u _ => (isOk_map _ _).trans (isOk_text? u)⟩

theorem takes_placeholder : placeholderSetting.TakesKnob .placeholder :=
  ⟨rfl, fun u _ => (isOk_map _ _).trans (isOk_text? u)⟩

theorem takes_parallel : parallelPart.Takes "parallel".toList (fits "parallel".toList) := by
  refine ⟨rfl, fun u _ => (isOk_map _ _).trans ?_⟩
  exact Section.isOk_read
    (.cons takes_threads (.cons takes_maxThreads (.cons takes_memory .nil)))
    (.cons takes_maxThreads (.cons takes_memory (.cons takes_threads .nil))) (by decide) _ u

theorem takes_session : sessionPart.Takes "session".toList (fits "session".toList) := by
  refine ⟨rfl, fun u _ => (isOk_map _ _).trans ?_⟩
  exact Section.isOk_read
    (.cons takes_trace (.cons takes_verbose .nil))
    (.cons takes_trace (.cons takes_verbose .nil)) (by decide) _ u

theorem takes_run : runPart.Takes "run".toList (fits "run".toList) := by
  refine ⟨rfl, fun u _ => (isOk_map _ _).trans ?_⟩
  exact Section.isOk_read
    (.cons takes_shell (.cons takes_placeholder .nil))
    (.cons takes_placeholder (.cons takes_shell .nil)) (by decide) _ u

/-- A path leads on from what its first key leads to. -/
theorem find?_cons (name : Key) (path : List Key) (t : Tree) :
    t.find? (name :: path) = (Entries.get? name t.entries).bind (Tree.find? path) := by
  cases t <;> rfl

theorem find?_name (name : Key) (t : Tree) : t.find? [name] = Entries.get? name t.entries := by
  rw [find?_cons]
  cases Entries.get? name t.entries <;> rfl

/-- **Settings come out exactly if every section that is there fits.** -/
theorem isOk_extract (t : Tree) :
    (extract t).isOk = sectionNames.all fun n => (t.find? [n]).all (fits n) := by
  simp only [find?_name]
  have hperm : ["parallel".toList, "run".toList, "session".toList].Perm sectionNames := by decide
  rw [← hperm.all_eq]
  exact @Setting.isOk_fromTable _ _ id fits _ _
    (.cons takes_parallel (.cons takes_run (.cons takes_session .nil))) t.entries {}

/-! ### Unknown keys -/

namespace Entries

/-- Entries of other keys make no difference to a key. -/
theorem get?_filter {α : Type} {key : Key} {p : Key → Bool} (h : p key = true)
    (entries : List (Key × α)) : get? key (entries.filter fun e => p e.1) = get? key entries := by
  induction entries with
  | nil => rfl
  | cons e rest ih =>
      by_cases hk : e.1 = key
      · simp [get?, hk, h]
      · by_cases hp : p e.1 = true <;> simp [get?, hk, hp, ih]

theorem get?_map {α β : Type} (f : Key → α → β) (key : Key) (entries : List (Key × α)) :
    get? key (entries.map fun e => (e.1, f e.1 e.2)) = (get? key entries).map (f key) := by
  induction entries with
  | nil => rfl
  | cons e rest ih =>
      by_cases hk : e.1 = key
      · simp [get?, ← hk]
      · simp [get?, hk, ih]

end Entries

namespace Tree

/-- A section without the keys that are none of its settings. -/
def knownIn (name : Key) : Tree → Tree
  | .table o entries => .table o (entries.filter fun e => e.1 ∈ (knobsIn name).map Knob.key)
  | t => t

/-- A tree without the keys that the program does not know. -/
def known : Tree → Tree
  | .table o entries => .table o ((entries.filter fun e => e.1 ∈ sectionNames).map
      fun e => (e.1, knownIn e.1 e.2))
  | t => t

end Tree

namespace Setting

variable {α : Type}

/-- Settings are read alike from entries whose values are read alike. -/
theorem fromTable_congr {entries entries' : List (Key × Tree)} {ss : List (Setting α)}
    (f : Key → Tree → Tree)
    (hget : ∀ s ∈ ss, Entries.get? s.key entries' = (Entries.get? s.key entries).map (f s.key))
    (hset : ∀ s ∈ ss, ∀ u x, s.set (f s.key u) x = s.set u x) (a : α) :
    fromTable entries' ss a = fromTable entries ss a := by
  induction ss generalizing a with
  | nil => rfl
  | cons s ss ih =>
      obtain ⟨hs, hgets⟩ := List.forall_mem_cons.1 hget
      obtain ⟨hs', hsets⟩ := List.forall_mem_cons.1 hset
      rw [fromTable, fromTable, hs]
      cases Entries.get? s.key entries with
      | none => exact ih hgets hsets a
      | some u =>
          rw [Option.map_some]
          dsimp only
          rw [hs']
          cases s.set u a with
          | error c => rfl
          | ok x => exact ih hgets hsets x

end Setting

/-- A section is read alike without keys that are none of its settings. -/
theorem Section.read_knownIn {α : Type} {c : Section α} {name : Key}
    (hkeys : ∀ s ∈ c.byName, s.key ∈ (knobsIn name).map Knob.key) (default : α) (t : Tree) :
    c.read default (t.knownIn name) = c.read default t := by
  cases t with
  | table o es =>
      refine Setting.fromTable_congr (fun _ u => u) (fun s hs => ?_) (fun _ _ _ _ => rfl) default
      rw [Option.map_id']
      exact Entries.get?_filter (p := fun key => key ∈ (knobsIn name).map Knob.key)
        (decide_eq_true (hkeys s hs)) es
  | list o items => rfl
  | leaf o s => rfl

/-- Unknown keys make no difference. -/
theorem extract_known (t : Tree) : extract t.known = extract t := by
  have hparallel : ∀ u, parallelSection.read {} (u.knownIn "parallel".toList)
      = parallelSection.read {} u := Section.read_knownIn (by decide) _
  have hrun : ∀ u, runSection.read ("sh", "\x7b\x7d") (u.knownIn "run".toList)
      = runSection.read ("sh", "\x7b\x7d") u := Section.read_knownIn (by decide) _
  have hsession : ∀ u, sessionSection.read {} (u.knownIn "session".toList)
      = sessionSection.read {} u := Section.read_knownIn (by decide) _
  cases t with
  | table o es =>
      refine Setting.fromTable_congr Tree.knownIn (fun s hs => ?_) (fun s hs u x => ?_) _
      · have hname : decide (s.key ∈ sectionNames) = true := by
          revert s
          decide
        rw [Tree.known, Tree.entries, Tree.entries, Entries.get?_map Tree.knownIn,
          Entries.get?_filter (p := fun key => key ∈ sectionNames) hname]
      · -- each section has its own keys
        simp only [List.mem_cons, List.not_mem_nil, or_false] at hs
        rcases hs with rfl | rfl | rfl
        · exact congrArg (Except.map _) (hparallel u)
        · exact congrArg (Except.map _) (hrun u)
        · exact congrArg (Except.map _) (hsession u)
  | list o items => rfl
  | leaf o s => rfl

/-! ### Unreadable files -/

theorem isSome_highest? {ls : List Layer} {path : List Key} {l : Layer} (hl : l ∈ ls)
    (h : (l.content.bind (Tree.find? path)).isSome) : (highest? path ls).isSome := by
  rw [highest?, List.findSome?_isSome_iff]
  exact ⟨l, List.mem_reverse.2 hl, h⟩

section Load

variable {s : Surroundings} {custom : Option (List Char)}

/-- A file is there and spells no table in its notation. -/
def IsBroken (s : Surroundings) (f : Location × Notation) (h : FileTree.Hit) : Prop :=
  s.files.search? s.here f.1 = some h ∧ parseBytes? f.2 h.bytes = none

/-- The layers that are unreadable are the files that are there and do not parse. -/
theorem mem_unreadable {o : Origin} : o ∈ unreadable (precedence s custom) ↔
    ∃ f ∈ settingsFiles s custom, ∃ h, IsBroken s f h ∧ .file h.name f.2 = o := by
  have hbuiltIn : (Layer.ofDoc .builtIn (toDoc {})).content.isNone = false := rfl
  have henvironment : (environmentLayer s.environment).content.isNone = false := rfl
  simp only [unreadable, precedence, List.mem_map, List.mem_reverse, List.mem_filter,
    List.cons_append, List.mem_cons, List.mem_append, List.mem_filterMap, Option.map_eq_some_iff,
    List.not_mem_nil, or_false]
  constructor
  · rintro ⟨l, ⟨rfl | ⟨f, hf, h, hfound, rfl⟩ | rfl, hnone⟩, rfl⟩
    · rw [hbuiltIn] at hnone
      cases hnone
    · refine ⟨f, hf, h, ⟨hfound, ?_⟩, rfl⟩
      simpa [layerOf] using hnone
    · rw [henvironment] at hnone
      cases hnone
  · rintro ⟨f, hf, h, ⟨hfound, hparse⟩, rfl⟩
    refine ⟨layerOf f.2 h, ⟨.inr (.inl ⟨f, hf, h, hfound, rfl⟩), ?_⟩, rfl⟩
    simp [layerOf, hparse]

theorem layers_of_isFile (hfile : ∀ path ∈ custom, s.files.isFile s.here (.ofText path) = true) :
    layers s custom = .ok (precedence s custom) := by
  have hok : ∃ ls, layers s custom = .ok ls := by
    cases custom with
    | none => exact ⟨_, rfl⟩
    | some path => exact ⟨_, if_pos (hfile path rfl)⟩
  obtain ⟨ls, hls⟩ := hok
  rw [hls, layers_eq hls]

/-- An unreadable layer is all that there is to say. -/
theorem load_of_unreadable
    (hfile : ∀ path ∈ custom, s.files.isFile s.here (.ofText path) = true)
    (hbroken : unreadable (precedence s custom) ≠ []) :
    load s custom = .error (.unreadable (unreadable (precedence s custom))) := by
  have hmerged : merged (precedence s custom) = .error (unreadable (precedence s custom)) :=
    if_neg (by simpa using hbroken)
  rw [load, layers_of_isFile hfile]
  dsimp only
  rw [hmerged]

/-- Where all layers are readable, settings come out of them if they can be extracted. -/
theorem isOk_load (hfile : ∀ path ∈ custom, s.files.isFile s.here (.ofText path) = true)
    (hsound : unreadable (precedence s custom) = []) :
    (load s custom).isOk = (extract (stacked (precedence s custom))).isOk := by
  have hmerged : merged (precedence s custom) = .ok (stacked (precedence s custom)) :=
    if_pos (by simp [hsound])
  rw [load, layers_of_isFile hfile]
  dsimp only
  rw [hmerged]
  dsimp only
  cases extract (stacked (precedence s custom)) <;> rfl

/-! ### Refusals -/

theorem isOk_eq_false_iff {ε α : Type} {x : Except ε α} : x.isOk = false ↔ ∃ e, x = .error e := by
  cases x <;> simp [Except.toBool]

/-- Settings are refused exactly if a section that is there does not fit. -/
theorem exists_misfit_iff (t : Tree) : (extract t).isOk = false ↔
    ∃ n ∈ sectionNames, ∃ v, t.find? [n] = some v ∧ fits n v = false := by
  rw [isOk_extract, List.all_eq_false]
  refine exists_congr fun n => and_congr_right fun _ => ?_
  cases t.find? [n] <;> simp

/-- Where the sections are tables, what does not fit is the value of a single setting. -/
theorem exists_misfit_iff_exists_knob (h : ∀ n ∈ sectionNames, ∀ v, t.find? [n] = some v →
      v.isTable = true) :
    (∃ n ∈ sectionNames, ∃ v, t.find? [n] = some v ∧ fits n v = false) ↔
      ∃ k : Knob, ∃ v, t.find? k.path = some v ∧ k.accepts v = false := by
  constructor
  · rintro ⟨n, hn, v, hv, hfits⟩
    cases v with
    | table o es =>
        obtain ⟨k, hk, hvalue⟩ := List.all_eq_false.1 hfits
        obtain ⟨u, hu, hmisfit⟩ : ∃ u, Entries.get? k.key es = some u ∧ k.accepts u = false := by
          cases hu : Entries.get? k.key es with
          | none => simp [hu] at hvalue
          | some u => exact ⟨u, rfl, by simpa [hu] using hvalue⟩
        refine ⟨k, u, ?_, hmisfit⟩
        rw [find?_name] at hv
        rw [Knob.path, find?_cons, mem_knobsIn.1 hk, hv, Option.bind_some, find?_name]
        exact hu
    | _ => exact absurd (h n hn _ hv) (by simp [Tree.isTable])
  · rintro ⟨k, v, hv, hmisfit⟩
    obtain ⟨o, es, hsection, hkey⟩ := Knob.exists_of_find? hv
    refine ⟨k.sectionName, k.sectionName_mem, .table o es, by rw [find?_name, hsection], ?_⟩
    exact List.all_eq_false.2 ⟨k, mem_knobsIn.2 rfl, by simp [hkey, hmisfit]⟩

/-- **What there is to say about refusals**, once the file that was asked for is there. -/
structure Refusals (s : Surroundings) (custom : Option (List Char)) : Prop where
  /-- a file that is there and does not parse is reported, whatever the other layers hold -/
  broken : ∀ f ∈ settingsFiles s custom, ∀ h, IsBroken s f h →
    ∃ origins, load s custom = .error (.unreadable origins) ∧ .file h.name f.2 ∈ origins
  /-- otherwise settings are refused exactly if a section of all layers together does not fit -/
  misfit : (∀ f ∈ settingsFiles s custom, ∀ h, ¬ IsBroken s f h) →
    ((∃ e, load s custom = .error e) ↔ ∃ n ∈ sectionNames, ∃ v,
      (stacked (precedence s custom)).find? [n] = some v ∧ fits n v = false)
  /-- where all sections are tables, only the value in the highest layer counts -/
  hidden : (∀ f ∈ settingsFiles s custom, ∀ h, ¬ IsBroken s f h) →
    (∀ l ∈ precedence s custom, ∀ t ∈ l.content, t.isSectioned = true) →
      ((∃ e, load s custom = .error e) ↔ ∃ k : Knob, ∃ v,
        highest? k.path (precedence s custom) = some v ∧ k.accepts v = false)
  /-- keys that the program does not know make no difference -/
  unknown : extract (stacked (precedence s custom)).known
    = extract (stacked (precedence s custom))

/-- All layers together are open along the way to a setting if every one of them is. -/
theorem isOpenAt_of_isSectioned
    (hsections : ∀ l ∈ precedence s custom, ∀ t ∈ l.content, t.isSectioned = true) (k : Knob) :
    ∀ u ∈ (precedence s custom).filterMap Layer.content, Tree.isOpenAt k.path u = true := by
  intro u hu
  obtain ⟨l, hl, hcontent⟩ := List.mem_filterMap.1 hu
  exact Tree.isOpenAt_of_isSectioned (hsections l hl u hcontent) k.sectionName_mem

/-- Where all sections are tables, a setting fits in all layers together exactly if it fits in the
highest layer that has it. -/
theorem exists_misfit_iff_highest?
    (hsections : ∀ l ∈ precedence s custom, ∀ t ∈ l.content, t.isSectioned = true) (k : Knob) :
    (∃ v, (stacked (precedence s custom)).find? k.path = some v ∧ k.accepts v = false) ↔
      ∃ v, highest? k.path (precedence s custom) = some v ∧ k.accepts v = false := by
  have hopen := isOpenAt_of_isSectioned hsections k
  have hfind : ∀ v, k.accepts v = true →
      ((stacked (precedence s custom)).find? k.path = some v ↔
        highest? k.path (precedence s custom) = some v) := fun v hv =>
    find?_stacked hopen (Knob.isTable_of_accepts hv)
  have hbuiltIn : Layer.ofDoc .builtIn (toDoc {}) ∈ precedence s custom := List.mem_cons_self
  -- both have some value, and if one of them fits it is the other
  have hfound : ((stacked (precedence s custom)).find? k.path).isSome :=
    Tree.isSome_find?_foldl_merge rfl hopen
      (List.mem_cons_of_mem _ (List.mem_filterMap.2 ⟨_, hbuiltIn, rfl⟩)) k.isSome_find?_builtIn
  obtain ⟨u, hu⟩ := Option.isSome_iff_exists.1 hfound
  have hhighest : (highest? k.path (precedence s custom)).isSome :=
    isSome_highest? hbuiltIn k.isSome_find?_builtIn
  obtain ⟨v, hv⟩ := Option.isSome_iff_exists.1 hhighest
  have hsame : k.accepts u = k.accepts v := by
    cases hfits : k.accepts u with
    | true =>
        obtain rfl := Option.some.inj (hv.symm.trans ((hfind u hfits).1 hu))
        exact hfits.symm
    | false =>
        refine (Bool.eq_false_iff.2 fun hfits' => ?_).symm
        obtain rfl := Option.some.inj (hu.symm.trans ((hfind v hfits').2 hv))
        rw [hfits] at hfits'
        cases hfits'
  rw [hu, hv]
  simp [hsame]

/-- **Settings are refused for these reasons only, and never in spite of them.** -/
theorem load_refusals (hfile : ∀ path ∈ custom, s.files.isFile s.here (.ofText path) = true) :
    Refusals s custom := by
  have hreadable : (∀ f ∈ settingsFiles s custom, ∀ h, ¬ IsBroken s f h) →
      unreadable (precedence s custom) = [] := by
    refine fun hsound => List.eq_nil_iff_forall_not_mem.2 fun o ho => ?_
    obtain ⟨f, hf, h, hbroken, -⟩ := mem_unreadable.1 ho
    exact hsound f hf h hbroken
  have hmisfit : (∀ f ∈ settingsFiles s custom, ∀ h, ¬ IsBroken s f h) →
      ((∃ e, load s custom = .error e) ↔ ∃ n ∈ sectionNames, ∃ v,
        (stacked (precedence s custom)).find? [n] = some v ∧ fits n v = false) := by
    intro hsound
    rw [← isOk_eq_false_iff, isOk_load hfile (hreadable hsound), exists_misfit_iff]
  refine ⟨fun f hf h hbroken => ?_, hmisfit, fun hsound hsections => ?_, extract_known _⟩
  · have ho := mem_unreadable.2 ⟨f, hf, h, hbroken, rfl⟩
    exact ⟨_, load_of_unreadable hfile (List.ne_nil_of_mem ho), ho⟩
  · rw [hmisfit hsound, exists_misfit_iff_exists_knob]
    · exact exists_congr fun k => exists_misfit_iff_highest? hsections k
    · intro n hn v hv
      have hopen : Tree.isOpenAt [n, []] (stacked (precedence s custom)) = true := by
        refine Tree.isOpenAt_foldl_merge rfl fun u hu => ?_
        obtain ⟨l, hl, hcontent⟩ := List.mem_filterMap.1 hu
        exact Tree.isOpenAt_of_isSectioned (hsections l hl u hcontent) hn
      obtain ⟨o, es, hstack, hes⟩ := Tree.isOpenAt_cons hopen
      rw [hstack, find?_name] at hv
      obtain ⟨o', es', rfl, -⟩ := Tree.isOpenAt_cons (hes v hv)
      rfl

end Load

/-- A file of settings that is asked for, and some variables. -/
def singleFile (text : String) (environment : List Environment.Variable) : Surroundings where
  files := { files := [(["c.toml".toList], Text.encode text.toList)] }
  environment := environment

/-- A variable hides a number of threads that does not fit, but not that the file is unreadable. -/
theorem load_refusals_sample :
    let threads : Environment.Variable := ⟨"ORDERLY_PARALLEL__THREADS".toList, "3".toList⟩
    let hidden := singleFile "colour = 1\n[parallel]\nthreads = \"many\"\n" [threads]
    let broken := singleFile "[parallel" [threads]
    (∃ c, load hidden (some "c.toml".toList) = .ok c)
      ∧ ∃ origins, load broken (some "c.toml".toList) = .error (.unreadable origins) := by
  intro threads hidden broken
  refine ⟨?_, ?_⟩
  · have hall : Refusals hidden (some "c.toml".toList) := load_refusals (by decide +kernel)
    have hsound : ∀ f ∈ settingsFiles hidden (some "c.toml".toList), ∀ h,
        ¬ IsBroken hidden f h := by
      have hparses : ((hidden.files.search? hidden.here (.ofText "c.toml".toList)).all
          fun h => (parseBytes? (notationOf (lastName "c.toml".toList)) h.bytes).isSome) = true := by
        decide +kernel
      rintro f hf h ⟨hfound, hnone⟩
      obtain rfl := List.mem_singleton.1 hf
      rw [hfound, Option.all_some, hnone] at hparses
      cases hparses
    have hfits : ∀ k : Knob, ((highest? k.path (precedence hidden (some "c.toml".toList))).all
        k.accepts) = true := by
      intro k
      cases k <;> decide +kernel
    cases hload : load hidden (some "c.toml".toList) with
    | ok c => exact ⟨c, rfl⟩
    | error e =>
        obtain ⟨k, v, hv, hmisfit⟩ := (hall.hidden hsound (by decide +kernel)).1 ⟨e, hload⟩
        have := hfits k
        rw [hv, Option.all_some, hmisfit] at this
        cases this
  · have hall : Refusals broken (some "c.toml".toList) := load_refusals (by decide +kernel)
    have hbroken : ((broken.files.search? broken.here (.ofText "c.toml".toList)).any
        fun h => (parseBytes? (notationOf (lastName "c.toml".toList)) h.bytes).isNone) = true := by
      decide +kernel
    obtain ⟨h, hfound, hnone⟩ := (Option.any_eq_true _ _).1 hbroken
    obtain ⟨origins, hload, -⟩ := hall.broken _ (List.mem_singleton.2 rfl) h
      ⟨hfound, by simpa using hnone⟩
    exact ⟨origins, hload⟩

/-- A section that is a list and no table is not refused: its first item is the number of
threads. -/
theorem load_section_of_list :
    let listed := singleFile "parallel = [1]\n" []
    ((stacked (precedence listed (some "c.toml".toList))).find? ["parallel".toList]).map
        Tree.isTable = some false
      ∧ load listed (some "c.toml".toList) = .ok { parallel := { requested := 1 } } := by
  decide +kernel

end OrderedDispatch.Config
