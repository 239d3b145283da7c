/-
**Shown settings can be loaded.**

What the program shows of its settings is itself a file of settings.  Asked for as the only file, in
surroundings whose variables make no setting, it hides all built-in settings and gives back exactly
those that were shown, whatever their texts contain.  Numbers have to fit what the format can hold:
JSON takes every word, TOML only signed ones.

Main definitions:

* `Config.Format.limit`, `Config.Format.extension` — one more than the greatest number that a format
  takes, and how its files are called.

Main results:

* `Config.head?_layers` — the lowest layer is the built-in file;
* `Config.extract_shownDoc` — the settings are extracted from the shown document;
* `Config.load_render` — **shown settings are loaded as they were**.
-/

import OrderedDispatch.Proofs.Config.Refusal
import OrderedDispatch.Proofs.Config.Shown.Json
import OrderedDispatch.Proofs.Config.Shown.Toml
import OrderedDispatch.Proofs.Text.Utf8

set_option relaxedAutoImplicit false
set_option autoImplicit false

namespace OrderedDispatch.Config

open Render

/-! ### The built-in layer -/

/-- **The lowest layer is the built-in file**, as a reader of TOML takes it. -/
theorem head?_layers {s : Surroundings} {custom : Option (List Char)} {ls : List Layer}
    (h : layers s custom = .ok ls) :
    ls.head? = some ⟨.builtIn, (parse? .toml defaultText).map (.ofDoc .builtIn)⟩ := by
  have hread : parse? .toml defaultText = some (toDoc {}) := by
    rw [parse?, Toml.read?_defaultText]
    rfl
  rw [hread]
  cases custom with
  | none => cases h; rfl
  | some path =>
      simp only [layers] at h
      split at h
      · cases h; rfl
      · cases h

/-! ### Extraction -/

/-- A whole number below the size of a word is converted, signed or not. -/
theorem word?_of_lt {n : Nat} (h : n < Text.wordSize) (expected : Expected) (o : Origin)
    (signed : Bool) : word? expected (.leaf o (.int signed n)) = .ok n := by
  have hwide : isWide (n : Int) = false := by
    simp only [isWide, Bool.or_eq_false_iff, decide_eq_false_iff_not]
    have hsigned : (0 : Int) ≤ Text.signedLimit := by decide
    omega
  have hnatural : ¬ (n : Int) < 0 := by omega
  simp [word?, hwide, hnatural]

theorem Setting.fromTable_cons_of_get? {α : Type} {entries : List (Key × Tree)} {s : Setting α}
    {v : Tree} {a b : α} (hget : Entries.get? s.key entries = some v) (hset : s.set v a = .ok b)
    (rest : List (Setting α)) : fromTable entries (s :: rest) a = fromTable entries rest b := by
  rw [fromTable, hget]
  simp only [hset]

variable {c : Config}

/-- Shown settings hide all built-in ones. -/
theorem stacked_shownDoc (signed : Bool) (c : Config) (o : Origin) :
    stacked [.ofDoc .builtIn (toDoc {}), .ofDoc o (shownDoc signed c),
        ⟨.environment, some (.table .environment [])⟩]
      = .table .environment (Tree.ofDoc o (shownDoc signed c)).entries := by
  rw [shownDoc_eq]
  rfl

/-- The section for threads is read from its entries in the order of their names. -/
theorem parallelSection_read {p : Sizing.Policy} (signed : Bool) (o : Origin)
    (hthreads : p.requested < Text.wordSize) (hmax : p.maxThreads < Text.wordSize)
    (hmemory : p.memoryPerThread < Text.wordSize) :
    parallelSection.read {} (.table o [
      ("max_threads".toList, .leaf o (.int signed p.maxThreads)),
      ("memory_per_thread_mb".toList, .leaf o (.int signed p.memoryPerThread)),
      ("threads".toList, .leaf o (.int signed p.requested))]) = .ok p := by
  have hset {n : Nat} (hn : n < Text.wordSize) (expected : Expected) (f : Nat → Sizing.Policy) :
      (word? expected (.leaf o (.int signed n))).map f = .ok (f n) := by
    rw [word?_of_lt hn]
    rfl
  rw [Section.read, parallelSection]
  simp only
  rw [Setting.fromTable_cons_of_get? rfl (hset hmax .count _),
    Setting.fromTable_cons_of_get? rfl (hset hmemory .amount _),
    Setting.fromTable_cons_of_get? rfl (hset hthreads .count _)]
  rfl

theorem runSection_read (shell placeholder : String) (o : Origin) :
    runSection.read ("sh", "\x7b\x7d") (.table o [
      ("placeholder".toList, .leaf o (.text placeholder.toList)),
      ("shell".toList, .leaf o (.text shell.toList))]) = .ok (shell, placeholder) := by
  have hset (text : String) (f : String → String × String) :
      (text? (.leaf o (.text text.toList))).map f = .ok (f text) := by
    rw [text?, String.ofList_toList]
    rfl
  rw [Section.read, runSection]
  simp only
  rw [Setting.fromTable_cons_of_get? rfl (hset placeholder fun text => ("sh", text)),
    Setting.fromTable_cons_of_get? rfl (hset shell fun text => (text, placeholder))]
  rfl

theorem sessionSection_read (s : Settings) (o : Origin) :
    sessionSection.read {} (.table o [
      ("trace".toList, .leaf o (.bool s.trace)),
      ("verbose".toList, .leaf o (.bool s.verbose))]) = .ok s := rfl

/-- The settings are extracted from the shown document. -/
theorem extract_shownDoc (signed : Bool) (o o' : Origin)
    (hthreads : c.parallel.requested < Text.wordSize) (hmax : c.parallel.maxThreads < Text.wordSize)
    (hmemory : c.parallel.memoryPerThread < Text.wordSize) :
    extract (.table o' (Tree.ofDoc o (shownDoc signed c)).entries) = .ok c := by
  have hparallel := parallelSection_read signed o hthreads hmax hmemory
  have hset {α : Type} {x : Except Complaint α} {a : α} (hx : x = .ok a) (f : α → Config) :
      x.map f = .ok (f a) := by
    rw [hx]
    rfl
  rw [shownDoc_eq, extract,
    Setting.fromTable_cons_of_get? rfl (hset hparallel fun p => { parallel := p }),
    Setting.fromTable_cons_of_get? rfl (hset (runSection_read c.shell c.placeholder o) fun r =>
      { parallel := c.parallel, shell := r.1, placeholder := r.2 }),
    Setting.fromTable_cons_of_get? rfl (hset (sessionSection_read c.session o) fun s =>
      { c with session := s })]
  rfl

/-! ### Files -/

/-- A file that can be read where it is asked for is found there. -/
theorem exists_search?_of_read {files : FileTree} {here : FilePath} {l : Location}
    {bytes : List UInt8} (h : files.read here l = .ok bytes) :
    ∃ hit, files.search? here l = some hit ∧ hit.bytes = bytes := by
  have hroot {steps : List Name} (h : files.content [] steps = .ok bytes) :
      ∃ hit, files.hitFromRoot? here steps = some hit ∧ hit.bytes = bytes := by
    rw [FileTree.hitFromRoot?, h]
    exact ⟨_, rfl, rfl⟩
  cases l with
  | relative steps =>
      rw [FileTree.read] at h
      split at h
      · cases h
      · rw [FileTree.search?]
        unfold FileTree.searchUp?
        rw [h]
        exact ⟨_, rfl, rfl⟩
  | fromRoot steps => exact hroot h
  | absolute steps =>
      rw [FileTree.read] at h
      split at h
      · rename_i hwhole
        rw [FileTree.search?, if_pos hwhole]
        exact hroot h
      · cases h

/-- One more than the greatest number that a format takes. -/
def Format.limit : Format → Nat
  | .toml => Text.signedLimit
  | .json => Text.wordSize

/-- How the names of a format's files end. -/
def Format.extension : Format → List Char
  | .toml => "toml".toList
  | .json => "json".toList

/-- The notation that a format is written in. -/
def Format.spelling : Format → Notation
  | .toml => .toml
  | .json => .json

/-- Whether a format counts whole numbers as signed. -/
def Format.isSigned : Format → Bool
  | .toml => true
  | .json => false

variable {f : Format}

theorem notationOf_extension {name : Name} (h : extension? name = some f.extension) :
    notationOf name = f.spelling := by
  rw [notationOf, h]
  cases f <;> rfl

/-- What is shown in a format is read in it. -/
theorem parse?_render (hthreads : c.parallel.requested < f.limit)
    (hmax : c.parallel.maxThreads < f.limit) (hmemory : c.parallel.memoryPerThread < f.limit) :
    parse? f.spelling (render c f) = some (shownDoc f.isSigned c) := by
  have hfits : ∀ es ∈ shown c, ∀ e ∈ es.2, e.2.Fits f.limit := by
    have hnil {α : Type} (p : α → Prop) := List.forall_mem_nil p
    simp only [shown, List.forall_mem_cons]
    exact ⟨⟨hthreads, hmax, hmemory, hnil _⟩, ⟨trivial, trivial, hnil _⟩,
      ⟨trivial, trivial, hnil _⟩, hnil _⟩
  cases f with
  | toml =>
      rw [Format.spelling, parse?, Toml.read?_render hfits]
      rfl
  | json =>
      rw [Format.spelling, parse?, Json.read?_render hfits]
      rfl

/-- Variables that make no setting make an empty layer. -/
theorem environmentLayer_of_silent {vars : List Environment.Variable}
    (h : ∀ v ∈ vars, Environment.path? v.name = none) :
    environmentLayer vars = ⟨.environment, some (.table .environment [])⟩ := by
  have hnone : vars.filterMap Environment.setting? = [] := by
    refine List.filterMap_eq_nil_iff.2 fun v hv => ?_
    rw [Environment.setting?, h v hv]
    rfl
  rw [environmentLayer, hnone]
  rfl

/-- **Shown settings are loaded as they were.** -/
theorem load_render {s : Surroundings} {path : List Char}
    (hthreads : c.parallel.requested < f.limit) (hmax : c.parallel.maxThreads < f.limit)
    (hmemory : c.parallel.memoryPerThread < f.limit)
    (hname : extension? (lastName path) = some f.extension)
    (hfile : s.files.read s.here (.ofText path) = .ok (Text.encode (render c f)))
    (hsilent : ∀ v ∈ s.environment, Environment.path? v.name = none) :
    load s (some path) = .ok c := by
  have hisFile : ∀ p ∈ some path, s.files.isFile s.here (.ofText p) = true := by
    rintro p ⟨⟩
    rw [FileTree.isFile, hfile]
    rfl
  obtain ⟨hit, hfound, hbytes⟩ := exists_search?_of_read hfile
  have hlayer : layerOf f.spelling hit
      = .ofDoc (.file hit.name f.spelling) (shownDoc f.isSigned c) := by
    rw [layerOf, hbytes, parseBytes?, Text.decode_encode, Option.bind_some,
      parse?_render hthreads hmax hmemory]
    rfl
  have hlayers : precedence s (some path) = [.ofDoc .builtIn (toDoc {}),
      .ofDoc (.file hit.name f.spelling) (shownDoc f.isSigned c),
      ⟨.environment, some (.table .environment [])⟩] := by
    rw [precedence, settingsFiles, environmentLayer_of_silent hsilent, notationOf_extension hname]
    simp [hfound, hlayer]
  have hlimit : f.limit ≤ Text.wordSize := by
    cases f <;> decide
  have hextract := extract_shownDoc f.isSigned (.file hit.name f.spelling) .environment
    (Nat.lt_of_lt_of_le hthreads hlimit) (Nat.lt_of_lt_of_le hmax hlimit)
    (Nat.lt_of_lt_of_le hmemory hlimit)
  rw [← stacked_shownDoc] at hextract
  have hmerged : merged (precedence s (some path)) = .ok (stacked (precedence s (some path))) := by
    rw [hlayers]
    rfl
  rw [load, layers_of_isFile hisFile]
  simp only
  rw [hmerged, hlayers]
  simp only [hextract]

/-- Quotes of both kinds, a backslash, control characters and line breaks, and no text at all. -/
def trickySettings : Config where
  parallel := { requested := 9223372036854775807, maxThreads := 0, memoryPerThread := 1 }
  session := { trace := true, verbose := false }
  shell := "\"\"\"\\\n\r'\x7f"
  placeholder := ""

/-- A working directory with the settings shown in a format, and a variable that is no setting. -/
def shownFile (c : Config) (f : Format) (name : String) : Surroundings where
  files := { files := [(["w".toList, name.toList], Text.encode (render c f))] }
  here := ["w".toList]
  environment := [⟨"HOME".toList, "/w".toList⟩]

/-- The tricky settings in both formats, and a number that only JSON takes. -/
theorem load_render_sample :
    load (shownFile trickySettings .toml "c.toml") (some "c.toml".toList) = .ok trickySettings
    ∧ load (shownFile trickySettings .json "c.json") (some "c.json".toList) = .ok trickySettings
    ∧ load (shownFile { parallel := { requested := 18446744073709551615 } } .json "c.json")
        (some "c.json".toList) = .ok { parallel := { requested := 18446744073709551615 } } := by
  have hhome (c : Config) (f : Format) (name : String) :
      ∀ v ∈ (shownFile c f name).environment, Environment.path? v.name = none :=
    List.forall_mem_cons.2 ⟨by decide, nofun⟩
  refine ⟨?_, ?_, ?_⟩
  · exact load_render (by decide) (by decide) (by decide) (by decide) rfl (hhome _ _ _)
  · exact load_render (by decide) (by decide) (by decide) (by decide) rfl (hhome _ _ _)
  · exact load_render (by decide) (by decide) (by decide) (by decide) rfl (hhome _ _ _)

end OrderedDispatch.Config
