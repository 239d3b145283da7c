/-
**What the settings see of the file system.**

When no file is asked for, settings come from four files in the user's directory and from four of
the project.  Those of the project are looked for in the working directory and then in each directory
above it, so that a file far up may decide which program runs the command lines.  It does so only if
no directory on the way has a file of the same name.  So the settings are the same in two file
systems that agree on the user's four files and, for each of the four names of a project's file, on
the directories from the working directory up to the nearest that has it.

Main definitions:

* `FileTree.Alike` — two trees hold the same at a location;
* `FileTree.AlikeUp` — two trees hold the same wherever a name is looked for.

Main results:

* `FileTree.searchUp?_congr` — a search ends at the first file, so that nothing above it counts;
* `Config.load_isolated` — **the settings see nothing else of the file system**;
* `Config.load_sees_above` — but they do see a file above the working directory.
-/

import Mathlib.Data.List.Infix
import OrderedDispatch.Proofs.Config.Refusal

set_option relaxedAutoImplicit false
set_option autoImplicit false

namespace OrderedDispatch

/-! ### Trees that hold the same -/

/-- Whether a location depends on the working directory. -/
def Location.isRelative : Location → Bool
  | relative _ => true
  | _ => false

@[simp] theorem Location.isRelative_below (l : Location) (steps : List Name) :
    (l.below steps).isRelative = l.isRelative := by
  cases l <;> rfl

namespace FileTree

variable {t t' : FileTree} {here : FilePath} {name : Name}

/-- Two trees hold the same at a location: files of equal content, or no file. -/
def Alike (t t' : FileTree) (here : FilePath) (l : Location) : Prop :=
  (t.read here l).toOption = (t'.read here l).toOption

instance (t t' : FileTree) (here : FilePath) (l : Location) : Decidable (Alike t t' here l) :=
  inferInstanceAs (Decidable (_ = _))

/-- Two trees hold the same wherever a name is looked for: in the working directory and in those
above it, up to the first that has a file of this name. -/
def AlikeUp (t t' : FileTree) (here : FilePath) (name : Name) : Prop :=
  ∀ dir ∈ here.inits,
    (∀ near ∈ here.inits, dir <+: near → near ≠ dir → t.isFile near (.relative [name]) = false) →
      Alike t t' dir (.relative [name])

instance (t t' : FileTree) (here : FilePath) (name : Name) : Decidable (AlikeUp t t' here name) :=
  inferInstanceAs (Decidable (∀ dir ∈ here.inits,
    (∀ near ∈ here.inits, dir <+: near → near ≠ dir → t.isFile near (.relative [name]) = false) →
      Alike t t' dir (.relative [name])))

theorem read_name (hname : name ≠ []) (t : FileTree) (dir : FilePath) :
    t.read dir (.relative [name]) = t.content dir [name] :=
  if_neg fun h => hname (List.singleton_inj.1 h)

/-! ### Searching -/

/-- A directory that leads to another is this one or leads to the one that this one is in. -/
theorem eq_or_above {dir base : FilePath} (h : dir <+: base) :
    dir = base ∨ dir <+: base.dropLast := by
  rcases List.eq_nil_or_concat base with rfl | ⟨above, last, rfl⟩
  · exact .inl (List.prefix_nil.1 h)
  · rw [List.concat_eq_append] at h ⊢
    rw [List.dropLast_concat]
    exact List.prefix_concat_iff.1 h

/-- A search finds what is here, and otherwise what is found from the directory above. -/
theorem searchUp?_eq (t : FileTree) (here : FilePath) (steps : List Name) (left : Nat)
    (base : FilePath) : t.searchUp? here steps left base
      = ((t.content base steps).toOption.map (hit here (base ++ tidy steps))).or
        (match left with
          | 0 => none
          | left + 1 => t.searchUp? here steps left base.dropLast) := by
  cases left <;> rw [searchUp?] <;> cases t.content base steps <;> rfl

/-- **A search ends at the first file**, so that nothing above it counts. -/
theorem searchUp?_congr {steps : List Name} (left : Nat) (base : FilePath)
    (h : ∀ dir, dir <+: base →
      (∀ near, dir <+: near → near <+: base → near ≠ dir →
        (t.content near steps).toOption = none) →
        (t.content dir steps).toOption = (t'.content dir steps).toOption) :
    t.searchUp? here steps left base = t'.searchUp? here steps left base := by
  induction left generalizing base with
  | zero =>
      have hbase := h base (List.prefix_refl _) fun near hfrom hto hne =>
        absurd (hto.eq_of_length_le hfrom.length_le) hne
      rw [searchUp?_eq, searchUp?_eq, hbase]
  | succ left ih =>
      have hbase := h base (List.prefix_refl _) fun near hfrom hto hne =>
        absurd (hto.eq_of_length_le hfrom.length_le) hne
      rw [searchUp?_eq, searchUp?_eq, hbase]
      cases hhere : (t'.content base steps).toOption with
      | some bytes => rfl
      | none =>
          -- there is no file here, and the search goes on above
          refine congrArg (Option.or none) (ih base.dropLast fun dir hdir hnone => ?_)
          refine h dir (hdir.trans (List.dropLast_prefix _)) fun near hfrom hto hne => ?_
          rcases eq_or_above hto with rfl | hto
          · rw [hbase, hhere]
          · exact hnone near hfrom hto hne

/-- The same file of a project is found in trees that hold the same wherever it is looked for. -/
theorem search?_of_alikeUp (hname : name ≠ []) (h : AlikeUp t t' here name) :
    t.search? here (.relative [name]) = t'.search? here (.relative [name]) := by
  refine searchUp?_congr _ _ fun dir hdir hnone => ?_
  rw [← read_name hname, ← read_name hname]
  refine h dir ((List.mem_inits _ _).2 hdir) fun near hnear hfrom hne => ?_
  have hnothing := hnone near hfrom ((List.mem_inits _ _).1 hnear) hne
  rw [isFile, read_name hname]
  cases hc : t.content near [name] with
  | ok bytes => simp [hc, Except.toOption] at hnothing
  | error e => rfl

theorem hitFromRoot?_eq (t : FileTree) (here : FilePath) (steps : List Name) :
    t.hitFromRoot? here steps = (t.content [] steps).toOption.map (hit here (tidy steps)) := by
  rw [hitFromRoot?]
  cases t.content [] steps <;> rfl

/-- The same file is found from the root in trees that hold the same there. -/
theorem search?_of_alike {l : Location} (hl : l.isRelative = false) (h : Alike t t' here l) :
    t.search? here l = t'.search? here l := by
  have habsolute : ∀ (t : FileTree) (steps : List Name), t.search? here (.absolute steps)
      = (t.read here (.absolute steps)).toOption.map (hit here (tidy steps)) := by
    intro t steps
    rw [search?, read, hitFromRoot?_eq]
    cases t.isWhole <;> rfl
  cases l with
  | relative steps => cases hl
  | fromRoot steps => rw [search?, search?, hitFromRoot?_eq, hitFromRoot?_eq, ← read, ← read, h]
  | absolute steps => rw [habsolute, habsolute, h]

end FileTree

/-! ### The settings -/

namespace Config

open FileTree

theorem load_congr {s s' : Surroundings} (h : precedence s none = precedence s' none) :
    load s none = load s' none := by
  have hlayers : layers s none = layers s' none := by
    rw [layers_of_isFile (by simp), layers_of_isFile (by simp), h]
  rw [load, load, hlayers]

/-- **The settings see nothing else of the file system.**  If no file is asked for and the user's
directory does not depend on the working directory, the settings are the same in two trees that agree
on the user's files and, for each name of a project's file, on the directories from the working
directory up to the nearest that has it. -/
theorem load_isolated {s : Surroundings} {files' : FileTree}
    (hhome : s.home.any (fun l => !l.isRelative) = true)
    (huser : ∀ n ∈ candidates "config", Alike s.files files' s.here ((userDirectory s).below [n]))
    (hproject : ∀ n ∈ candidates "orderly", AlikeUp s.files files' s.here n) :
    load s none = load { s with files := files' } none := by
  have hrooted : (userDirectory s).isRelative = false := by
    obtain ⟨l, hl, hrooted⟩ := (Option.any_eq_true _ _).1 hhome
    rw [userDirectory, hl]
    simpa using hrooted
  refine load_congr ?_
  have hsame : ∀ f ∈ settingsFiles s none,
      s.files.search? s.here f.1 = files'.search? s.here f.1 := by
    have huser' : ∀ n ∈ candidates "config",
        s.files.search? s.here ((userDirectory s).below [n])
          = files'.search? s.here ((userDirectory s).below [n]) := fun n hn =>
      search?_of_alike (by rw [Location.isRelative_below, hrooted]) (huser n hn)
    have hproject' : ∀ n ∈ candidates "orderly",
        s.files.search? s.here (.relative [n]) = files'.search? s.here (.relative [n]) := by
      intro n hn
      refine search?_of_alikeUp (fun hempty => ?_) (hproject n hn)
      revert n
      decide
    intro f hf
    simp only [settingsFiles, List.mem_cons, List.not_mem_nil, or_false] at hf
    rcases hf with rfl | rfl | rfl | rfl | rfl | rfl | rfl | rfl
    · exact huser' _ (by decide)
    · exact huser' _ (by decide)
    · exact huser' _ (by decide)
    · exact huser' _ (by decide)
    · exact hproject' _ (by decide)
    · exact hproject' _ (by decide)
    · exact hproject' _ (by decide)
    · exact hproject' _ (by decide)
  have hfiles : settingsFiles { s with files := files' } none = settingsFiles s none := rfl
  rw [precedence, precedence, hfiles]
  refine congrArg (fun ls => _ :: ls ++ _) (List.filterMap_congr fun f hf => ?_)
  rw [hsame f hf]

/-- In the sample of a user's file and a file of the project, a second file of the same name further
up and a file that is none of the eight make no difference. -/
theorem load_isolated_sample :
    let more : FileTree := { files := layeredSample.files.files ++ [
      (["orderly.json"].map String.toList, Text.encode "\x7b\"run\": 1\x7d".toList),
      (["work", "orderly.ini"].map String.toList, Text.encode "[run]\n".toList)] }
    load { layeredSample with files := more } none = .ok layeredSettings := by
  intro more
  have hload : load layeredSample none = .ok layeredSettings := by decide +kernel
  have hsame : load layeredSample none = load { layeredSample with files := more } none :=
    load_isolated rfl (by decide +kernel) (by decide +kernel)
  rw [← hsame, hload]

/-- A working directory without files, in a tree that holds one file of settings right above it if
one is given. -/
def emptyHere (above : List (FilePath × List UInt8)) : Surroundings where
  files := { files := above, directories := [["home".toList], ["work".toList]] }
  here := ["work".toList]
  home := some (.fromRoot ["home".toList])

/-- A file above the working directory is read, and decides on the shell, though neither the user's
directory nor the working directory holds any file. -/
theorem load_sees_above :
    let bare := emptyHere []
    let above := emptyHere [(["orderly.toml".toList],
      Text.encode "[run]\nshell = \"other\"\n".toList)]
    (∀ n ∈ candidates "config", Alike bare.files above.files bare.here
        ((userDirectory bare).below [n]))
      ∧ (∀ n ∈ candidates "orderly", Alike bare.files above.files bare.here (.relative [n]))
      ∧ load bare none = .ok {} ∧ load above none = .ok { shell := "other" } := by
  decide +kernel

end Config

end OrderedDispatch
