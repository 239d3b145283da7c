/-
**Which layer decides a setting.**

The program reads seven settings out of all layers together.  When every section that a layer has is
a table, each setting is converted from the value in the highest layer that has its key: a section
given in part leaves the rest of it to lower layers, and keys that the program does not know change
nothing.

Main definitions:

* `Config.Tree.isSectioned` — every section in a layer is a table;
* `Config.settingsFiles`, `Config.precedence` — the files that are looked at, and the layers that are
  there, the lowest first;
* `Config.highest?` — the value in the highest layer that has what some keys lead to;
* `Config.Setting.Writes`, `Config.Setting.Spares` — what reading one setting does to a field;
* `Config.Knob`, `Config.Knob.path`, `Config.Knob.variableName`, `Config.Knob.Converts` — the seven
  settings, the keys and the variable of each, and what a value has to be converted to.

Main results:

* `Config.layers_eq` — the layers are put together in the order of precedence;
* `Config.find?_stacked` — a plain value in all layers together is that of the highest layer;
* `Config.Setting.fromTable_settles` — a field holds what the value of its setting is converted to;
* `Config.Knob.converts_of_extract` — each setting is converted from the value at its keys;
* `Config.load_highest` — **the highest layer that has a key decides**.
-/

import OrderedDispatch.Proofs.Config.Variables

set_option relaxedAutoImplicit false
set_option autoImplicit false

namespace OrderedDispatch.Config

variable {t v : Tree} {c : Config} {ls : List Layer}

/-! ### Layers in sections -/

/-- The names of the sections. -/
def sectionNames : List Key := ["parallel".toList, "session".toList, "run".toList]

/-- Whether a tree is a table in which every section that is present is a table itself. -/
def Tree.isSectioned (t : Tree) : Bool :=
  t.isTable && sectionNames.all fun n => (Entries.get? n t.entries).all Tree.isTable

theorem Tree.isOpenAt_of_isTable (h : t.isTable = true) (key : Key) : isOpenAt [key] t = true := by
  cases t with
  | table o es => simp [isOpenAt]
  | list o items => simp [isTable] at h
  | leaf o x => simp [isTable] at h

theorem Tree.isOpenAt_of_isSectioned (h : t.isSectioned = true) {name key : Key}
    (hname : name ∈ sectionNames) : isOpenAt [name, key] t = true := by
  obtain ⟨htable, hall⟩ := Bool.and_eq_true_iff.1 h
  cases t with
  | table o es =>
      have hsection := List.all_eq_true.1 hall name hname
      rw [isOpenAt, Option.all_eq_true]
      intro u hu
      exact isOpenAt_of_isTable ((Option.all_eq_true _ _).1 hsection u hu) key
  | list o items => simp [isTable] at htable
  | leaf o x => simp [isTable] at htable

/-! ### The layers in order -/

/-- The files of settings that are looked at, the lowest first, and the notation of each: the one
that was asked for, or those of the user's directory and then those of the project. -/
def settingsFiles (s : Surroundings) : Option (List Char) → List (Location × Notation)
  | some path => [(.ofText path, notationOf (lastName path))]
  | none => [
      ((userDirectory s).below ["config.toml".toList], .toml),
      ((userDirectory s).below ["config.json".toList], .json),
      ((userDirectory s).below ["config.yaml".toList], .yaml),
      ((userDirectory s).below ["config.yml".toList], .yaml),
      (.relative ["orderly.toml".toList], .toml),
      (.relative ["orderly.json".toList], .json),
      (.relative ["orderly.yaml".toList], .yaml),
      (.relative ["orderly.yml".toList], .yaml)]

/-- The layers that are there, the lowest first: the built-in settings, the files that exist, and the
environment. -/
def precedence (s : Surroundings) (custom : Option (List Char)) : List Layer :=
  Layer.ofDoc .builtIn (toDoc {})
    :: (settingsFiles s custom).filterMap
      (fun f => (s.files.search? s.here f.1).map (layerOf f.2))
    ++ [environmentLayer s.environment]

/-- The layers are put together in this order. -/
theorem layers_eq {s : Surroundings} {custom : Option (List Char)}
    (h : layers s custom = .ok ls) : ls = precedence s custom := by
  unfold layers at h
  rw [precedence, List.filterMap_eq_flatMap_toList]
  cases custom with
  | none =>
      cases h
      have huser : candidates "config" = ["config.toml".toList, "config.json".toList,
        "config.yaml".toList, "config.yml".toList] := rfl
      have hproject : candidates "orderly" = ["orderly.toml".toList, "orderly.json".toList,
        "orderly.yaml".toList, "orderly.yml".toList] := rfl
      rw [standardLayers, huser, hproject]
      simp only [settingsFiles, List.flatMap_cons, List.flatMap_nil, List.append_nil,
        List.append_assoc]
      rfl
  | some path =>
      dsimp only at h
      split at h
      · cases h
        rw [settingsFiles, List.flatMap_singleton]
        rfl
      · cases h

/-! ### All layers together -/

/-- The value in the highest layer that has what some keys lead to. -/
def highest? (path : List Key) (ls : List Layer) : Option Tree :=
  ls.reverse.findSome? fun l => l.content.bind (Tree.find? path)

/-- Readable layers are looked through by their contents. -/
theorem highest?_eq (path : List Key) (ls : List Layer) :
    highest? path ls = (ls.filterMap Layer.content).reverse.findSome? (Tree.find? path) := by
  rw [highest?, ← List.filterMap_reverse]
  induction ls.reverse with
  | nil => rfl
  | cons l rest ih =>
      cases hl : l.content with
      | none => rw [List.findSome?_cons, List.filterMap_cons, hl, ← ih]; rfl
      | some u => rw [List.findSome?_cons, List.filterMap_cons, hl, List.findSome?_cons, ih]; rfl

/-- The plain value that a path leads to in all layers together is that of the highest layer in
which it leads anywhere. -/
theorem find?_stacked {key : Key} {path : List Key}
    (hopen : ∀ u ∈ ls.filterMap Layer.content, Tree.isOpenAt (key :: path) u = true)
    (hv : v.isTable = false) :
    Tree.find? (key :: path) (stacked ls) = some v ↔ highest? (key :: path) ls = some v := by
  -- the empty table at the bottom of the stack has nothing to say
  have hbottom : [Tree.table .builtIn []].findSome? (Tree.find? (key :: path)) = none := rfl
  rw [stacked, Tree.find?_foldl_merge rfl hopen hv, List.reverse_cons, List.findSome?_append,
    hbottom, Option.or_none, highest?_eq]

/-- Settings come out only where every layer is readable, and then they are those of all layers
together. -/
theorem extract_of_load {s : Surroundings} {custom : Option (List Char)}
    (h : load s custom = .ok c) : extract (stacked (precedence s custom)) = .ok c := by
  rw [load] at h
  cases hls : layers s custom with
  | error e => simp [hls] at h
  | ok ls =>
      obtain rfl := layers_eq hls
      by_cases hreadable : (unreadable (precedence s custom)).isEmpty
      · have hmerged : merged (precedence s custom) = .ok (stacked (precedence s custom)) :=
          if_pos hreadable
        cases hextract : extract (stacked (precedence s custom)) with
        | error e => simp [hls, hmerged, hextract] at h
        | ok c' => simpa [hls, hmerged, hextract] using h
      · have hmerged : merged (precedence s custom) = .error (unreadable (precedence s custom)) :=
          if_neg hreadable
        simp [hls, hmerged] at h

/-! ### Reading a section -/

namespace Setting

variable {α β : Type} {entries : List (Key × Tree)} {s : Setting α} {rest : List (Setting α)}
  {a b : α}

/-- A setting writes a field: what its value is converted to is in the field afterwards. -/
def Writes (s : Setting α) (conv : Tree → Except Complaint β) (field : α → β) : Prop :=
  ∀ u x y, s.set u x = .ok y → conv u = .ok (field y)

/-- A setting spares a field: the field is the same afterwards. -/
def Spares (s : Setting α) (field : α → β) : Prop :=
  ∀ u x y, s.set u x = .ok y → field y = field x

section Converted

variable {γ : Type} {conv : Tree → Except Complaint γ} {put : α → γ → α}

theorem exists_of_set (h : ∀ u x, s.set u x = (conv u).map (put x)) {u : Tree} {x y : α}
    (hset : s.set u x = .ok y) : ∃ n, conv u = .ok n ∧ y = put x n := by
  rw [h] at hset
  cases hn : conv u with
  | error e => simp [hn, Except.map] at hset
  | ok n => exact ⟨n, rfl, by simpa [hn, Except.map] using hset.symm⟩

/-- A setting that converts its value and puts it into a field writes this field. -/
theorem writes_of_map {field : α → γ} (h : ∀ u x, s.set u x = (conv u).map (put x))
    (hfield : ∀ x n, field (put x n) = n) : s.Writes conv field := by
  intro u x y hset
  obtain ⟨n, hn, rfl⟩ := exists_of_set h hset
  rw [hfield, hn]

/-- A setting that converts its value and puts it elsewhere spares a field. -/
theorem spares_of_map {field : α → β} (h : ∀ u x, s.set u x = (conv u).map (put x))
    (hfield : ∀ x n, field (put x n) = field x) : s.Spares field := by
  intro u x y hset
  obtain ⟨n, -, rfl⟩ := exists_of_set h hset
  exact hfield x n

end Converted

/-- One setting is read, if its key is there, and then the others. -/
theorem fromTable_cons_eq_ok (h : fromTable entries (s :: rest) a = .ok b) :
    ∃ x, fromTable entries rest x = .ok b ∧
      (Entries.get? s.key entries = none ∧ x = a ∨
        ∃ u, Entries.get? s.key entries = some u ∧ s.set u a = .ok x) := by
  rw [fromTable] at h
  cases hu : Entries.get? s.key entries with
  | none => exact ⟨a, by simpa [hu] using h, .inl ⟨rfl, rfl⟩⟩
  | some u =>
      cases hset : s.set u a with
      | error e => simp [hu, hset] at h
      | ok x => exact ⟨x, by simpa [hu, hset] using h, .inr ⟨u, rfl, hset⟩⟩

/-- What every setting spares is as it was before. -/
theorem fromTable_spares (field : α → β) (h : fromTable entries rest a = .ok b)
    (hspares : ∀ s ∈ rest, s.Spares field) : field b = field a := by
  induction rest generalizing a with
  | nil =>
      obtain rfl : a = b := by simpa [fromTable] using h
      rfl
  | cons s rest ih =>
      obtain ⟨hs, hrest⟩ := List.forall_mem_cons.1 hspares
      obtain ⟨x, hx, ⟨-, rfl⟩ | ⟨u, -, hset⟩⟩ := fromTable_cons_eq_ok h
      · exact ih hx hrest
      · exact (ih hx hrest).trans (hs u a x hset)

/-- A field holds what the value of its setting is converted to, if the settings read after this
one spare it. -/
theorem fromTable_settles (field : α → β) (before after : List (Setting α))
    {conv : Tree → Except Complaint β} (h : fromTable entries (before ++ s :: after) a = .ok b)
    (hv : Entries.get? s.key entries = some v) (hwrites : s.Writes conv field)
    (hspares : ∀ s' ∈ after, s'.Spares field) : conv v = .ok (field b) := by
  induction before generalizing a with
  | nil =>
      obtain ⟨x, hx, ⟨hnone, -⟩ | ⟨u, hu, hux⟩⟩ := fromTable_cons_eq_ok h
      · simp [hv] at hnone
      · obtain rfl : v = u := Option.some.inj (hv.symm.trans hu)
        rw [fromTable_spares field hx hspares]
        exact hwrites v a x hux
  | cons s' before ih =>
      obtain ⟨x, hx, -⟩ := fromTable_cons_eq_ok h
      exact ih hx

end Setting

/-! ### The sections of the settings -/

theorem parallel_of_extract (h : extract t = .ok c)
    (hv : Entries.get? "parallel".toList t.entries = some v) :
    parallelSection.read {} v = .ok c.parallel := by
  refine Setting.fromTable_settles (fun c => c.parallel) [] [runPart, sessionPart] h hv ?_ ?_
  · exact Setting.writes_of_map (fun _ _ => rfl) fun _ _ => rfl
  · exact List.forall_mem_cons.2 ⟨Setting.spares_of_map (fun _ _ => rfl) fun _ _ => rfl,
      List.forall_mem_singleton.2 (Setting.spares_of_map (fun _ _ => rfl) fun _ _ => rfl)⟩

theorem run_of_extract (h : extract t = .ok c)
    (hv : Entries.get? "run".toList t.entries = some v) :
    runSection.read ("sh", "\x7b\x7d") v = .ok (c.shell, c.placeholder) := by
  refine Setting.fromTable_settles (fun c => (c.shell, c.placeholder)) [parallelPart] [sessionPart]
    h hv ?_ ?_
  · exact Setting.writes_of_map (fun _ _ => rfl) fun _ _ => rfl
  · exact List.forall_mem_singleton.2 (Setting.spares_of_map (fun _ _ => rfl) fun _ _ => rfl)

theorem session_of_extract (h : extract t = .ok c)
    (hv : Entries.get? "session".toList t.entries = some v) :
    sessionSection.read {} v = .ok c.session := by
  refine Setting.fromTable_settles (fun c => c.session) [parallelPart, runPart] [] h hv ?_ (by simp)
  exact Setting.writes_of_map (fun _ _ => rfl) fun _ _ => rfl

/-! ### The seven settings -/

/-- The settings of the program, one by one. -/
inductive Knob where
  | threads
  | maxThreads
  | memory
  | trace
  | verbose
  | shell
  | placeholder
  deriving DecidableEq

namespace Knob

/-- The section that a setting stands in. -/
def sectionName : Knob → Key
  | threads | maxThreads | memory => "parallel".toList
  | trace | verbose => "session".toList
  | shell | placeholder => "run".toList

/-- The key of a setting in its section. -/
def key : Knob → Key
  | threads => "threads".toList
  | maxThreads => "max_threads".toList
  | memory => "memory_per_thread_mb".toList
  | trace => "trace".toList
  | verbose => "verbose".toList
  | shell => "shell".toList
  | placeholder => "placeholder".toList

/-- The keys that lead to a setting. -/
def path (k : Knob) : List Key := [k.sectionName, k.key]

/-- The value is converted to what the settings have in this place. -/
def Converts (v : Tree) (c : Config) : Knob → Prop
  | threads => word? .count v = .ok c.parallel.requested
  | maxThreads => word? .count v = .ok c.parallel.maxThreads
  | memory => word? .amount v = .ok c.parallel.memoryPerThread
  | trace => flag? v = .ok c.session.trace
  | verbose => flag? v = .ok c.session.verbose
  | shell => text? v = .ok c.shell
  | placeholder => text? v = .ok c.placeholder

theorem sectionName_mem (k : Knob) : k.sectionName ∈ sectionNames := by
  cases k <;> decide

/-- The built-in settings have every key. -/
theorem isSome_find?_builtIn (k : Knob) :
    (Tree.find? k.path (.ofDoc .builtIn (toDoc {}))).isSome := by
  cases k <;> decide

/-- The keys of a setting lead through the table of its section. -/
theorem exists_of_find? {k : Knob} (h : Tree.find? k.path t = some v) :
    ∃ o es, Entries.get? k.sectionName t.entries = some (.table o es) ∧
      Entries.get? k.key es = some v := by
  cases t with
  | table o es =>
      obtain ⟨u, hu, hkey⟩ := Option.bind_eq_some_iff.1 h
      cases u with
      | table ou eu =>
          obtain ⟨w, hw, rfl⟩ : ∃ w, Entries.get? k.key eu = some w ∧ w = v := by
            simpa [Tree.find?] using hkey
          exact ⟨ou, eu, hu, hw⟩
      | list ou items => simp [Tree.find?] at hkey
      | leaf ou x => simp [Tree.find?] at hkey
  | list o items => simp [path, Tree.find?] at h
  | leaf o x => simp [path, Tree.find?] at h

/-- No setting is converted from a table. -/
theorem Converts.isTable {k : Knob} (h : k.Converts v c) : v.isTable = false := by
  cases v with
  | table o es => cases k <;> simp [Converts, word?, flag?, text?, flagOf, complain, Found.ofTree] at h
  | list o items => rfl
  | leaf o x => rfl

/-- Each setting is converted from the value that its keys lead to. -/
theorem converts_of_extract {k : Knob} (h : extract t = .ok c)
    (hv : Tree.find? k.path t = some v) : k.Converts v c := by
  obtain ⟨o, es, hsection, hkey⟩ := exists_of_find? hv
  cases k with
  | threads =>
      refine Setting.fromTable_settles Sizing.Policy.requested
        [maxThreadsSetting, memorySetting] [] (parallel_of_extract h hsection) hkey ?_ (by simp)
      exact Setting.writes_of_map (fun _ _ => rfl) fun _ _ => rfl
  | maxThreads =>
      refine Setting.fromTable_settles Sizing.Policy.maxThreads
        [] [memorySetting, threadsSetting] (parallel_of_extract h hsection) hkey ?_ ?_
      · exact Setting.writes_of_map (fun _ _ => rfl) fun _ _ => rfl
      · exact List.forall_mem_cons.2 ⟨Setting.spares_of_map (fun _ _ => rfl) fun _ _ => rfl,
          List.forall_mem_singleton.2 (Setting.spares_of_map (fun _ _ => rfl) fun _ _ => rfl)⟩
  | memory =>
      refine Setting.fromTable_settles Sizing.Policy.memoryPerThread
        [maxThreadsSetting] [threadsSetting] (parallel_of_extract h hsection) hkey ?_ ?_
      · exact Setting.writes_of_map (fun _ _ => rfl) fun _ _ => rfl
      · exact List.forall_mem_singleton.2 (Setting.spares_of_map (fun _ _ => rfl) fun _ _ => rfl)
  | trace =>
      refine Setting.fromTable_settles Settings.trace
        [] [verboseSetting] (session_of_extract h hsection) hkey ?_ ?_
      · exact Setting.writes_of_map (fun _ _ => rfl) fun _ _ => rfl
      · exact List.forall_mem_singleton.2 (Setting.spares_of_map (fun _ _ => rfl) fun _ _ => rfl)
  | verbose =>
      refine Setting.fromTable_settles Settings.verbose
        [traceSetting] [] (session_of_extract h hsection) hkey ?_ (by simp)
      exact Setting.writes_of_map (fun _ _ => rfl) fun _ _ => rfl
  | shell =>
      refine Setting.fromTable_settles Prod.fst
        [placeholderSetting] [] (run_of_extract h hsection) hkey ?_ (by simp)
      exact Setting.writes_of_map (fun _ _ => rfl) fun _ _ => rfl
  | placeholder =>
      refine Setting.fromTable_settles Prod.snd
        [] [shellSetting] (run_of_extract h hsection) hkey ?_ ?_
      · exact Setting.writes_of_map (fun _ _ => rfl) fun _ _ => rfl
      · exact List.forall_mem_singleton.2 (Setting.spares_of_map (fun _ _ => rfl) fun _ _ => rfl)

end Knob

/-! ### The variable of a setting -/

/-- The name of the variable that makes a setting, in lower case. -/
def Knob.variableName : Knob → List Char
  | threads => "orderly_parallel__threads".toList
  | maxThreads => "orderly_parallel__max_threads".toList
  | memory => "orderly_parallel__memory_per_thread_mb".toList
  | trace => "orderly_session__trace".toList
  | verbose => "orderly_session__verbose".toList
  | shell => "orderly_run__shell".toList
  | placeholder => "orderly_run__placeholder".toList

/-- A blank stays one in lower case. -/
theorem isBlank_toLower {ch : Char} (h : Text.isBlank ch = true) :
    Text.isBlank ch.toLower = true := by
  have hsame : ch.toLower = ch := by
    refine dif_neg fun hcapital => ?_
    have hge : 65 ≤ ch.toNat := UInt32.le_iff_toNat_le.1 hcapital.1
    have hle : ch.toNat ≤ 90 := UInt32.le_iff_toNat_le.1 hcapital.2
    simp [Text.isBlank] at h
    omega
  rw [hsame, h]

/-- The variable of a setting spells its keys, whichever of its letters are capital. -/
theorem Knob.path?_variableName (k : Knob) {name : List Char}
    (h : name.map Char.toLower = k.variableName) : Environment.path? name = some k.path := by
  have hplain : ∀ ch ∈ name, Text.isBlank ch = false := by
    intro ch hch
    have hmem : ch.toLower ∈ k.variableName := h ▸ List.mem_map_of_mem hch
    have hvisible : (k.variableName.any Text.isBlank) = false := by
      cases k <;> decide +kernel
    refine Bool.eq_false_iff.2 fun hblank => ?_
    exact List.any_eq_false.1 hvisible _ hmem (isBlank_toLower hblank)
  rw [Environment.path?, Text.trim_eq_self hplain, h]
  cases k <;> decide +kernel

/-! ### The highest layer decides -/

/-- Where settings come out at all and every section in every layer is a table, each of the seven
settings is converted from the value in the highest layer that has its key, whatever else the layers
hold.  As long as no variable's keys lead on to those of another, the environment has for some keys
the value that a variable says; and a variable named for a setting spells the keys of the setting. -/
theorem load_highest {s : Surroundings} {custom : Option (List Char)}
    (hload : load s custom = .ok c)
    (hsections : ∀ l ∈ precedence s custom, ∀ t ∈ l.content, t.isSectioned = true)
    (hapart : (s.environment.filterMap fun w => Environment.path? w.name).Pairwise Apart) :
    (∀ k : Knob, ∃ v, highest? k.path (precedence s custom) = some v ∧ k.Converts v c) ∧
      (∀ (path : List Key) (v : Tree), v.isTable = false →
        ((environmentLayer s.environment).content.bind (Tree.find? path) = some v ↔
          ∃ w ∈ s.environment, w.Says path v)) ∧
      ∀ (k : Knob) (name : List Char), name.map Char.toLower = k.variableName →
        Environment.path? name = some k.path := by
  refine ⟨?_, fun path v hv => find?_environmentLayer hapart hv, fun k name => k.path?_variableName⟩
  intro k
  have hopen : ∀ u ∈ (precedence s custom).filterMap Layer.content,
      Tree.isOpenAt k.path u = true := by
    intro u hu
    obtain ⟨l, hl, hcontent⟩ := List.mem_filterMap.1 hu
    exact Tree.isOpenAt_of_isSectioned (hsections l hl u hcontent) k.sectionName_mem
  have hbuiltIn : Tree.ofDoc .builtIn (toDoc {}) ∈ (precedence s custom).filterMap Layer.content :=
    List.mem_filterMap.2 ⟨Layer.ofDoc .builtIn (toDoc {}), List.mem_cons_self, rfl⟩
  have hsome : (Tree.find? k.path (stacked (precedence s custom))).isSome :=
    Tree.isSome_find?_foldl_merge rfl hopen (List.mem_cons_of_mem _ hbuiltIn) k.isSome_find?_builtIn
  obtain ⟨v, hv⟩ := Option.isSome_iff_exists.1 hsome
  have hconv : k.Converts v c := Knob.converts_of_extract (extract_of_load hload) hv
  exact ⟨v, (find?_stacked hopen hconv.isTable).1 hv, hconv⟩

/-- A user's file, a file of the project and two variables, which share the section for threads and
leave parts of every section to the built-in settings. -/
def layeredSample : Surroundings where
  files := { files := [
    (["home", ".config", "orderly", "config.toml"].map String.toList,
      Text.encode "[parallel]\nthreads = 3\nmax_threads = 8\ncolour = 1\n".toList),
    (["work", "orderly.json"].map String.toList,
      Text.encode "\x7b\"parallel\": \x7b\"max_threads\": 5\x7d, \"colour\": 2\x7d".toList)] }
  here := ["work".toList]
  home := some (.fromRoot ["home".toList])
  environment := [⟨"ORDERLY_RUN__SHELL".toList, "bash".toList⟩,
    ⟨"ORDERLY_SESSION__TRACE".toList, "yes".toList⟩]

/-- What the settings come to there. -/
def layeredSettings : Config where
  parallel := { requested := 3, maxThreads := 5 }
  session := { trace := true }
  shell := "bash"

/-- The cap on threads comes from the project's file and the number of threads from the user's. -/
theorem load_highest_sample : load layeredSample none = .ok layeredSettings ∧
    ∀ k : Knob, ∃ v, highest? k.path (precedence layeredSample none) = some v
      ∧ k.Converts v layeredSettings := by
  have hload : load layeredSample none = .ok layeredSettings := by decide +kernel
  exact ⟨hload, (load_highest hload (by decide +kernel) (by decide +kernel)).1⟩

end OrderedDispatch.Config
