/-
**Putting the layers together.**

The lowest layer is built in.  Above it comes either the one file that was asked for, or the files
of the user's directory and then those of the project, four notations each; a file that does not
exist is no layer.  The environment is the highest layer.  A file whose text is no table in its
notation makes all settings unreadable, whatever the other layers hold.

Main definitions:

* `Config.toDoc` — settings as a document, the built-in ones among others;
* `Config.notationOf` — the notation that a file's name tells;
* `Config.Surroundings` — everything outside of the program that decides the settings;
* `Config.defaultText` — the file of settings that is built into the program;
* `Config.layers` — the layers, or the file that was asked for and is missing;
* `Config.merged` — the values of all layers, or the files that are unreadable;
* `Config.load` — the settings, or why there are none.
-/

import OrderedDispatch.Config.Environment
import OrderedDispatch.Config.Extract
import OrderedDispatch.Config.Files
import OrderedDispatch.Config.Json
import OrderedDispatch.Config.Toml.Document
import OrderedDispatch.Config.Yaml.Document
import OrderedDispatch.Text.Utf8

set_option relaxedAutoImplicit false
set_option autoImplicit false

namespace OrderedDispatch.Config

/-- Settings as a document. -/
def toDoc (c : Config) : Doc :=
  let number (n : Nat) : Doc := .scalar (.int true n)
  let flag (b : Bool) : Doc := .scalar (.bool b)
  .table [
    ("parallel".toList, .table [
      ("max_threads".toList, number c.parallel.maxThreads),
      ("memory_per_thread_mb".toList, number c.parallel.memoryPerThread),
      ("threads".toList, number c.parallel.requested)]),
    ("run".toList, .table [
      ("placeholder".toList, .ofText c.placeholder.toList),
      ("shell".toList, .ofText c.shell.toList)]),
    ("session".toList, .table [
      ("trace".toList, flag c.session.trace),
      ("verbose".toList, flag c.session.verbose)])]

/-! ### Files of settings -/

/-- The part of a file's name after its last point; a point at the start of a name does not
count. -/
def extension? (name : Name) : Option (List Char) :=
  match (Text.splitAt '.' name).reverse with
  | last :: before :: more => if more.isEmpty && before.isEmpty then none else some last
  | _ => none

/-- The notation that a file's name tells. -/
def notationOf (name : Name) : Notation :=
  match extension? name with
  | some e =>
      if e = "json".toList then .json
      else if e = "yaml".toList || e = "yml".toList then .yaml
      else .toml
  | none => .toml

/-- The table that a text spells in a notation. -/
def parse? (spelling : Notation) (s : List Char) : Option Doc :=
  let doc := match spelling with
    | .toml => Toml.read? s
    | .json => Json.read? s
    | .yaml => Yaml.read? s
  match doc with
  | some (.table entries) => some (.table entries)
  | _ => none

/-- The table that some bytes spell in a notation. -/
def parseBytes? (spelling : Notation) (bytes : List UInt8) : Option Doc :=
  (Text.decode bytes).bind (parse? spelling)

/-! ### Layers -/

/-- One layer: where it comes from, and its values unless it is unreadable. -/
structure Layer where
  origin : Origin
  content : Option Tree
  deriving Inhabited

/-- The layer of a document. -/
def Layer.ofDoc (origin : Origin) (d : Doc) : Layer := ⟨origin, some (.ofDoc origin d)⟩

/-- Everything outside of the program that decides the settings. -/
structure Surroundings where
  files : FileTree := {}
  /-- the working directory -/
  here : FilePath := []
  /-- the user's own directory, if it is known -/
  home : Option Location := none
  environment : List Environment.Variable := []
  deriving Inhabited

/-- The layer of a file that was found. -/
def layerOf (spelling : Notation) (h : FileTree.Hit) : Layer where
  origin := .file h.name spelling
  content := (parseBytes? spelling h.bytes).map (.ofDoc (.file h.name spelling))

/-- The layer of the file at a location, none if there is no file. -/
def fileLayer (s : Surroundings) (l : Location) (name : Name) : List Layer :=
  ((s.files.search? s.here l).map (layerOf (notationOf name))).toList

/-- The directory with the user's settings. -/
def userDirectory (s : Surroundings) : Location :=
  (s.home.getD (.relative [['~']])).below [".config".toList, "orderly".toList]

/-- The names of a settings file in each notation. -/
def candidates (stem : String) : List Name :=
  [".toml", ".json", ".yaml", ".yml"].map fun e => (stem ++ e).toList

/-- The layers of the user's and the project's files. -/
def standardLayers (s : Surroundings) : List Layer :=
  ((candidates "config").flatMap fun n => fileLayer s ((userDirectory s).below [n]) n)
    ++ (candidates "orderly").flatMap fun n => fileLayer s (.relative [n]) n

/-- The layer of the environment: the settings of all variables, later ones over earlier ones. -/
def environmentLayer (settings : List Environment.Variable) : Layer where
  origin := .environment
  content := some ((settings.filterMap Environment.setting?).foldl
    (fun t d => Tree.merge t (.ofDoc .environment d)) (.table .environment []))

/-- A file of settings that was asked for and does not exist. -/
structure NotFound where
  path : List Char
  deriving DecidableEq, Inhabited

/-- The failure in words. -/
def NotFound.message (e : NotFound) : String :=
  "Config file not found: " ++ String.ofList e.path

/-- The last name of a path. -/
def lastName (path : List Char) : Name := (Text.splitAt '/' path).getLastD []

/-- The lines of the file of settings that is built into the program. -/
def defaultLines : List String := [
  "# Orderly default configuration",
  "#",
  "# Override any of these in ~/.config/orderly/config.toml, ./orderly.toml,",
  "# a file passed with --config, or ORDERLY_<SECTION>__<KEY> environment variables.",
  "",
  "[parallel]",
  "# Worker threads to start (0 = choose automatically)",
  "threads = 0",
  "# Cap on the automatically chosen thread count",
  "max_threads = 12",
  "# Memory assumed per worker when choosing automatically (MiB)",
  "memory_per_thread_mb = 650",
  "",
  "[session]",
  "# Emit trace events when sessions open and close",
  "trace = false",
  "# Log per-item progress at info level",
  "verbose = false",
  "",
  "[run]",
  "# Shell used to run command templates",
  "shell = \"sh\"",
  "# Replaced by the item text in command templates",
  "placeholder = \"\x7b\x7d\""]

/-- The file of settings that is built into the program; it says what holds where nothing is
said. -/
def defaultText : List Char := defaultLines.flatMap fun line => line.toList ++ ['\n']

/-- The layers, the lowest first. -/
def layers (s : Surroundings) (custom : Option (List Char)) : Except NotFound (List Layer) :=
  let outer := [environmentLayer s.environment]
  let builtIn := Layer.ofDoc .builtIn (toDoc {})
  match custom with
  | none => .ok (builtIn :: standardLayers s ++ outer)
  | some path =>
      if s.files.isFile s.here (.ofText path) then
        .ok (builtIn :: fileLayer s (.ofText path) (lastName path) ++ outer)
      else .error ⟨path⟩

/-- The origins of the layers that are unreadable, the highest first. -/
def unreadable (ls : List Layer) : List Origin :=
  (ls.filter fun l => l.content.isNone).reverse.map Layer.origin

/-- The values of all layers, each over those before it. -/
def stacked (ls : List Layer) : Tree :=
  (ls.filterMap Layer.content).foldl Tree.merge (.table .builtIn [])

/-- The values of all layers, or the origins of those that are unreadable, the highest first. -/
def merged (ls : List Layer) : Except (List Origin) Tree :=
  if (unreadable ls).isEmpty then .ok (stacked ls) else .error (unreadable ls)

/-- Why there are no settings: the file that was asked for does not exist, some layers are
unreadable, the highest first, or a value does not fit. -/
inductive LoadError where
  | notFound (e : NotFound)
  | unreadable (origins : List Origin)
  | complaint (c : Complaint)
  deriving DecidableEq, Inhabited

/-- The failure in words. -/
def LoadError.message : LoadError → String
  | .notFound e => e.message
  | .unreadable origins =>
      parseContext ++ "unreadable: " ++ ", ".intercalate (origins.map Origin.describe)
  | .complaint c => parseContext ++ c.message

/-- The settings that the surroundings and perhaps one file decide on. -/
def load (s : Surroundings) (custom : Option (List Char)) : Except LoadError Config :=
  match layers s custom with
  | .error e => .error (.notFound e)
  | .ok ls =>
      match merged ls with
      | .error origins => .error (.unreadable origins)
      | .ok t =>
          match extract t with
          | .error c => .error (.complaint c)
          | .ok c => .ok c

end OrderedDispatch.Config
