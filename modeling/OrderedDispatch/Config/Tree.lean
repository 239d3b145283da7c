/-
**Layered values.**

Settings come from several sources, one laid over the other.  Every value remembers the source that
it comes from, so that a complaint about it can name the place.  Where two layers both have a table,
the result is the table of all their keys, each key again layered; anywhere else the higher layer
hides the lower one.

Main definitions:

* `Config.Notation`, `Config.Origin` — where values come from, and how messages say so;
* `Config.Tree` — values with their origins;
* `Config.Tree.merge` — one layer over another;
* `Config.Tree.find?` — the value that a path of keys leads to.

Main results:

* `Config.Tree.merge_leaf`, `Config.Tree.merge_list` — what is no table hides the lower layer.
-/

import OrderedDispatch.Config.Doc
import OrderedDispatch.Text.Pattern

set_option relaxedAutoImplicit false
set_option autoImplicit false

namespace OrderedDispatch.Config

/-- The notations that a file of settings can be written in. -/
inductive Notation where
  | toml
  | json
  | yaml
  deriving DecidableEq, Inhabited

/-- The name of a notation. -/
def Notation.name : Notation → String
  | .toml => "TOML"
  | .json => "JSON"
  | .yaml => "YAML"

/-- Where a value comes from: the settings built into the program, a file, by the name that messages
use for it, or the environment. -/
inductive Origin where
  | builtIn
  | file (name : String) (spelling : Notation)
  | environment
  deriving DecidableEq, Inhabited

namespace Origin

/-- The origin as messages name it. -/
def describe : Origin → String
  | builtIn => "TOML source string"
  | file name spelling => name ++ " " ++ spelling.name ++ " file"
  | environment => "`ORDERLY_` environment variable(s)"

/-- The keys that lead to a value as messages name them: those of a variable in upper case, those of
a file under the profile that its settings belong to. -/
def keyText (o : Origin) (path : List Key) : String :=
  let joined := String.ofList (['.'].intercalate path)
  match o with
  | environment => String.ofList (joined.toList.map Char.toUpper)
  | _ => if path.isEmpty then "default" else "default." ++ joined

end Origin

/-- Values with their origins. -/
inductive Tree where
  | leaf (origin : Origin) (s : Scalar)
  | list (origin : Origin) (items : List Tree)
  | table (origin : Origin) (entries : List (Key × Tree))
  deriving Inhabited

namespace Tree

/-- The origin of a value. -/
def origin : Tree → Origin
  | leaf o _ => o
  | list o _ => o
  | table o _ => o

mutual

/-- A document as values of one origin. -/
def ofDoc (o : Origin) : Doc → Tree
  | .scalar s => .leaf o s
  | .list items => .list o (ofDocs o items)
  | .table entries => .table o (ofEntries o entries)

/-- Documents as values of one origin. -/
def ofDocs (o : Origin) : List Doc → List Tree
  | [] => []
  | d :: rest => ofDoc o d :: ofDocs o rest

/-- The entries of a table as values of one origin. -/
def ofEntries (o : Origin) : List (Key × Doc) → List (Key × Tree)
  | [] => []
  | (k, d) :: rest => (k, ofDoc o d) :: ofEntries o rest

end

/-- The entries of a table, none for what is no table. -/
def entries : Tree → List (Key × Tree)
  | table _ es => es
  | _ => []

/-- Whether a value is a table. -/
def isTable : Tree → Bool
  | table _ _ => true
  | _ => false

mutual

/-- A value laid over another. -/
def merge (low : Tree) : Tree → Tree
  | .table o high => if low.isTable then .table o (mergeEntries low.entries high) else .table o high
  | .list o items => .list o items
  | .leaf o s => .leaf o s

/-- The entries of a table laid over those of another. -/
def mergeEntries (low : List (Key × Tree)) : List (Key × Tree) → List (Key × Tree)
  | [] => low
  | (k, v) :: rest =>
      Entries.put k
        (match Entries.get? k low with
          | some old => merge old v
          | none => v)
        (mergeEntries low rest)

end

@[simp] theorem merge_leaf (low : Tree) (o : Origin) (s : Scalar) :
    merge low (.leaf o s) = .leaf o s := by
  simp only [merge]

@[simp] theorem merge_list (low : Tree) (o : Origin) (items : List Tree) :
    merge low (.list o items) = .list o items := by
  simp only [merge]

/-- The value that some keys lead to through tables. -/
def find? : List Key → Tree → Option Tree
  | [], t => some t
  | k :: path, .table _ es => (Entries.get? k es).bind (find? path)
  | _ :: _, _ => none

end Tree

end OrderedDispatch.Config
