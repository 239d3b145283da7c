/-
**Nodes of YAML.**

A node is a scalar, a list or a table.  Lists and tables are written in blocks, by indentation, or
between brackets.  A node may be named by an anchor, to be repeated by an alias, and may carry a
tag; standard tags decide how a scalar is read, and any other tag is refused.  An alias has neither,
and repeats no node that it is part of.

A key without a mark of its own is one only if its colon comes soon: on the same line, and at most
1024 characters after the key begins.

Main definitions:

* `Config.Yaml.Place` — a place in a text, with the anchors met before it;
* `Config.Yaml.Cursor.mayEndKey` — whether a key may end at a place;
* `Config.Yaml.flowNode?`, `Config.Yaml.blockNode?` — a node between brackets, and one in a block.
-/

import OrderedDispatch.Config.Yaml.Nesting
import OrderedDispatch.Config.Yaml.Scalar
import OrderedDispatch.Config.Yaml.Text

set_option relaxedAutoImplicit false
set_option autoImplicit false

namespace OrderedDispatch.Config.Yaml

/-- A place in a text, with the anchors met before it. -/
structure Place where
  cursor : Cursor
  /-- the nodes with these names, the latest first; a node that is still being read is missing -/
  anchors : List (List Char × Option Node) := []

/-- The place after something. -/
def Place.at (p : Place) (c : Cursor) : Place := { p with cursor := c }

/-- The next place where something stands. -/
def Place.next? (flow : Bool) (p : Place) : Option Place := do
  let c ← p.cursor.next? flow
  if flow && c.atMarker then none else some (p.at c)

/-! ### Properties -/

/-- A tag: one of the standard ones, by its name, or any other. -/
inductive Tag where
  | standard (name : List Char)
  | other
  deriving DecidableEq, Inhabited

/-- What may stand before a node. -/
structure Properties where
  anchor : Option (List Char) := none
  tag : Option Tag := none
  deriving DecidableEq, Inhabited

/-- A character of an anchor's name. -/
def isNameChar (c : Char) : Bool := Text.isLetter c || Text.isDigit c || c = '_' || c = '-'

/-- Whether a name ends properly before a text. -/
def endsName : List Char → Bool
  | [] => true
  | c :: _ => isSpace c || c = '\n' || isFlowMark c || c = ':' || c = '?' || c = '%' || c = '@'

/-- The name of an anchor or an alias after its mark. -/
def name? (s : List Char) : Option (List Char) :=
  let name := s.takeWhile isNameChar
  if name.isEmpty || !(endsName (s.drop name.length)) then none else some name

/-- A tag, given the text after its exclamation mark. -/
def tagOf (s : List Char) : Tag :=
  match s with
  | '!' :: name => .standard name
  | '<' :: rest =>
      match Text.stripStart? "tag:yaml.org,2002:".toList rest with
      | some name => .standard name.dropLast
      | none => .other
  | _ => .other

/-- The properties before a node on the same line. -/
def properties? (flow : Bool) : Nat → Properties → Cursor → Option (Properties × Cursor)
  | 0, _, _ => none
  | steps + 1, p, c =>
      match c.rest with
      | '&' :: rest =>
          match name? rest with
          | none => none
          | some name =>
              if p.anchor.isSome then none
              else
                properties? flow steps { p with anchor := some name }
                  (c.past (1 + name.length)).skipSpaces
      | '!' :: rest =>
          let body := rest.takeWhile fun d =>
            !(isSpace d || d = '\n' || (flow && isFlowMark d))
          if p.tag.isSome then none
          else
            properties? flow steps { p with tag := some (tagOf body) }
              (c.past (1 + body.length)).skipSpaces
      | _ => some (p, c)

/-- A scalar with its properties' tag. -/
def scalar? (p : Properties) (isPlain : Bool) (text : List Char) : Option Node :=
  match p.tag with
  | none => some (.ofScalar (if isPlain then resolve text else .text text) text)
  | some (.standard tag) => (resolveTagged? tag text).map fun s => .ofScalar s text
  | some .other => none

/-- A list or a table with its properties' tag. -/
def collection? (p : Properties) (n : Node) : Option Node :=
  if p.tag = some .other then none else some n

/-- The place where a node with a properties' anchor begins. -/
def Place.opened (p : Properties) (place : Place) : Place :=
  { place with anchors := (p.anchor.toList.map fun name => (name, none)) ++ place.anchors }

/-- A node named by its properties' anchor. -/
def named (p : Properties) (n : Node) (place : Place) : Node × Place :=
  (n, { place with anchors := (p.anchor.toList.map fun name => (name, some n)) ++ place.anchors })

/-- The node that an alias repeats, given its properties and the text after its mark. -/
def alias? (p : Properties) (place : Place) (rest : List Char) : Option (Node × Place) := do
  let name ← name? rest
  let entry ← place.anchors.find? fun a => a.1 = name
  let n ← entry.2
  if p = {} then some (n.aliased, place.at (place.cursor.past (1 + name.length))) else none

/-- Whether a mark stands alone at the front of a text. -/
def atMark (mark : Char) : List Char → Bool
  | c :: rest => c = mark && atBlank rest
  | [] => false

/-- How many characters after the start of a key its colon may come. -/
def maxKeyLength : Nat := 1024

/-- Whether a key that begins at one place may have its colon at another. -/
def Cursor.mayEndKey (start c : Cursor) : Bool :=
  c.line = start.line && c.column ≤ start.column + maxKeyLength

/-! ### Nodes between brackets -/

mutual

/-- A node between brackets. -/
def flowNode? : Nat → Place → Option (Node × Place)
  | 0, _ => none
  | steps + 1, place => do
      let place ← place.next? true
      let (p, c) ← properties? true 3 {} place.cursor
      let place ← (place.at c).next? true
      match place.cursor.rest with
      | '[' :: _ =>
          let (items, after) ←
            flowItems? steps [] ((place.at (place.cursor.past 1)).opened p)
          let n ← collection? p (.ofItems items)
          some (named p n after)
      | '\x7b' :: _ =>
          let (entries, after) ←
            flowEntries? steps [] ((place.at (place.cursor.past 1)).opened p)
          let n ← collection? p (.ofEntries entries)
          some (named p n after)
      | '*' :: rest => alias? p place rest
      | c :: rest =>
          if c = '"' || c = '\'' then
            let chunk ← quoted? place.cursor
            let n ← scalar? p false chunk.text
            some (named p n (place.at chunk.after))
          else if mayBeginPlain true (c :: rest) then
            let chunk ← plain? true 0 (plainStart true place.cursor)
            let n ← scalar? p true chunk.text
            some (named p n (place.at chunk.after))
          else if p = {} then none
          else
            let n ← scalar? p true []
            some (named p n place)
      | [] => none

/-- The value after a key between brackets, which begins at the cursor `start`: none if no colon
follows. -/
def flowValue? : Nat → (start : Cursor) → Place → Option (Option Node × Place)
  | 0, _, _ => none
  | steps + 1, start, place => do
      let place ← place.next? true
      match place.cursor.rest with
      | ':' :: _ =>
          if !start.mayEndKey place.cursor then none
          else
            let place ← (place.at (place.cursor.past 1)).next? true
            match place.cursor.rest with
            | ',' :: _ => some (some .empty, place)
            | ']' :: _ => some (some .empty, place)
            | '\x7d' :: _ => some (some .empty, place)
            | _ =>
                let (n, place) ← flowNode? steps place
                let place ← place.next? true
                some (some n, place)
      | _ => some (none, place)

/-- The items of a list after its opening bracket or after one of its commas. -/
def flowItems? : Nat → List Node → Place → Option (List Node × Place)
  | 0, _, _ => none
  | steps + 1, acc, place => do
      let place ← place.next? true
      match place.cursor.rest with
      | ']' :: _ => some (acc.reverse, place.at (place.cursor.past 1))
      | _ =>
          let start := place.cursor
          let (n, place) ← flowNode? steps place
          let (value, place) ← flowValue? steps start place
          let item ← match value with
            | none => some n
            | some v => n.key.map fun key => .ofEntries [⟨key, n.extent, v⟩]
          match place.cursor.rest with
          | ',' :: _ => flowItems? steps (item :: acc) (place.at (place.cursor.past 1))
          | ']' :: _ => some ((item :: acc).reverse, place.at (place.cursor.past 1))
          | _ => none

/-- The entries of a table after its opening brace or after one of its commas, the latest first. -/
def flowEntries? : Nat → List Entry → Place → Option (List Entry × Place)
  | 0, _, _ => none
  | steps + 1, acc, place => do
      let place ← place.next? true
      match place.cursor.rest with
      | '\x7d' :: _ => some (acc, place.at (place.cursor.past 1))
      | _ =>
          let start := place.cursor
          let (n, place) ← flowNode? steps place
          let key ← n.key
          let (value, place) ← flowValue? steps start place
          let entries := ⟨key, n.extent, value.getD .empty⟩ :: acc
          match place.cursor.rest with
          | ',' :: _ => flowEntries? steps entries (place.at (place.cursor.past 1))
          | '\x7d' :: _ => some (entries, place.at (place.cursor.past 1))
          | _ => none

end

/-- A list or a table between brackets. -/
def brackets? (place : Place) : Option (Node × Place) :=
  flowNode? (4 * place.cursor.rest.length + 8) place

/-! ### Nodes in blocks -/

/-- A scalar, an alias, a list or a table that begins at a place and might be a key; a plain scalar
only up to the end of its line. -/
def inline? (p : Properties) (place : Place) : Option (Node × Place) :=
  match place.cursor.rest with
  | '[' :: _ => brackets? (place.opened p)
  | '\x7b' :: _ => brackets? (place.opened p)
  | '*' :: rest => alias? p place rest
  | c :: rest =>
      if c = '"' || c = '\'' then do
        let chunk ← quoted? place.cursor
        let n ← scalar? p false chunk.text
        some (n, place.at chunk.after)
      else if mayBeginPlain false (c :: rest) then do
        let chunk := plainStart false place.cursor
        let n ← scalar? p true chunk.text
        some (n, place.at chunk.after)
      else none
  | [] => none

/-- Whether what stands at the front of a text is plain. -/
def isPlainStart : List Char → Bool
  | [] => false
  | c :: rest => c ≠ '"' && c ≠ '\'' && c ≠ '[' && c ≠ '\x7b' && c ≠ '*'
      && mayBeginPlain false (c :: rest)

/-- The place after the colon of a key that begins at the cursor `start`, if a colon follows. -/
def afterColon? (start : Cursor) (place : Place) : Option Place :=
  let c := place.cursor.skipSpaces
  if start.mayEndKey c && atMark ':' c.rest then some (place.at (c.past 1)) else none

/-- The place after a mark, where a key may begin. -/
def Place.afterMark (place : Place) : Place :=
  place.at { place.cursor.skip 1 with fresh := true }

mutual

/-- A node in a block, further indented than `parent`; a list that is the value of a key may be as
far indented as the key. -/
def blockNode? : Nat → (parent : Int) → (isValue : Bool) → Place → Option (Node × Place)
  | 0, _, _, _ => none
  | steps + 1, parent, isValue, place => do
      let place ← place.next? false
      let c := place.cursor
      let isList := isValue && c.fresh && (c.column : Int) = parent && atMark '-' c.rest
      if c.atEnd || ((c.column : Int) ≤ parent && !isList) then some (.empty, place)
      else
        let (p, d) ← properties? false 3 {} c
        match d.rest with
        | '\n' :: _ =>
            let (n, after) ← blockNode? steps parent isValue ((place.at d).opened p)
            if n.isAlias then none
            else
              let n ← match p.tag, n.key with
                | none, _ => some n
                | some _, some text => scalar? p true text
                | some _, none => collection? p n
              some (named p n after)
        | [] =>
            let n ← scalar? p true []
            some (named p n (place.at d))
        | _ => blockContent? steps parent p c (place.at d)

/-- A node in a block after its properties, which begin at the cursor `start`. -/
def blockContent? : Nat → (parent : Int) → Properties → (start : Cursor) → Place →
    Option (Node × Place)
  | 0, _, _, _, _ => none
  | steps + 1, parent, p, start, place => do
      let c := place.cursor
      if atMark '-' c.rest then
        if c.fresh then
          let (items, after) ← blockItems? steps c.column [] place
          some (.ofItems items, after)
        else none
      else if atMark '?' c.rest then
        if c.fresh then
          let (entries, after) ← blockEntries? steps c.column [] place
          some (.ofEntries entries, after)
        else none
      else if c.rest.head? = some '|' || c.rest.head? = some '>' then
        let chunk ← block? parent c
        let n ← scalar? p false chunk.text
        some (named p n (place.at chunk.after))
      else
        let (n, after) ← inline? p place
        if start.fresh && (afterColon? start after).isSome then
          let (entries, after) ← blockEntries? steps start.column [] (place.at start)
          some (.ofEntries entries, after)
        else if isPlainStart c.rest then
          let chunk ← plain? false (parent + 1).toNat (plainStart false c)
          let n ← scalar? p true chunk.text
          some (named p n (place.at chunk.after))
        else
          let n ← if p.tag.isSome && n.key.isNone then collection? p n else some n
          some (named p n after)

/-- The items of a list whose marks stand in a column. -/
def blockItems? : Nat → (column : Nat) → List Node → Place → Option (List Node × Place)
  | 0, _, _, _ => none
  | steps + 1, column, acc, place => do
      let (n, after) ← blockNode? steps column false place.afterMark
      let after ← after.next? false
      let c := after.cursor
      if c.atEnd || c.column < column then some ((n :: acc).reverse, after)
      else if !c.fresh || c.column ≠ column then none
      else if atMark '-' c.rest then blockItems? steps column (n :: acc) after
      else some ((n :: acc).reverse, after)

/-- A key in a column with its node's extent, whether it has a value, and the place where that is to
be read. -/
def blockKey? : Nat → (column : Nat) → Place → Option ((Key × Extent × Bool) × Place)
  | 0, _, _ => none
  | steps + 1, column, place => do
      if atMark '?' place.cursor.rest then
        let (n, after) ← blockNode? steps column false place.afterMark
        let key ← n.key
        let after ← after.next? false
        let c := after.cursor
        if c.fresh && c.column = column && !c.atEnd && atMark ':' c.rest then
          some ((key, n.extent, true), after.afterMark)
        else some ((key, n.extent, false), after)
      else
        let (p, d) ← properties? false 3 {} place.cursor
        let (n, after) ← inline? p (place.at d)
        let (n, after) := named p n after
        let key ← n.key
        let after ← afterColon? place.cursor after
        some ((key, n.extent, true), after)

/-- The entries of a table whose keys stand in a column, the latest first. -/
def blockEntries? : Nat → (column : Nat) → List Entry → Place → Option (List Entry × Place)
  | 0, _, _, _ => none
  | steps + 1, column, acc, place => do
      let ((key, keyExtent, hasValue), after) ← blockKey? steps column place
      let (n, after) ← if hasValue then blockNode? steps column true after
        else some (.empty, after)
      let entries := ⟨key, keyExtent, n⟩ :: acc
      let after ← after.next? false
      let c := after.cursor
      if c.atEnd || c.column < column then some (entries, after)
      else if !c.fresh || c.column ≠ column then none
      else blockEntries? steps column entries after

end

end OrderedDispatch.Config.Yaml
