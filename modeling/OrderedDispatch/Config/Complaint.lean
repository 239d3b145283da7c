/-
**Complaints about settings.**

A setting may have a value of the wrong kind, or a value of the right kind that is none of those
allowed; a section that is asked for may be missing; a whole number may be too wide to be handed
out.  A complaint about a value names the keys that lead to it and the place that it comes from.

Main definitions:

* `Config.Found`, `Config.Expected` — what was found and what was expected, in words;
* `Config.Complaint`, `Config.Complaint.message` — a complaint, and its text;
* `Config.Found.ofTree` — what a value is, for a complaint about it.
-/

import OrderedDispatch.Config.Tree
import OrderedDispatch.Number.Shortest
import OrderedDispatch.Text.Numeral
import OrderedDispatch.Text.Quoted

set_option relaxedAutoImplicit false
set_option autoImplicit false

namespace OrderedDispatch.Config

/-- What was found in the place of a setting. -/
inductive Found where
  | scalar (s : Scalar)
  | sequence
  | map
  deriving DecidableEq, Inhabited

/-- A whole number beyond 64 bits. -/
def isWide (n : Int) : Bool := n < -(Text.signedLimit : Int) || (Text.wordSize : Int) ≤ n

/-- A whole number in words. -/
def describeInt (signed : Bool) (n : Int) : String :=
  if (Text.wordSize : Int) ≤ n then "integer `" ++ toString n ++ "` as u128"
  else if n < -(Text.signedLimit : Int) then "integer `" ++ toString n ++ "` as i128"
  else (if signed then "signed" else "unsigned") ++ " int `" ++ toString n ++ "`"

/-- What was found, in words. -/
def Found.text : Found → String
  | .scalar .null => "unit"
  | .scalar (.bool b) => "bool " ++ toString b
  | .scalar (.int signed n) => describeInt signed n
  | .scalar (.float x) => "float `" ++ x.text ++ "`"
  | .scalar (.text s) => "string " ++ Text.quoted (String.ofList s)
  | .sequence => "sequence"
  | .map => "map"

/-- What a value is. -/
def Found.ofTree : Tree → Found
  | .leaf _ s => .scalar s
  | .list _ _ => .sequence
  | .table _ _ => .map

/-- What a document is. -/
def Found.ofDoc : Doc → Found
  | .scalar s => .scalar s
  | .list _ => .sequence
  | .table _ => .map

/-- What was expected of a value: a number of threads, an amount of memory, a text, a flag or the
section with a name. -/
inductive Expected where
  | count
  | amount
  | text
  | flag
  | settings (name : String)
  deriving DecidableEq, Inhabited

/-- The words for a flag. -/
def flagWords : String := "a boolean such as true/false, yes/no, on/off or 1/0"

/-- What was expected, in words. -/
def Expected.words : Expected → String
  | .count => "usize"
  | .amount => "u64"
  | .text => "a string"
  | .flag => flagWords
  | .settings name => "struct " ++ name

/-- What is wrong with a value: it is of the wrong kind, or of the right kind but not allowed, or a
whole number too wide to be handed out. -/
inductive Fault where
  | wrongType (found : Found) (expected : Expected)
  | wrongValue (found : Found) (expected : Expected)
  | tooWide
  deriving DecidableEq, Inhabited

/-- A complaint about settings: something is wrong with the value that some keys lead to, or the
section asked for does not exist. -/
inductive Complaint where
  | atKey (fault : Fault) (path : List Key) (origin : Origin)
  | missing (path : List Char)
  deriving DecidableEq, Inhabited

/-- What is wrong with a value, in words. -/
def Fault.message : Fault → String
  | .wrongType found expected =>
      "invalid type: found " ++ found.text ++ ", expected " ++ expected.words
  | .wrongValue found expected =>
      "invalid value " ++ found.text ++ ", expected " ++ expected.words
  | .tooWide => "JSON number out of range"

/-- What was found in a single JSON value, in words. -/
def Found.jsonText : Found → String
  | .scalar .null => "null"
  | .scalar (.bool b) => "boolean `" ++ toString b ++ "`"
  | .scalar (.int _ n) => "integer `" ++ toString n ++ "`"
  | .scalar (.float x) => "floating point `" ++ x.textWithPoint ++ "`"
  | .scalar (.text s) => "string " ++ Text.quoted (String.ofList s)
  | .sequence => "sequence"
  | .map => "map"

/-- What is wrong with a single JSON value, in words. -/
def Fault.jsonMessage : Fault → String
  | .wrongType found expected =>
      "invalid type: " ++ found.jsonText ++ ", expected " ++ expected.words
  | .wrongValue found expected =>
      "invalid value: " ++ found.jsonText ++ ", expected " ++ expected.words
  | .tooWide => Fault.tooWide.message

/-- The complaint in words. -/
def Complaint.message : Complaint → String
  | .atKey fault path origin =>
      fault.message ++ " for key " ++ Text.quoted (origin.keyText path) ++ " in "
        ++ origin.describe
  | .missing path => "missing field `" ++ String.ofList path ++ "`"

/-- The keys that a complaint names. -/
def Complaint.path : Complaint → List Key
  | .atKey _ path _ => path
  | .missing _ => []

/-- A complaint about a value one key further in. -/
def Complaint.under (key : Key) : Complaint → Complaint
  | .atKey fault path origin => .atKey fault (key :: path) origin
  | .missing path => .missing path

end OrderedDispatch.Config
