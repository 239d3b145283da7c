/-
**One command for each item.**

The work of an item is to fill it into the command template, to run the command line in a shell,
and to pass on what the command prints.  A command that ends in any way but success makes the item
fail, after its output has been passed on; a command that could not be started leaves no output.

Main definitions:

* `Command.World` — the variables and files that commands see;
* `Command.Runner` — a template and the items to fill into it;
* `Command.Runner.work` — the work of an item;
* `Command.RunError` — why an item failed.

Main results:

* `Command.Runner.work_of_missing` — beyond the last item there is nothing but an error.
-/

import OrderedDispatch.Command.Program
import OrderedDispatch.Command.Template
import OrderedDispatch.Dispatch.Work

set_option relaxedAutoImplicit false
set_option autoImplicit false

namespace OrderedDispatch.Command

/-- The variables and files that commands see. -/
structure World where
  environment : List (List Char × List Char) := []
  files : FileTree := {}
  /-- the working directory -/
  here : FilePath := []
  deriving Inhabited

/-- A template and the items to fill into it. -/
structure Runner where
  template : Template
  items : List (List Char)
  world : World := {}
  deriving Inhabited

/-- Why an item failed: there is no such item, its shell could not be started, or its command did
not succeed. -/
inductive RunError where
  | noItem (index : Nat)
  | notStarted (shell : String) (reason : LaunchError)
  | unsuccessful (shell : String) (item : List Char) (status : ExitStatus)
  deriving DecidableEq, Inhabited

/-- The failure in words. -/
def RunError.message : RunError → String
  | .noItem index => "No item at index " ++ toString index
  | .notStarted shell reason => "Failed to start " ++ shell ++ ": " ++ reason.message
  | .unsuccessful shell item status =>
      "item " ++ Text.quoted (String.ofList item) ++ ": " ++ status.describe shell

namespace Runner

/-- The process of a command line in the session of an item. -/
def launch (r : Runner) (thread index : Nat) (commandLine : List Char) : Launch where
  program := r.template.shell.toList
  args := ["-c".toList, commandLine]
  environment := r.world.environment
    ++ [("ORDERLY_SESSION_ID".toList, (Session.label thread index).toList),
      ("ORDERLY_INDEX".toList, Template.decimal index)]
  files := r.world.files
  here := r.world.here

/-- What follows the start of a command. -/
def afterwards (shell : String) (item : List Char) (trace : Bool) :
    Except LaunchError Completed → Script
  | .error reason => [.fail (RunError.notStarted shell reason).message]
  | .ok c =>
      .write c.out ::
        (if !c.status.isSuccess then [.fail (RunError.unsuccessful shell item c.status).message]
        else if trace then [.note (.exitNote (c.status.describe shell))]
        else [])

/-- The work of an item on a thread. -/
def work (r : Runner) (settings : Settings) (thread index : Nat) : Script :=
  match r.items[index]? with
  | none => [.fail (RunError.noItem index).message]
  | some item =>
      let commandLine := r.template.render item index
      .note (.running (String.ofList commandLine))
        :: afterwards r.template.shell item settings.trace (r.launch thread index commandLine).run

/-- Beyond the last item there is nothing but an error. -/
theorem work_of_missing {r : Runner} {settings : Settings} {thread index : Nat}
    (h : r.items.length ≤ index) :
    r.work settings thread index = [.fail (RunError.noItem index).message] := by
  simp [work, List.getElem?_eq_none h]

end Runner

end OrderedDispatch.Command
